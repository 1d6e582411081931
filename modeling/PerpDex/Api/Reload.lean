import PerpDex.Api.Mirror
import PerpDex.OrderBook.Failover

/-! Reading the mirror back.
Rows come back by increasing id, so a fresh book that loads them has the same quantity at
every price in the same time priority.
-/

namespace PerpDex

open OrderBook

/-- The orders resting at a price, oldest first. -/
def OrderBook.levelAt (book : OrderBook) (side : Side) (price : Int) : List Order :=
  ((book.levels side).get? price).getD []

theorem addToBook_levelAt (book : OrderBook) (order : Order) (side : Side) (price : Int)
    : (book.addToBook order).levelAt side price
      = book.levelAt side price
        ++ [order].filter (fun order => order.side = side ∧ order.price.raw = price) := by
  rcases side.eq_or_opposite order.side with same | other
  · subst same
    simp only [OrderBook.levelAt, addToBook_levels, BTreeMap.get?_upsert]
    by_cases priced : price = order.price.raw
    · simp [priced]
    · simp [priced, Ne.symm priced]
  · subst other
    have apart : order.side ≠ order.side.opposite := by cases order.side <;> decide
    simp only [OrderBook.levelAt, addToBook_levels_opposite]
    simp [apart]

/-- Loading appends to each level the orders that belong there, in the order given. -/
theorem loadOrders_levelAt (book : OrderBook) (orders : List Order) (side : Side) (price : Int)
    : (book.loadOrders orders).levelAt side price
      = book.levelAt side price
        ++ orders.filter (fun order => order.side = side ∧ order.price.raw = price) := by
  induction orders generalizing book with
  | nil => simp [OrderBook.loadOrders]
  | cons order rest ih =>
      have unfolded : (book.loadOrders (order :: rest)).levelAt side price
          = (book.addToBook order).levelAt side price
            ++ rest.filter (fun order => order.side = side ∧ order.price.raw = price) := by
        rw [loadOrders_cons, ih]
        congr 1
        split_ifs
        · rw [addToBook_levelAt, addToBook_levelAt]
          cases side <;> rfl
        · rfl
      rw [unfolded, addToBook_levelAt, List.append_assoc, ← List.filter_append]
      rfl

/-- A mirror is read back row by row; no row is dropped. -/
theorem Mirrors.load_eq {crypto : Crypto} {table : RestingOrders} {book : OrderBook}
    (mirrors : Mirrors crypto table book)
    : loadRestingOrders crypto table
      = table.entries.map (fun entry => rowOrder entry.1 entry.2) := by
  rw [loadRestingOrders, ← List.filterMap_eq_map]
  refine List.filterMap_congr (fun entry member => ?_)
  obtain ⟨valid, owner⟩ := mirrors.verified entry.1 entry.2 (BTreeMap.get?_eq_some_iff.mpr member)
  simp [valid, owner]

/-- The views read back are those of the resting orders. -/
theorem Mirrors.mem_load {crypto : Crypto} {table : RestingOrders} {book : OrderBook}
    (inv : BookInv book) (mirrors : Mirrors crypto table book) (view : OrderView)
    : view ∈ (loadRestingOrders crypto table).map Order.view
      ↔ view ∈ book.restingOrders.map Order.view := by
  rw [mirrors.load_eq, List.map_map]
  constructor
  · intro member
    obtain ⟨entry, found, rfl⟩ := List.mem_map.mp member
    have row := mirrors.rows entry.1
    rw [BTreeMap.get?_eq_some_iff.mpr found, Option.map_some] at row
    obtain ⟨order, stored, same⟩ := Option.map_eq_some_iff.mp row.symm
    obtain ⟨present, _⟩ := (getOrder_eq_some_iff inv).mp stored
    exact List.mem_map.mpr ⟨order, present, same⟩
  · intro member
    obtain ⟨order, present, rfl⟩ := List.mem_map.mp member
    have row := mirrors.rows order.id
    rw [(getOrder_eq_some_iff inv).mpr ⟨present, rfl⟩, Option.map_some] at row
    obtain ⟨stored, found, same⟩ := Option.map_eq_some_iff.mp row
    exact List.mem_map.mpr ⟨(order.id, stored), BTreeMap.get?_eq_some_iff.mp found, same⟩

/-- Rows are read back by increasing id. -/
theorem Mirrors.load_increasing {crypto : Crypto} {table : RestingOrders} {book : OrderBook}
    (mirrors : Mirrors crypto table book)
    : ((loadRestingOrders crypto table).map Order.view).Pairwise
        (fun left right => left.id < right.id) := by
  rw [mirrors.load_eq, List.map_map]
  exact List.pairwise_map.mpr table.sorted

/-- Two lists of views by increasing id with the same members are equal. -/
theorem views_eq {left right : List OrderView}
    (leftIncreasing : left.Pairwise (fun left right => left.id < right.id))
    (rightIncreasing : right.Pairwise (fun left right => left.id < right.id))
    (members : ∀ view, view ∈ left ↔ view ∈ right)
    : left = right := by
  have nodup : ∀ {views : List OrderView},
      views.Pairwise (fun left right => left.id < right.id) → views.Nodup := fun increasing =>
    increasing.imp (fun below clash => by simp [clash] at below)
  have perm := (List.perm_ext_iff_of_nodup (nodup leftIncreasing) (nodup rightIncreasing)).mpr
    members
  exact perm.eq_of_pairwise (fun _ _ _ _ below above => absurd below above.asymm) leftIncreasing
    rightIncreasing

theorem mem_levelAt {book : OrderBook} (inv : BookInv book) {side : Side} {price : Int}
    {order : Order}
    : order ∈ book.levelAt side price
      ↔ order ∈ book.restingOrders ∧ order.side = side ∧ order.price.raw = price := by
  constructor
  · intro member
    cases found : (book.levels side).get? price with
    | none => simp [OrderBook.levelAt, found] at member
    | some level =>
        have entry := BTreeMap.get?_eq_some_iff.mp found
        have present : order ∈ level := by simpa [OrderBook.levelAt, found] using member
        have rests := (inv.levels side).resting _ entry order present
        exact ⟨mem_restingOrders.mpr ⟨side, mem_queue.mpr ⟨_, entry, present⟩⟩, rests.side,
          rests.price⟩
  · intro given
    rcases given with ⟨member, rfl, rfl⟩
    obtain ⟨side, queued⟩ := mem_restingOrders.mp member
    obtain ⟨entry, found, present⟩ := mem_queue.mp queued
    have rests := (inv.levels side).resting entry found order present
    rw [rests.side, rests.price, OrderBook.levelAt, BTreeMap.get?_eq_some_iff.mpr found]
    exact present

theorem levelAt_increasing {book : OrderBook} (inv : BookInv book) (side : Side) (price : Int)
    : ((book.levelAt side price).map Order.view).Pairwise
        (fun left right => left.id < right.id) := by
  cases found : (book.levels side).get? price with
  | none => simp [OrderBook.levelAt, found]
  | some level =>
      have increasing := (inv.levels side).increasing _ (BTreeMap.get?_eq_some_iff.mp found)
      simp only [OrderBook.levelAt, found, Option.getD_some, List.pairwise_map] at increasing ⊢
      exact increasing

/-- A failover that loads a mirror rebuilds every level in time priority.
Witness: both levels list the same views by increasing id.
-/
theorem Mirrors.reload {crypto : Crypto} {table : RestingOrders} {book : OrderBook}
    (inv : BookInv book) (mirrors : Mirrors crypto table book) (market : String) (side : Side)
    (price : Int)
    : (((OrderBook.new market).loadOrders (loadRestingOrders crypto table)).levelAt side
          price).map Order.view
      = (book.levelAt side price).map Order.view := by
  have fresh : (OrderBook.new market).levelAt side price = [] := by cases side <;> rfl
  rw [loadOrders_levelAt, fresh, List.nil_append]
  have filtered : ((loadRestingOrders crypto table).filter
      (fun order => order.side = side ∧ order.price.raw = price)).map Order.view
      = ((loadRestingOrders crypto table).map Order.view).filter
          (fun view => view.side = side ∧ view.price.raw = price) := by
    rw [List.filter_map]
    rfl
  rw [filtered]
  refine views_eq (mirrors.load_increasing.filter _) (levelAt_increasing inv side price)
    (fun view => ?_)
  rw [List.mem_filter, mirrors.mem_load inv]
  simp only [List.mem_map, mem_levelAt inv, decide_eq_true_eq]
  constructor
  · intro given
    rcases given with ⟨⟨order, member, rfl⟩, sided, priced⟩
    exact ⟨order, ⟨member, sided, priced⟩, rfl⟩
  · intro given
    rcases given with ⟨order, ⟨member, sided, priced⟩, rfl⟩
    exact ⟨⟨order, member, rfl⟩, sided, priced⟩

/-- The state an API node starts in: an empty book and an empty table. -/
def AppState.initial {σ : Type} (market peerId : String) (publishes isSequencer : Bool)
    (enclave : σ) : AppState σ where
  engine := .new market peerId publishes
  enclave := enclave
  db := some .empty
  isSequencer := isSequencer

theorem MirrorInv.initial {σ : Type} (crypto : Crypto) (market peerId : String)
    (publishes isSequencer : Bool) (enclave : σ)
    : MirrorInv crypto (AppState.initial market peerId publishes isSequencer enclave) where
  book := .new market
  uncancelled := fun _ _ found => absurd found (by simp [AppState.initial, TradingEngine.new,
    OrderBook.getOrder, OrderBook.new, OrderBook.restingOrders, BTreeMap.values, BTreeMap.empty])
  mirrored := ⟨.empty, rfl, fun _ => rfl, fun _ _ found => by simp at found⟩

/-- Along every run whose requests all meet the condition, the table read back is exactly
the resting orders, and loading it into a fresh book rebuilds every level in time priority.
-/
theorem table_mirrors_book {σ : Type} (perp : PerpClient σ) (crypto : Crypto)
    (market peerId : String) (publishes isSequencer : Bool) (enclave : σ)
    (requests : List (ApiRequest crypto))
    (safe
      : SafeRun perp (AppState.initial market peerId publishes isSequencer enclave) requests)
    : ∃ table,
        ((AppState.initial market peerId publishes isSequencer enclave).run perp requests).db
          = some table
        ∧ ((loadRestingOrders crypto table).map Order.view).Perm
            (((AppState.initial market peerId publishes isSequencer enclave).run perp
              requests).engine.book.restingOrders.map Order.view)
        ∧ ∀ side price,
            (((OrderBook.new market).loadOrders (loadRestingOrders crypto table)).levelAt side
                price).map Order.view
              = (((AppState.initial market peerId publishes isSequencer enclave).run perp
                  requests).engine.book.levelAt side price).map Order.view := by
  obtain ⟨inv, _, table, stored, mirrors⟩ :=
    (MirrorInv.initial crypto market peerId publishes isSequencer enclave).run perp safe
  refine ⟨table, stored, ?_, mirrors.reload inv market⟩
  have distinct : (((AppState.initial market peerId publishes isSequencer enclave).run perp
      requests).engine.book.restingOrders.map Order.view).Nodup := by
    have ids := inv.distinct
    have viewed : (fun view : OrderView => view.id) ∘ Order.view = Order.id := rfl
    rw [← viewed, ← List.map_map] at ids
    exact ids.of_map _
  have loaded : ((loadRestingOrders crypto table).map Order.view).Nodup :=
    mirrors.load_increasing.imp (fun below clash => by simp [clash] at below)
  exact (List.perm_ext_iff_of_nodup loaded distinct).mpr (mirrors.mem_load inv)

/-- A request for one unit at price one, with the defaults of the wire format. -/
def unitRequest (userId side : String) : SubmitOrderRequest where
  userId := userId
  market := none
  side := side
  orderType := "limit"
  price := some "1.0"
  size := "1.0"
  leverage := 1
  timeInForce := "gtc"
  reduceOnly := false
  clientOrderId := none

def makerSells : ApiRequest sampleCrypto :=
  .submitOrder ⟨sellOneBinding, sellOneBinding_verifies⟩ (unitRequest makerAddress "sell") ⟨0, 0⟩

def takerBuys : ApiRequest sampleCrypto :=
  .submitOrder ⟨buyOneBinding, buyOneBinding_verifies⟩ (unitRequest takerAddress "buy") ⟨0, 0⟩

/-- The taker closes a position of one unit it is short. -/
def takerCloses : ApiRequest sampleCrypto :=
  .closePosition (some ⟨takerAddress⟩) ⟨closeOneBinding, closeOneBinding_verifies⟩ 7 ⟨0, 0⟩

/-- An enclave in which every account is short one unit. -/
def shortPerp : PerpClient Unit :=
  grantingPerp "1000.0"
    [.object
      [("position_id", .number (.posInt 7)), ("side", .string "short"),
        ("size", .string "1.0")]]

/-- Two orders rest and one of them is taken: the table keeps the other. -/
theorem table_mirrors_book_fill
    : SafeRun shortPerp (AppState.initial "XRP-USD-PERP" "" false true ())
        [makerSells, makerSells, takerBuys]
      ∧ ∃ table,
          ((AppState.initial "XRP-USD-PERP" "" false true ()).run shortPerp
            [makerSells, makerSells, takerBuys]).db = some table
          ∧ ((loadRestingOrders sampleCrypto table).map Order.view).Perm
              (((AppState.initial "XRP-USD-PERP" "" false true ()).run shortPerp
                [makerSells, makerSells, takerBuys]).engine.book.restingOrders.map
                Order.view) := by
  have safe : SafeRun shortPerp (AppState.initial "XRP-USD-PERP" "" false true ())
      [makerSells, makerSells, takerBuys] := by
    have sells : parseSubmit (unitRequest makerAddress "sell")
        = .ok (unitOrder makerAddress .short) := by decide +kernel
    have buys : parseSubmit (unitRequest takerAddress "buy")
        = .ok (unitOrder takerAddress .long) := by decide +kernel
    refine ⟨?_, ?_, ?_, trivial⟩
    · intro args _ parsed _ _
      rw [← Except.ok.inj (sells.symm.trans parsed)]
      decide +kernel
    · intro args _ parsed _ _
      rw [← Except.ok.inj (sells.symm.trans parsed)]
      decide +kernel
    · intro args _ parsed _ _
      rw [← Except.ok.inj (buys.symm.trans parsed)]
      decide +kernel
  obtain ⟨table, stored, perm, _⟩ := table_mirrors_book shortPerp sampleCrypto "XRP-USD-PERP" ""
    false true () [makerSells, makerSells, takerBuys] safe
  exact ⟨safe, table, stored, perm⟩

/-- A single row under its owner's signature is read back. -/
theorem loadRestingOrders_single {crypto : Crypto} {table : RestingOrders} {orderId : Nat}
    {binding : OrderSignatureBinding} {userId : String}
    (columns
      : table.entries.map (fun entry => (entry.1, entry.2.binding, entry.2.userId))
        = [(orderId, binding, userId)])
    (verified : verifySignatureOnly crypto binding = .ok ())
    (owned : binding.signerAddress = userId)
    : (loadRestingOrders crypto table).map Order.id = [orderId] := by
  obtain ⟨entry, single, same⟩ := List.map_eq_singleton_iff.mp columns
  obtain ⟨stored, row⟩ := entry
  simp only [Prod.mk.injEq] at same
  obtain ⟨rfl, rfl, rfl⟩ := same
  rw [loadRestingOrders, single]
  simp [verified, owned, rowOrder]

/-- A close takes the maker's order off the book but leaves its row in the table. -/
theorem close_leaves_stale_row
    : ((AppState.initial "XRP-USD-PERP" "" false true ()).run shortPerp
          [makerSells, takerCloses]).engine.book.restingOrders = []
      ∧ ((AppState.initial "XRP-USD-PERP" "" false true ()).run shortPerp
          [makerSells, takerCloses]).db.map
            (fun table => (loadRestingOrders sampleCrypto table).map Order.id) = some [1] := by
  have ended
      : ((AppState.initial "XRP-USD-PERP" "" false true ()).run shortPerp
            [makerSells, takerCloses]).engine.book.restingOrders = []
        ∧ ((AppState.initial "XRP-USD-PERP" "" false true ()).run shortPerp
            [makerSells, takerCloses]).db.map
              (fun table =>
                table.entries.map (fun entry => (entry.1, entry.2.binding, entry.2.userId)))
          = some [(1, sellOneBinding, makerAddress)] := by
    decide +kernel
  obtain ⟨table, stored, columns⟩ := Option.map_eq_some_iff.mp ended.2
  refine ⟨ended.1, ?_⟩
  rw [stored, Option.map_some, loadRestingOrders_single columns sellOneBinding_verifies rfl]

end PerpDex
