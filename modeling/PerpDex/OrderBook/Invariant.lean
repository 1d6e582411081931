import PerpDex.OrderBook.Queue

/-! The representation invariant of the book along every run of its operations.
Matching and cancelling only thin the two queues; resting an order adds one fresh order
that no opposite order crosses. The invariant follows from these two shapes of change.
-/

namespace PerpDex

open OrderBook

/-- Both sides are well formed, ids are distinct and issued, and the book is uncrossed. -/
structure BookInv (book : OrderBook) : Prop where
  bids : LevelsInv .long book.bids
  asks : LevelsInv .short book.asks
  distinct : (book.restingOrders.map Order.id).Nodup
  issued : ∀ order ∈ book.restingOrders, order.id < book.nextOrderId
  uncrossed : ∀ bid ∈ book.bids.keys, ∀ ask ∈ book.asks.keys, bid < ask

theorem BookInv.levels {book : OrderBook} (inv : BookInv book) (side : Side)
    : LevelsInv side (book.levels side) := by
  cases side
  · exact inv.bids
  · exact inv.asks

theorem BookInv.new (market : String) : BookInv (.new market) where
  bids := .empty .long
  asks := .empty .short
  distinct := List.nodup_nil
  issued := fun _ member => absurd member List.not_mem_nil
  uncrossed := fun _ member => absurd member List.not_mem_nil

/-- The resting orders are those of the two queues. -/
theorem restingOrders_perm (book : OrderBook) (side : Side)
    : book.restingOrders.Perm
        (queue side (book.levels side) ++ queue side.opposite (book.levels side.opposite)) := by
  have whole : book.restingOrders.Perm (queue .long book.bids ++ queue .short book.asks) :=
    ((queue_perm .long book.bids).append (queue_perm .short book.asks)).symm
  cases side
  · exact whole
  · exact whole.trans List.perm_append_comm

theorem mem_restingOrders {book : OrderBook} {order : Order}
    : order ∈ book.restingOrders ↔ ∃ side, order ∈ queue side (book.levels side) := by
  rw [(restingOrders_perm book .long).mem_iff, List.mem_append]
  constructor
  · intro given
    rcases given with bid | ask
    · exact ⟨.long, bid⟩
    · exact ⟨.short, ask⟩
  · intro given
    rcases given with ⟨_ | _, member⟩
    · exact Or.inl member
    · exact Or.inr member

/-- On a well-formed side the prices with a level are the prices of its orders. -/
theorem LevelsInv.mem_keys_iff {side : Side} {levels : Levels} (inv : LevelsInv side levels)
    {price : Int}
    : price ∈ levels.keys ↔ ∃ order ∈ queue side levels, order.price.raw = price := by
  constructor
  · intro member
    obtain ⟨entry, found, rfl⟩ := List.mem_map.mp member
    obtain ⟨order, present⟩ := List.exists_mem_of_ne_nil _ (inv.nonempty entry found)
    exact ⟨order, mem_queue.mpr ⟨entry, found, present⟩,
      (inv.resting entry found order present).price⟩
  · intro given
    rcases given with ⟨order, member, rfl⟩
    obtain ⟨entry, found, present⟩ := mem_queue.mp member
    rw [(inv.resting entry found order present).price]
    exact List.mem_map_of_mem found

/-- On a well-formed side every order belongs to that side. -/
theorem LevelsInv.restsAt {side : Side} {levels : Levels} (inv : LevelsInv side levels)
    {order : Order} (member : order ∈ queue side levels)
    : order.RestsAt side order.price.raw := by
  obtain ⟨entry, found, present⟩ := mem_queue.mp member
  have rests := inv.resting entry found order present
  rw [rests.price]
  exact rests

/-- No resting bid reaches a resting ask. -/
theorem BookInv.uncrossed_orders {book : OrderBook} (inv : BookInv book) {bid ask : Order}
    (isBid : bid ∈ queue .long book.bids) (isAsk : ask ∈ queue .short book.asks)
    : bid.price.raw < ask.price.raw :=
  inv.uncrossed _ (inv.bids.mem_keys_iff.mpr ⟨bid, isBid, rfl⟩) _
    (inv.asks.mem_keys_iff.mpr ⟨ask, isAsk, rfl⟩)

/-- The invariant from facts about single resting orders. -/
theorem BookInv.of_orders {book : OrderBook}
    (levels : ∀ side, LevelsInv side (book.levels side))
    (distinct : (book.restingOrders.map Order.id).Nodup)
    (issued : ∀ order ∈ book.restingOrders, order.id < book.nextOrderId)
    (uncrossed
      : ∀ bid ∈ queue .long book.bids, ∀ ask ∈ queue .short book.asks,
          bid.price.raw < ask.price.raw)
    : BookInv book where
  bids := levels .long
  asks := levels .short
  distinct := distinct
  issued := issued
  uncrossed := by
    intro bidPrice isBid askPrice isAsk
    obtain ⟨bid, bidMember, rfl⟩ := (levels .long).mem_keys_iff.mp isBid
    obtain ⟨ask, askMember, rfl⟩ := (levels .short).mem_keys_iff.mp isAsk
    exact uncrossed bid bidMember ask askMember

/-- Each queue lost orders or had some reduced in place; no order was added or moved. -/
def BookThins (before after : OrderBook) : Prop :=
  ∀ side, Thins (queue side (before.levels side)) (queue side (after.levels side))

/-- Every resting order of a thinned book is a reduced order of the same side before. -/
theorem BookThins.restingOrders {before after : OrderBook} (thins : BookThins before after)
    {order : Order} (member : order ∈ after.restingOrders)
    : ∃ old ∈ before.restingOrders, old.ReducedTo order := by
  obtain ⟨side, found⟩ := mem_restingOrders.mp member
  obtain ⟨old, present, reduced⟩ := (thins side).origin found
  exact ⟨old, mem_restingOrders.mpr ⟨side, present⟩, reduced⟩

/-- Thinning keeps the book invariant: it removes ids and prices but adds none. -/
theorem BookInv.of_thins {before after : OrderBook} (inv : BookInv before)
    (levels : ∀ side, LevelsInv side (after.levels side)) (thins : BookThins before after)
    (counter : before.nextOrderId ≤ after.nextOrderId)
    : BookInv after := by
  refine .of_orders levels ?_ ?_ ?_
  · have old := ((restingOrders_perm before .long).map Order.id).nodup_iff.mp inv.distinct
    rw [((restingOrders_perm after .long).map Order.id).nodup_iff]
    rw [List.map_append] at old ⊢
    exact old.sublist ((thins .long).ids_sublist.append (thins .short).ids_sublist)
  · intro order member
    obtain ⟨old, present, reduced⟩ := thins.restingOrders member
    rw [reduced.id_eq]
    exact (inv.issued old present).trans_le counter
  · intro bid isBid ask isAsk
    obtain ⟨oldBid, bidMember, bidReduced⟩ := (thins .long).origin isBid
    obtain ⟨oldAsk, askMember, askReduced⟩ := (thins .short).origin isAsk
    rw [bidReduced.price_eq, askReduced.price_eq]
    exact inv.uncrossed_orders bidMember askMember

-----------------------------------------------------------------------------------------
-- Cancellation
-----------------------------------------------------------------------------------------

/-- Rewriting each level to a sublist of itself thins the queue. -/
theorem queue_mapValues_thins {side : Side} {levels : Levels} (inv : LevelsInv side levels)
    {update : Int → PriceLevel → PriceLevel}
    (shrinks : ∀ price level, (update price level).Sublist level)
    : Thins (queue side levels) (queue side (levels.mapValues update)) := by
  refine Thins.of_sublist ?_ inv.unfilled
  have rewritten : priority side (levels.mapValues update)
      = (priority side levels).map (fun entry => (entry.1, update entry.1 entry.2)) := by
    cases side <;> simp [priority, BTreeMap.mapValues, BTreeMap.mapEntries]
  rw [queue, queue, rewritten]
  induction priority side levels with
  | nil => exact List.Sublist.refl _
  | cons entry rest ih =>
      simp only [List.map_cons, List.flatMap_cons]
      exact (shrinks entry.1 entry.2).append ih

/-- Shrinking levels and dropping the emptied ones keeps the side invariant. -/
theorem LevelsInv.mapValues {side : Side} {levels : Levels} (inv : LevelsInv side levels)
    {update : Int → PriceLevel → PriceLevel}
    (shrinks : ∀ price level, (update price level).Sublist level)
    : LevelsInv side (dropEmpty (levels.mapValues update)) := by
  refine inv.of_thinned (fun entry member => ?_)
  simp only [BTreeMap.mapValues, BTreeMap.mapEntries, List.mem_map] at member
  obtain ⟨old, found, rfl⟩ := member
  exact ⟨old.2, found, .of_sublist (shrinks old.1 old.2)
    (fun order present => (inv.resting old found order present).unfilled)⟩

/-- Removing an order erases it from the level it was found in. -/
theorem removeOrder_eq {levels after : Levels} {orderId : Nat} {order : Order}
    (removed : removeOrder levels orderId = some (order, after))
    : order.id = orderId
      ∧ ∃ entry ∈ levels.entries, order ∈ entry.2
          ∧ after
            = dropEmpty
                (levels.modify entry.1
                  (fun level => level.eraseP (fun order => order.id = orderId))) := by
  simp only [removeOrder] at removed
  split at removed
  · cases removed
  · rename_i price level found
    simp only [Option.map_eq_some_iff, Prod.mk.injEq] at removed
    obtain ⟨picked, pickedFound, rfl, rfl⟩ := removed
    have isId := List.find?_some pickedFound
    exact ⟨by simpa using isId, (price, level), List.mem_of_find?_eq_some found,
      List.mem_of_find?_eq_some pickedFound, rfl⟩

/-- A level of which one order may be erased. -/
theorem eraseLevel_sublist (target : Int) (orderId : Nat) (price : Int) (level : PriceLevel)
    : (if price = target then level.eraseP (fun order => order.id = orderId) else level).Sublist
        level := by
  split_ifs
  · exact List.eraseP_sublist
  · exact List.Sublist.refl _

theorem removeOrder_inv {side : Side} {levels after : Levels} {orderId : Nat} {order : Order}
    (inv : LevelsInv side levels) (removed : removeOrder levels orderId = some (order, after))
    : LevelsInv side after ∧ Thins (queue side levels) (queue side after) := by
  obtain ⟨_, entry, _, _, rfl⟩ := removeOrder_eq removed
  rw [queue_dropEmpty]
  exact ⟨inv.mapValues (eraseLevel_sublist entry.1 orderId),
    queue_mapValues_thins inv (eraseLevel_sublist entry.1 orderId)⟩

/-- A refused or successful cancel thins the book. -/
theorem cancelOrder_thins {book : OrderBook} (inv : BookInv book) (orderId : Nat)
    : (∀ side, LevelsInv side ((book.cancelOrder orderId).2.levels side))
      ∧ BookThins book (book.cancelOrder orderId).2 := by
  have bidsRefl := Thins.refl inv.bids.unfilled
  have asksRefl := Thins.refl inv.asks.unfilled
  simp only [OrderBook.cancelOrder]
  cases bid : removeOrder book.bids orderId with
  | some result =>
      obtain ⟨bidsInv, bidsThin⟩ := removeOrder_inv inv.bids bid
      exact ⟨fun side => by cases side; exacts [bidsInv, inv.asks],
        fun side => by cases side; exacts [bidsThin, asksRefl]⟩
  | none =>
      cases ask : removeOrder book.asks orderId with
      | some result =>
          obtain ⟨asksInv, asksThin⟩ := removeOrder_inv inv.asks ask
          exact ⟨fun side => by cases side; exacts [inv.bids, asksInv],
            fun side => by cases side; exacts [bidsRefl, asksThin]⟩
      | none =>
          exact ⟨inv.levels, fun side => by cases side; exacts [bidsRefl, asksRefl]⟩

theorem cancelOrder_nextOrderId (book : OrderBook) (orderId : Nat)
    : (book.cancelOrder orderId).2.nextOrderId = book.nextOrderId := by
  simp only [OrderBook.cancelOrder]
  split
  · rfl
  · split <;> rfl

theorem BookInv.cancelOrder {book : OrderBook} (inv : BookInv book) (orderId : Nat)
    : BookInv (book.cancelOrder orderId).2 := by
  obtain ⟨levels, thins⟩ := cancelOrder_thins inv orderId
  exact inv.of_thins levels thins (cancelOrder_nextOrderId book orderId).ge

theorem cancelAll_thins {book : OrderBook} (inv : BookInv book) (userId : String)
    : (∀ side, LevelsInv side ((book.cancelAll userId).2.levels side))
      ∧ BookThins book (book.cancelAll userId).2 := by
  have shrinks : ∀ (_ : Int) (level : PriceLevel),
      (level.filter (fun order => order.userId ≠ userId)).Sublist level :=
    fun _ _ => List.filter_sublist
  have sideInv : ∀ {side levels}, LevelsInv side levels
      → LevelsInv side (withoutUser levels userId) := fun inv => inv.mapValues shrinks
  have sideThins : ∀ {side levels}, LevelsInv side levels
      → Thins (queue side levels) (queue side (withoutUser levels userId)) := by
    intro side levels inv
    rw [withoutUser, queue_dropEmpty]
    exact queue_mapValues_thins inv shrinks
  exact ⟨fun side => by cases side; exacts [sideInv inv.bids, sideInv inv.asks],
    fun side => by cases side; exacts [sideThins inv.bids, sideThins inv.asks]⟩

/-- Cancelling a user's orders filters them out of a side. -/
theorem withoutUser_orders (levels : Levels) (userId : String)
    : (withoutUser levels userId).values.flatten
      = levels.values.flatten.filter (fun order => order.userId ≠ userId) := by
  simp only [withoutUser, dropEmpty, BTreeMap.retain, BTreeMap.mapValues, BTreeMap.mapEntries,
    BTreeMap.values]
  induction levels.entries with
  | nil => rfl
  | cons entry rest ih =>
      simp only [List.map_cons, List.filter_cons, List.flatten_cons, List.filter_append]
      cases kept : entry.2.filter (fun order => decide (order.userId ≠ userId)) with
      | nil => simpa using ih
      | cons order others => simpa using ih

theorem cancelAll_restingOrders (book : OrderBook) (userId : String)
    : (book.cancelAll userId).2.restingOrders
      = book.restingOrders.filter (fun order => order.userId ≠ userId) := by
  simp only [OrderBook.cancelAll, OrderBook.restingOrders, withoutUser_orders,
    List.filter_append]

theorem BookInv.cancelAll {book : OrderBook} (inv : BookInv book) (userId : String)
    : BookInv (book.cancelAll userId).2 := by
  obtain ⟨levels, thins⟩ := cancelAll_thins inv userId
  exact inv.of_thins levels thins le_rfl

/-- A sweep changes only the quantities of its taker. -/
theorem Sweeps.taker_terms {context : MatchContext} {matching final : Matching}
    {makers left : List Order} (sweeps : Sweeps context matching makers left final)
    : final.taker
      = { matching.taker with size := final.taker.size, filled := final.taker.filled } := by
  induction sweeps with
  | nil | exhausted _ => rfl
  | visit _ step _ ih =>
      rw [ih]
      cases step <;> rfl

/-- The opposite queue of an order is its crossing part followed by the rest. -/
theorem queue_split {order : Order} {levels : Levels}
    (inv : LevelsInv order.side.opposite levels)
    : queue order.side.opposite levels
      = crossing order (queue order.side.opposite levels)
        ++ beyond order (queue order.side.opposite levels) := by
  have resting : ∀ entry ∈ priority order.side.opposite levels, ∀ maker ∈ entry.2,
      maker.RestsAt order.side.opposite entry.1 := fun entry member =>
    inv.resting entry (mem_priority.mp member)
  obtain ⟨takes, drops⟩ := span_crosses (priority_worsens order levels)
  have whole : priority order.side.opposite levels
      = (priority order.side.opposite levels).filter (fun entry => crosses order entry.1)
        ++ (priority order.side.opposite levels).filter
            (fun entry => !crosses order entry.1) := by
    rw [← takes, ← drops]
    exact List.takeWhile_append_dropWhile.symm
  have crossPart := flatMap_filter_price (.of_resting resting) (crosses order)
  have restPart := flatMap_filter_price (.of_resting resting) (fun price => !crosses order price)
  calc queue order.side.opposite levels
      = (priority order.side.opposite levels).flatMap Prod.snd := rfl
    _ = _ := by rw [whole, List.flatMap_append, crossPart, restPart]; rfl

/-- The taker's own side is not touched by matching. -/
theorem MatchEffect.own_levels {book next : OrderBook} {taker : Order} {matching : Matching}
    (effect : MatchEffect book taker matching next)
    : next.levels taker.side = book.levels taker.side := by
  rw [effect.frame]
  cases taker.side <;> rfl

/-- Matching thins the book: it consumes crossing makers and leaves all else alone. -/
theorem MatchEffect.thins {book next : OrderBook} {taker : Order} {matching : Matching}
    (inv : BookInv book) (effect : MatchEffect book taker matching next)
    : BookThins book next := by
  have opposite : Thins (queue taker.side.opposite (book.levels taker.side.opposite))
      (queue taker.side.opposite (next.levels taker.side.opposite)) := by
    obtain ⟨left, sweeps, after⟩ := effect.sweep
    have unfilled := (inv.levels taker.side.opposite).unfilled
    rw [after]
    conv => arg 1; rw [queue_split (inv.levels taker.side.opposite)]
    exact (sweeps.thins (fun maker member => unfilled maker (List.mem_of_mem_filter member))).append
      (.refl (fun maker member => unfilled maker (List.mem_of_mem_filter member)))
  intro side
  rcases side.eq_or_opposite taker.side with same | other
  · rw [same, effect.own_levels]
    exact .refl (inv.levels taker.side).unfilled
  · rw [other]
    exact opposite

theorem MatchEffect.levels_inv {book next : OrderBook} {taker : Order} {matching : Matching}
    (inv : BookInv book) (effect : MatchEffect book taker matching next) (side : Side)
    : LevelsInv side (next.levels side) := by
  rcases side.eq_or_opposite taker.side with same | other
  · rw [same, effect.own_levels]
    exact inv.levels taker.side
  · rw [other]
    exact effect.levels

/-- A taker with something left has only uncrossed prices opposite it. -/
theorem MatchEffect.uncrossed {book next : OrderBook} {taker : Order} {matching : Matching}
    (inv : BookInv book) (effect : MatchEffect book taker matching next)
    (live : matching.taker.filled.raw < matching.taker.size.raw)
    : ∀ maker ∈ queue taker.side.opposite (next.levels taker.side.opposite),
        crosses taker maker.price.raw = false := by
  obtain ⟨left, sweeps, after⟩ := effect.sweep
  have unfilled := (inv.levels taker.side.opposite).unfilled
  have gone := sweeps.left_nil
    (fun maker member => unfilled maker (List.mem_of_mem_filter member)) live
  intro maker member
  rw [after, gone, List.nil_append] at member
  simpa [beyond] using (List.mem_filter.mp member).2

/-- Appending to one level adds exactly that order to the side. -/
theorem queue_upsert_perm (side : Side) (levels : Levels) (order : Order)
    : (queue side
        (levels.upsert order.price.raw (fun level => level.getD [] ++ [order]))).Perm
        (order :: queue side levels) := by
  refine (queue_perm side _).trans (List.Perm.trans ?_ ((queue_perm side levels).symm.cons order))
  simp only [BTreeMap.values, BTreeMap.upsert]
  induction levels.entries with
  | nil => simp [BTreeMap.upsertEntries]
  | cons entry rest ih =>
      simp only [BTreeMap.upsertEntries]
      split_ifs with below same
      · simp
      · simp only [List.map_cons, List.flatten_cons, Option.getD_some, List.append_assoc,
          List.singleton_append]
        exact List.perm_middle
      · simp only [List.map_cons, List.flatten_cons]
        exact (ih.append_left entry.2).trans List.perm_middle

/-- A fresh order appended at its own price keeps the side well formed. -/
theorem LevelsInv.upsert {side : Side} {levels : Levels} (inv : LevelsInv side levels)
    {order : Order} (rests : order.RestsAt side order.price.raw)
    (fresh : ∀ old ∈ queue side levels, old.id < order.id)
    : LevelsInv side
        (levels.upsert order.price.raw (fun level => level.getD [] ++ [order])) := by
  have entryCases : ∀ entry ∈ (levels.upsert order.price.raw
      (fun level => level.getD [] ++ [order])).entries,
      (entry.1 = order.price.raw ∧ ∃ level, entry.2 = level ++ [order]
        ∧ (level = [] ∨ (order.price.raw, level) ∈ levels.entries))
      ∨ entry ∈ levels.entries := by
    intro entry member
    have found := BTreeMap.get?_eq_some_iff.mpr member
    rw [BTreeMap.get?_upsert] at found
    split_ifs at found with same
    · refine Or.inl ⟨same, _, (Option.some.inj found).symm, ?_⟩
      cases old : levels.get? order.price.raw with
      | none => exact Or.inl rfl
      | some level => exact Or.inr (BTreeMap.get?_eq_some_iff.mp old)
    · exact Or.inr (BTreeMap.get?_eq_some_iff.mp found)
  refine ⟨?_, ?_, ?_⟩
  · intro entry member
    rcases entryCases entry member with ⟨_, level, same, _⟩ | old
    · simp [same]
    · exact inv.nonempty entry old
  · intro entry member maker present
    rcases entryCases entry member with ⟨price, level, same, origin⟩ | old
    · rw [same] at present
      rw [price]
      rcases List.mem_append.mp present with before | last
      · rcases origin with rfl | stored
        · exact absurd before List.not_mem_nil
        · exact inv.resting _ stored maker before
      · rw [List.mem_singleton.mp last]
        exact rests
    · exact inv.resting entry old maker present
  · intro entry member
    rcases entryCases entry member with ⟨_, level, same, origin⟩ | old
    · rw [same, List.map_append, List.pairwise_append]
      rcases origin with rfl | stored
      · simp
      · refine ⟨inv.increasing _ stored, by simp, ?_⟩
        intro oldId oldMember newId newMember
        obtain ⟨old, present, rfl⟩ := List.mem_map.mp oldMember
        simp only [List.map_cons, List.map_nil, List.mem_singleton] at newMember
        rw [newMember]
        exact fresh old (mem_queue.mpr ⟨_, stored, present⟩)
    · exact inv.increasing entry old

@[simp]
theorem addToBook_levels (book : OrderBook) (order : Order)
    : (book.addToBook order).levels order.side
      = (book.levels order.side).upsert order.price.raw
          (fun level => level.getD [] ++ [order]) := by
  simp [OrderBook.addToBook]

@[simp]
theorem addToBook_levels_opposite (book : OrderBook) (order : Order)
    : (book.addToBook order).levels order.side.opposite = book.levels order.side.opposite := by
  simp only [OrderBook.addToBook]
  cases order.side <;> rfl

@[simp]
theorem addToBook_nextOrderId (book : OrderBook) (order : Order)
    : (book.addToBook order).nextOrderId = book.nextOrderId := by
  simp only [OrderBook.addToBook]
  cases order.side <;> rfl

/-- The resting orders after adding one are the old ones and that one. -/
theorem addToBook_perm (book : OrderBook) (order : Order)
    : (book.addToBook order).restingOrders.Perm (order :: book.restingOrders) := by
  refine (restingOrders_perm _ order.side).trans ?_
  rw [addToBook_levels, addToBook_levels_opposite]
  exact ((queue_upsert_perm order.side _ order).append_right _).trans
    ((restingOrders_perm book order.side).symm.cons order)

/-- Resting a fresh order that nothing opposite crosses keeps the book invariant. -/
theorem BookInv.addToBook {book : OrderBook} (inv : BookInv book) {order : Order}
    (rests : order.RestsAt order.side order.price.raw)
    (fresh : ∀ old ∈ book.restingOrders, old.id < order.id)
    (issued : order.id < book.nextOrderId)
    (uncrossed
      : ∀ maker ∈ queue order.side.opposite (book.levels order.side.opposite),
          crosses order maker.price.raw = false)
    : BookInv (book.addToBook order) := by
  have perm := addToBook_perm book order
  have own := (inv.levels order.side).upsert rests
    (fun old member => fresh old (mem_restingOrders.mpr ⟨_, member⟩))
  refine .of_orders ?_ ?_ ?_ ?_
  · intro side
    rcases side.eq_or_opposite order.side with same | other
    · rw [same, addToBook_levels]
      exact own
    · rw [other, addToBook_levels_opposite]
      exact inv.levels _
  · rw [(perm.map Order.id).nodup_iff, List.map_cons, List.nodup_cons]
    refine ⟨?_, inv.distinct⟩
    intro member
    obtain ⟨old, present, same⟩ := List.mem_map.mp member
    exact absurd same (fresh old present).ne
  · intro maker member
    rw [addToBook_nextOrderId]
    rcases List.mem_cons.mp (perm.mem_iff.mp member) with rfl | old
    · exact issued
    · exact inv.issued maker old
  · -- only a pair with the new order is new; its own side decides which of the two it is
    intro bid isBid ask isAsk
    have added : ∀ maker, maker ∈ queue order.side _ ↔ maker ∈ order :: queue order.side _ :=
      fun _ => (queue_upsert_perm order.side (book.levels order.side) order).mem_iff
    have levelsEq := addToBook_levels book order
    have oppositeEq := addToBook_levels_opposite book order
    cases side : order.side with
    | long =>
        simp only [side, OrderBook.levels, Side.opposite] at added levelsEq oppositeEq uncrossed
        rw [levelsEq, added, List.mem_cons] at isBid
        rw [oppositeEq] at isAsk
        rcases isBid with rfl | old
        · simpa [crosses, rests.limit, side] using uncrossed ask isAsk
        · exact inv.uncrossed_orders old isAsk
    | short =>
        simp only [side, OrderBook.levels, Side.opposite] at added levelsEq oppositeEq uncrossed
        rw [levelsEq, added, List.mem_cons] at isAsk
        rw [oppositeEq] at isBid
        rcases isAsk with rfl | old
        · simpa [crosses, rests.limit, side] using uncrossed bid isBid
        · exact inv.uncrossed_orders isBid old

-----------------------------------------------------------------------------------------
-- Submission
-----------------------------------------------------------------------------------------

/-- Fields outside the two sides and the id counter are irrelevant to the invariant. -/
theorem BookInv.congr {book other : OrderBook} (inv : BookInv book)
    (bids : other.bids = book.bids) (asks : other.asks = book.asks)
    (counter : book.nextOrderId ≤ other.nextOrderId)
    : BookInv other := by
  have levels : ∀ side, other.levels side = book.levels side := fun side => by
    cases side; exacts [bids, asks]
  refine inv.of_thins (fun side => ?_) (fun side => ?_) counter
  · rw [levels side]
    exact inv.levels side
  · rw [levels side]
    exact .refl (inv.levels side).unfilled

/-- A matched order that is put on the book belongs at its own price. -/
theorem rests_restsAt {order : Order} (sane : order.Sane) (resting : rests order = true)
    : order.RestsAt order.side order.price.raw := by
  simp only [rests, Bool.and_eq_true, decide_eq_true_eq] at resting
  obtain ⟨⟨⟨⟨_, limit⟩, gtc⟩, remaining⟩, _⟩ := resting
  rw [sane.remaining_raw] at remaining
  exact ⟨rfl, limit, gtc, rfl, sane.1, by omega⟩

/-- The result of matching, before the remainder is handled, is a thinned book. -/
theorem BookInv.matchOrder {book : OrderBook} (inv : BookInv book) {order : Order}
    (sane : order.Sane)
    : BookInv (book.matchOrder order).2 := by
  have effect := matchOrder_effect (inv.levels order.side.opposite) sane
  have counter : (book.matchOrder order).2.nextOrderId = book.nextOrderId := by
    rw [effect.frame]
    cases order.side <;> rfl
  exact inv.of_thins (effect.levels_inv inv) (effect.thins inv) counter.ge

/-- The book once the remainder of a matched order has been put on it or dropped. -/
def restRemainder (matching : Matching) (book : OrderBook) : OrderBook :=
  if rests matching.taker then book.addToBook matching.taker else book

theorem restRemainder_nextOrderId (matching : Matching) (book : OrderBook)
    : (restRemainder matching book).nextOrderId = book.nextOrderId := by
  simp only [restRemainder]
  split_ifs
  · exact addToBook_nextOrderId book matching.taker
  · rfl

/-- Executing an order matches it and handles the remainder; recording a self-trade event
only concerns the rate limiter.
-/
theorem executeOrder_book (book : OrderBook) (order : Order) (recordAt : Nat)
    : (book.executeOrder order recordAt).2
      = { restRemainder (book.matchOrder order).1 (book.matchOrder order).2 with
          stpRate := (book.executeOrder order recordAt).2.stpRate } := by
  simp only [OrderBook.executeOrder, restRemainder]
  split_ifs with resting quiet quiet
  · rfl
  · simp only [OrderBook.addToBook]
    cases (book.matchOrder order).1.taker.side <;> rfl
  · rfl
  · rfl

theorem matchOrder_nextOrderId (book : OrderBook) (order : Order)
    : (book.matchOrder order).2.nextOrderId = book.nextOrderId := by
  simp only [OrderBook.matchOrder]
  cases order.side <;> rfl

/-- The taker after matching still has sane quantities and its original terms. -/
theorem MatchEffect.taker {book next : OrderBook} {taker : Order} {matching : Matching}
    (inv : BookInv book) (effect : MatchEffect book taker matching next) (sane : taker.Sane)
    : matching.taker.Sane
      ∧ matching.taker
        = { taker with size := matching.taker.size, filled := matching.taker.filled } := by
  obtain ⟨_, sweeps, _⟩ := effect.sweep
  have unfilled := (inv.levels taker.side.opposite).unfilled
  exact ⟨sweeps.sane (fun maker member => unfilled maker (List.mem_of_mem_filter member)) sane,
    sweeps.taker_terms⟩

/-- Matching a fresh order and resting its remainder keeps the invariant. -/
theorem BookInv.executeOrder {book : OrderBook} (inv : BookInv book) {order : Order}
    (sane : order.Sane) (fresh : ∀ old ∈ book.restingOrders, old.id < order.id)
    (issued : order.id < book.nextOrderId) (recordAt : Nat)
    : BookInv (book.executeOrder order recordAt).2 := by
  have effect := matchOrder_effect (inv.levels order.side.opposite) sane
  have matched := inv.matchOrder sane
  obtain ⟨takerSane, terms⟩ := effect.taker inv sane
  have settled : BookInv (restRemainder (book.matchOrder order).1 (book.matchOrder order).2) := by
    simp only [restRemainder]
    split_ifs with resting
    · have restsAt := rests_restsAt takerSane resting
      have sideEq : (book.matchOrder order).1.taker.side = order.side := by rw [terms]
      have idEq : (book.matchOrder order).1.taker.id = order.id := by rw [terms]
      refine matched.addToBook restsAt ?_ ?_ ?_
      · intro old member
        obtain ⟨origin, present, reduced⟩ := (effect.thins inv).restingOrders member
        rw [reduced.id_eq, idEq]
        exact fresh origin present
      · rw [idEq, matchOrder_nextOrderId]
        exact issued
      · rw [sideEq]
        intro maker member
        have clear := effect.uncrossed inv restsAt.unfilled.2 maker member
        rw [terms]
        exact clear
    · exact matched
  rw [executeOrder_book]
  exact settled.congr rfl rfl le_rfl

/-- A new order has nothing filled. -/
theorem newOrder_sane {book : OrderBook} {args : SubmitArgs} (positive : 0 < args.size.raw)
    : (book.newOrder args).Sane :=
  ⟨le_rfl, positive.le⟩

/-- The book from which an accepted submission is matched: its id is taken. -/
def OrderBook.countAttempt (book : OrderBook) (stpRate : RateLimiter) : OrderBook :=
  { book with stpRate := stpRate, nextOrderId := book.nextOrderId + 1 }

/-- Everything a submission can do: refuse with only the rate limiter pruned, kill a
fill-or-kill order that lacks liquidity, or match the new order.
-/
inductive SubmitOutcome (book : OrderBook) (args : SubmitArgs) (clock : StpClock)
    : Except String Submission × OrderBook → Prop
  | refused (reason : String) (stpRate : RateLimiter)
    : SubmitOutcome book args clock (.error reason, { book with stpRate := stpRate })
  | killed (stpRate : RateLimiter) (positive : 0 < args.size.raw)
    (fillOrKill : args.timeInForce = .fok)
    (short : (book.countAttempt stpRate).availableLiquidity (book.newOrder args) < args.size.raw)
    : SubmitOutcome book args clock
        (.ok ⟨{ book.newOrder args with status := .cancelled }, [], []⟩, book.countAttempt stpRate)
  | executed (stpRate : RateLimiter) (positive : 0 < args.size.raw)
    (priced : args.orderType = .limit → 0 < args.price.raw) (live : book.attestedMs ≠ 0)
    (liquid
      : args.timeInForce = .fok
        → args.size.raw ≤ (book.countAttempt stpRate).availableLiquidity (book.newOrder args))
    : SubmitOutcome book args clock
        (.ok ((book.countAttempt stpRate).executeOrder (book.newOrder args) clock.record).1,
          ((book.countAttempt stpRate).executeOrder (book.newOrder args) clock.record).2)

theorem submitOrder_outcome (book : OrderBook) (args : SubmitArgs) (clock : StpClock)
    : SubmitOutcome book args clock (book.submitOrder args clock) := by
  simp only [OrderBook.submitOrder]
  split_ifs with empty unpriced refused paused killed
  · exact .refused _ book.stpRate
  · exact .refused _ book.stpRate
  · exact .refused _ _
  · exact .refused _ _
  · exact .killed _ (not_le.mp empty) killed.1 killed.2
  · refine .executed _ (not_le.mp empty) ?_ paused ?_
    · exact fun limit => not_le.mp (fun unpaid => unpriced ⟨limit, unpaid⟩)
    · exact fun fok => not_lt.mp (fun short => killed ⟨fok, short⟩)

/-- A submission keeps the invariant, whether it is refused, killed or executed. -/
theorem BookInv.submitOrder {book : OrderBook} (inv : BookInv book) (args : SubmitArgs)
    (clock : StpClock)
    : BookInv (book.submitOrder args clock).2 := by
  have outcome := submitOrder_outcome book args clock
  generalize book.submitOrder args clock = result at outcome ⊢
  cases outcome with
  | refused reason stpRate => exact inv.congr rfl rfl le_rfl
  | killed stpRate _ _ _ => exact inv.congr rfl rfl (Nat.le_succ _)
  | executed stpRate positive _ _ _ =>
      refine BookInv.executeOrder ?_ (newOrder_sane positive) ?_ ?_ clock.record
      · exact inv.congr rfl rfl (Nat.le_succ _)
      · exact inv.issued
      · exact Nat.lt_succ_self _

/-- The operations that mutate a live book. -/
inductive BookOp where
  | setAttestedMs (attestedMs : Nat)
  | submitOrder (args : SubmitArgs) (clock : StpClock)
  | cancelOrder (orderId : Nat)
  | cancelAll (userId : String)

/-- Apply one operation, dropping what it returns. -/
def OrderBook.apply (book : OrderBook) : BookOp → OrderBook
  | .setAttestedMs attestedMs => book.setAttestedMs attestedMs
  | .submitOrder args clock => (book.submitOrder args clock).2
  | .cancelOrder orderId => (book.cancelOrder orderId).2
  | .cancelAll userId => (book.cancelAll userId).2

def OrderBook.run (book : OrderBook) (ops : List BookOp) : OrderBook :=
  ops.foldl OrderBook.apply book

/-- One operation keeps the invariant. -/
theorem BookInv.apply {book : OrderBook} (inv : BookInv book) (op : BookOp)
    : BookInv (book.apply op) := by
  cases op with
  | setAttestedMs attestedMs => exact inv.congr rfl rfl le_rfl
  | submitOrder args clock => exact inv.submitOrder args clock
  | cancelOrder orderId => exact inv.cancelOrder orderId
  | cancelAll userId => exact inv.cancelAll userId

/-- A whole run keeps the invariant, by induction over its operations. -/
theorem BookInv.run {book : OrderBook} (inv : BookInv book) (ops : List BookOp)
    : BookInv (book.run ops) := by
  induction ops generalizing book with
  | nil => exact inv
  | cons op rest ih => exact ih (inv.apply op)

/-- Every reachable book satisfies the representation invariant: whatever sequence of
clock updates, submissions and cancellations an empty book went through, no level is
empty, every order rests where it belongs with something left to fill, ids are distinct,
issued and in time priority, and no bid reaches an ask.
-/
theorem reachable_book_inv (market : String) (ops : List BookOp)
    : BookInv ((OrderBook.new market).run ops) :=
  (BookInv.new market).run ops

end PerpDex
