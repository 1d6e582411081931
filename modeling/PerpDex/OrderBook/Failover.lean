import PerpDex.OrderBook.Invariant

/-! Identifiers across a failover.
A new sequencer rebuilds its book from the resting orders alone. Both id counters are
described as the intervals a run issues from them; the rebuilt order counter is the
successor of the largest resting id, and the rebuilt trade counter starts over.
-/

namespace PerpDex

open OrderBook

/-- The order ids one operation hands out. -/
def OrderBook.issuedOrders (book : OrderBook) : BookOp → List Nat
  | .submitOrder args clock =>
      match (book.submitOrder args clock).1 with
      | .ok submission => [submission.order.id]
      | .error _ => []
  | _ => []

/-- The trade ids one operation hands out. -/
def OrderBook.issuedTrades (book : OrderBook) : BookOp → List Nat
  | .submitOrder args clock =>
      match (book.submitOrder args clock).1 with
      | .ok submission => submission.trades.map Trade.tradeId
      | .error _ => []
  | _ => []

def OrderBook.runOrderIds (book : OrderBook) : List BookOp → List Nat
  | [] => []
  | op :: rest => book.issuedOrders op ++ (book.apply op).runOrderIds rest

def OrderBook.runTradeIds (book : OrderBook) : List BookOp → List Nat
  | [] => []
  | op :: rest => book.issuedTrades op ++ (book.apply op).runTradeIds rest

/-- The trades added since `before` carry the counter's values in order, and the taker is
still the same order.
-/
def Numbered (before after : Matching) : Prop :=
  after.taker.id = before.taker.id
  ∧ ∃ added : List Trade,
      after.trades = before.trades ++ added
      ∧ added.map Trade.tradeId = List.range' before.nextTradeId added.length
      ∧ after.nextTradeId = before.nextTradeId + added.length

theorem Numbered.refl (matching : Matching) : Numbered matching matching :=
  ⟨rfl, [], by simp, rfl, rfl⟩

theorem Numbered.trans {first second third : Matching} (left : Numbered first second)
    (right : Numbered second third)
    : Numbered first third := by
  obtain ⟨earlyTaker, early, earlyTrades, earlyIds, earlyNext⟩ := left
  obtain ⟨lateTaker, late, lateTrades, lateIds, lateNext⟩ := right
  refine ⟨lateTaker.trans earlyTaker, early ++ late, ?_, ?_, ?_⟩
  · rw [lateTrades, earlyTrades, List.append_assoc]
  · rw [List.map_append, earlyIds, lateIds, earlyNext, List.length_append,
      ← List.range'_append_1]
  · rw [lateNext, earlyNext, List.length_append]
    omega

/-- Visiting a maker numbers its trade, if there is one, with the next id. -/
theorem matchMaker_numbered (context : MatchContext) (price : Int) (matching : Matching)
    (maker : Order)
    : Numbered matching (matchMaker context price matching maker).2 := by
  simp only [matchMaker]
  split_ifs with own
  · simp only [preventSelfTrade]
    split_ifs <;> exact ⟨rfl, [], by simp, rfl, rfl⟩
  · exact ⟨rfl, [_], rfl, rfl, rfl⟩

theorem matchLevel_numbered (context : MatchContext) (price : Int) (level : PriceLevel)
    (matching : Matching)
    : Numbered matching (matchLevel context price matching level).2 := by
  induction level generalizing matching with
  | nil => exact .refl matching
  | cons maker rest ih =>
      simp only [matchLevel]
      split_ifs
      · exact .refl matching
      · exact (matchMaker_numbered context price matching maker).trans (ih _)

theorem matchPrices_numbered (context : MatchContext) (prices : List Int)
    (matching : Matching) (levels : Levels)
    : Numbered matching (matchPrices context prices matching levels).2 := by
  induction prices generalizing matching levels with
  | nil => exact .refl matching
  | cons price rest ih =>
      simp only [matchPrices]
      split_ifs
      · exact .refl matching
      · split
        · exact ih matching levels
        · exact (matchLevel_numbered context price _ matching).trans (ih _ _)

theorem matchOrder_numbered (book : OrderBook) (order : Order)
    : (book.matchOrder order).1.taker.id = order.id
      ∧ (book.matchOrder order).1.trades.map Trade.tradeId
        = List.range' book.nextTradeId (book.matchOrder order).1.trades.length
      ∧ (book.matchOrder order).2.nextTradeId
        = book.nextTradeId + (book.matchOrder order).1.trades.length := by
  obtain ⟨taker, added, trades, ids, next⟩ := matchPrices_numbered book.context
    (matchingPrices order (book.levels order.side.opposite)) (book.startMatching order)
    (book.levels order.side.opposite)
  have tradesEq : (book.matchOrder order).1.trades = added := by
    simpa [OrderBook.matchOrder, startMatching] using trades
  have nextEq : (book.matchOrder order).2.nextTradeId
      = (book.matchOrder order).1.nextTradeId := by
    simp only [OrderBook.matchOrder]
    cases order.side <;> rfl
  refine ⟨taker, by rw [tradesEq]; exact ids, ?_⟩
  rw [nextEq, tradesEq]
  exact next

theorem restRemainder_nextTradeId (matching : Matching) (book : OrderBook)
    : (restRemainder matching book).nextTradeId = book.nextTradeId := by
  simp only [restRemainder]
  split_ifs
  · simp only [OrderBook.addToBook]
    cases matching.taker.side <;> rfl
  · rfl

theorem executeOrder_counters (book : OrderBook) (order : Order) (recordAt : Nat)
    : (book.executeOrder order recordAt).2.nextOrderId = book.nextOrderId
      ∧ (book.executeOrder order recordAt).2.nextTradeId
        = book.nextTradeId + (book.matchOrder order).1.trades.length := by
  rw [executeOrder_book]
  exact ⟨(restRemainder_nextOrderId _ _).trans (matchOrder_nextOrderId book order),
    (restRemainder_nextTradeId _ _).trans (matchOrder_numbered book order).2.2⟩

/-- `ids` are exactly the values between two states of a counter. -/
def IssuedBetween (ids : List Nat) (before after : Nat) : Prop :=
  before ≤ after ∧ ∀ id, id ∈ ids ↔ before ≤ id ∧ id < after

theorem IssuedBetween.nil (counter : Nat) : IssuedBetween [] counter counter :=
  ⟨le_rfl, fun id => by simp⟩

theorem IssuedBetween.range (start count : Nat)
    : IssuedBetween (List.range' start count) start (start + count) :=
  ⟨Nat.le_add_right _ _, fun id => by simp [List.mem_range'_1]⟩

theorem IssuedBetween.append {early late : List Nat} {first second third : Nat}
    (left : IssuedBetween early first second) (right : IssuedBetween late second third)
    : IssuedBetween (early ++ late) first third := by
  obtain ⟨leftLe, leftIff⟩ := left
  obtain ⟨rightLe, rightIff⟩ := right
  refine ⟨leftLe.trans rightLe, fun id => ?_⟩
  rw [List.mem_append, leftIff, rightIff]
  omega

/-- One operation issues the values its two counters move over.
Witness: only a submission that passes its checks moves them, by one order id and by one
trade id per fill.
-/
theorem apply_issues (book : OrderBook) (op : BookOp)
    : IssuedBetween (book.issuedOrders op) book.nextOrderId (book.apply op).nextOrderId
      ∧ IssuedBetween (book.issuedTrades op) book.nextTradeId
          (book.apply op).nextTradeId := by
  cases op with
  | setAttestedMs attestedMs => exact ⟨.nil _, .nil _⟩
  | cancelAll userId => exact ⟨.nil _, .nil _⟩
  | cancelOrder orderId =>
      have trade : (book.cancelOrder orderId).2.nextTradeId = book.nextTradeId := by
        simp only [OrderBook.cancelOrder]
        split
        · rfl
        · split <;> rfl
      simp only [OrderBook.apply, cancelOrder_nextOrderId, trade]
      exact ⟨.nil _, .nil _⟩
  | submitOrder args clock =>
      simp only [OrderBook.apply, OrderBook.issuedOrders, OrderBook.issuedTrades]
      have outcome := submitOrder_outcome book args clock
      generalize book.submitOrder args clock = result at outcome ⊢
      cases outcome with
      | refused reason stpRate => exact ⟨.nil _, .nil _⟩
      | killed stpRate _ _ _ => exact ⟨.range _ 1, .nil _⟩
      | executed stpRate _ _ _ _ =>
          obtain ⟨orderNext, tradeNext⟩ :=
            executeOrder_counters (book.countAttempt stpRate) (book.newOrder args) clock.record
          obtain ⟨taker, tradeIds, _⟩ :=
            matchOrder_numbered (book.countAttempt stpRate) (book.newOrder args)
          have orderId : ((book.countAttempt stpRate).executeOrder (book.newOrder args)
              clock.record).1.order.id = book.nextOrderId := taker
          simp only [orderNext, tradeNext, orderId]
          refine ⟨.range book.nextOrderId 1, ?_⟩
          have trades := IssuedBetween.range (book.countAttempt stpRate).nextTradeId
            ((book.countAttempt stpRate).matchOrder (book.newOrder args)).1.trades.length
          rw [← tradeIds] at trades
          exact trades

/-- A run issues the values its two counters move over, by induction over the run. -/
theorem run_issues (book : OrderBook) (ops : List BookOp)
    : IssuedBetween (book.runOrderIds ops) book.nextOrderId (book.run ops).nextOrderId
      ∧ IssuedBetween (book.runTradeIds ops) book.nextTradeId
          (book.run ops).nextTradeId := by
  induction ops generalizing book with
  | nil => exact ⟨.nil _, .nil _⟩
  | cons op rest ih =>
      obtain ⟨headOrders, headTrades⟩ := apply_issues book op
      obtain ⟨tailOrders, tailTrades⟩ := ih (book.apply op)
      exact ⟨headOrders.append tailOrders, headTrades.append tailTrades⟩

-----------------------------------------------------------------------------------------
-- The rebuilt book
-----------------------------------------------------------------------------------------

theorem loadOrders_cons (book : OrderBook) (order : Order) (rest : List Order)
    : book.loadOrders (order :: rest)
      = ((if book.nextOrderId ≤ order.id then { book with nextOrderId := order.id + 1 }
          else book).addToBook order).loadOrders rest :=
  rfl

/-- The rebuilt order counter lies above every loaded id, and is the successor of one of
them unless it did not move.
-/
theorem loadOrders_nextOrderId (book : OrderBook) (orders : List Order)
    : (∀ order ∈ orders, order.id < (book.loadOrders orders).nextOrderId)
      ∧ book.nextOrderId ≤ (book.loadOrders orders).nextOrderId
      ∧ ((book.loadOrders orders).nextOrderId = book.nextOrderId
          ∨ ∃ order ∈ orders, (book.loadOrders orders).nextOrderId = order.id + 1) := by
  induction orders generalizing book with
  | nil => exact ⟨fun _ member => absurd member List.not_mem_nil, le_rfl, Or.inl rfl⟩
  | cons order rest ih =>
      rw [loadOrders_cons]
      generalize startDef : (if book.nextOrderId ≤ order.id
        then { book with nextOrderId := order.id + 1 } else book).addToBook order = start
      have startNext : start.nextOrderId = max book.nextOrderId (order.id + 1) := by
        rw [← startDef, addToBook_nextOrderId]
        split_ifs with above
        · simp only
          omega
        · omega
      obtain ⟨above, grows, origin⟩ := ih start
      refine ⟨?_, by omega, ?_⟩
      · intro other member
        rcases List.mem_cons.mp member with rfl | later
        · omega
        · exact above other later
      · rcases origin with same | ⟨other, member, next⟩
        · rw [same, startNext]
          rcases le_total book.nextOrderId (order.id + 1) with low | high
          · exact Or.inr ⟨order, List.mem_cons_self, by omega⟩
          · exact Or.inl (by omega)
        · exact Or.inr ⟨other, List.mem_cons_of_mem _ member, next⟩

/-- Loading orders touches neither the trade counter nor the rate limiter. -/
theorem loadOrders_frame (book : OrderBook) (orders : List Order)
    : (book.loadOrders orders).nextTradeId = book.nextTradeId
      ∧ (book.loadOrders orders).stpRate = book.stpRate := by
  induction orders generalizing book with
  | nil => exact ⟨rfl, rfl⟩
  | cons order rest ih =>
      rw [loadOrders_cons, (ih _).1, (ih _).2]
      simp only [OrderBook.addToBook]
      cases order.side <;> split_ifs <;> exact ⟨rfl, rfl⟩

/-- A limit order for one unit at price one. -/
def unitOrder (userId : String) (side : Side) : SubmitArgs where
  userId := userId
  side := side
  orderType := .limit
  price := .one
  size := .one
  leverage := 1
  timeInForce := .gtc
  reduceOnly := false
  clientOrderId := none

/-- A run in which two users trade one unit with each other. -/
def crossingOps : List BookOp :=
  [.setAttestedMs 1, .submitOrder (unitOrder "maker" .short) ⟨0, 0⟩,
    .submitOrder (unitOrder "taker" .long) ⟨0, 0⟩]

/-- On an empty book with an unused rate limiter the two orders do trade. -/
theorem crossingOps_issue {book : OrderBook} (bids : book.bids = .empty)
    (asks : book.asks = .empty) (stpRate : book.stpRate = .new 60_000_000_000 30)
    : book.runOrderIds crossingOps = [book.nextOrderId, book.nextOrderId + 1]
      ∧ book.runTradeIds crossingOps = [book.nextTradeId] := by
  obtain ⟨market, _, _, nextOrderId, nextTradeId, recentTrades, maxRecentTrades, _, attestedMs⟩ :=
    book
  subst bids asks stpRate
  exact ⟨rfl, rfl⟩

/-- Cancel everything: once per resting order, for its owner. -/
def clearOps (book : OrderBook) : List BookOp :=
  book.restingOrders.map (fun order => .cancelAll order.userId) ++ [.cancelAll ""]

/-- Cancelling for a list of users leaves the orders of the others. -/
theorem run_cancelAll (book : OrderBook) (orders : List Order)
    : (book.run (orders.map (fun order => .cancelAll order.userId))).restingOrders
        = book.restingOrders.filter
            (fun order => ∀ other ∈ orders, order.userId ≠ other.userId)
      ∧ (book.run (orders.map (fun order => .cancelAll order.userId))).stpRate = book.stpRate := by
  induction orders generalizing book with
  | nil => simp [OrderBook.run]
  | cons order rest ih =>
      obtain ⟨left, limiter⟩ := ih (book.cancelAll order.userId).2
      refine ⟨?_, limiter⟩
      have first := cancelAll_restingOrders book order.userId
      simp only [List.map_cons, OrderBook.run, List.foldl_cons, OrderBook.apply] at left ⊢
      rw [left, first, List.filter_filter]
      refine List.filter_congr (fun resting _ => ?_)
      simp [Bool.and_comm]

theorem OrderBook.run_append (book : OrderBook) (first second : List BookOp)
    : book.run (first ++ second) = (book.run first).run second :=
  List.foldl_append

theorem OrderBook.runOrderIds_append (book : OrderBook) (first second : List BookOp)
    : book.runOrderIds (first ++ second)
      = book.runOrderIds first ++ (book.run first).runOrderIds second := by
  induction first generalizing book with
  | nil => rfl
  | cons op rest ih =>
      simp only [List.cons_append, OrderBook.runOrderIds, ih, List.append_assoc]
      rfl

theorem OrderBook.runTradeIds_append (book : OrderBook) (first second : List BookOp)
    : book.runTradeIds (first ++ second)
      = book.runTradeIds first ++ (book.run first).runTradeIds second := by
  induction first generalizing book with
  | nil => rfl
  | cons op rest ih =>
      simp only [List.cons_append, OrderBook.runTradeIds, ih, List.append_assoc]
      rfl

/-- A side that kept no order after dropping emptied levels has no level. -/
theorem withoutUser_empty {levels : Levels} {userId : String}
    (gone : (withoutUser levels userId).values.flatten = [])
    : withoutUser levels userId = .empty := by
  apply BTreeMap.ext
  refine List.eq_nil_iff_forall_not_mem.mpr (fun entry member => ?_)
  have listed : entry.2 ∈ (withoutUser levels userId).values := List.mem_map_of_mem member
  have nonempty : entry.2 ≠ [] := by
    simpa [withoutUser, dropEmpty, BTreeMap.retain, List.isEmpty_iff]
      using (List.mem_filter.mp member).2
  exact nonempty (List.flatten_eq_nil_iff.mp gone _ listed)

/-- After cancelling everything the book is empty, its rate limiter as before. -/
theorem clearOps_empty (book : OrderBook)
    : (book.run (clearOps book)).bids = .empty
      ∧ (book.run (clearOps book)).asks = .empty
      ∧ (book.run (clearOps book)).stpRate = book.stpRate := by
  obtain ⟨left, limiter⟩ := run_cancelAll book book.restingOrders
  generalize nextDef : book.run
    (book.restingOrders.map (fun order => BookOp.cancelAll order.userId)) = next
    at left limiter
  have none : next.restingOrders = [] := by
    rw [left]
    refine List.filter_eq_nil_iff.mpr (fun order member => ?_)
    simp only [decide_eq_true_eq]
    exact fun others => others order member rfl
  have final : book.run (clearOps book) = (next.cancelAll "").2 := by
    rw [clearOps, OrderBook.run_append, nextDef]
    rfl
  have gone : (next.cancelAll "").2.restingOrders = [] := by
    rw [cancelAll_restingOrders, none]
    rfl
  obtain ⟨bidsGone, asksGone⟩ := List.append_eq_nil_iff.mp gone
  rw [final]
  exact ⟨withoutUser_empty bidsGone, withoutUser_empty asksGone, limiter⟩

/-- An interval that contains some value contains its first one. -/
theorem IssuedBetween.first {ids : List Nat} {before after id : Nat}
    (issued : IssuedBetween ids before after) (member : id ∈ ids)
    : before ∈ ids := by
  obtain ⟨_, iff⟩ := issued
  obtain ⟨lower, upper⟩ := (iff id).mp member
  exact (iff before).mpr ⟨le_rfl, by omega⟩

/-- From any book with an unused rate limiter some run issues the next order id and the
next trade id.
-/
theorem next_ids_issuable {book : OrderBook} (stpRate : book.stpRate = .new 60_000_000_000 30)
    : ∃ ops,
        book.nextOrderId ∈ book.runOrderIds ops ∧ book.nextTradeId ∈ book.runTradeIds ops := by
  obtain ⟨bids, asks, limiter⟩ := clearOps_empty book
  obtain ⟨orderIds, tradeIds⟩ := crossingOps_issue bids asks (limiter.trans stpRate)
  obtain ⟨orders, trades⟩ := run_issues book (clearOps book ++ crossingOps)
  have orderIssued : (book.run (clearOps book)).nextOrderId
      ∈ book.runOrderIds (clearOps book ++ crossingOps) := by
    rw [OrderBook.runOrderIds_append, orderIds]
    simp
  have tradeIssued : (book.run (clearOps book)).nextTradeId
      ∈ book.runTradeIds (clearOps book ++ crossingOps) := by
    rw [OrderBook.runTradeIds_append, tradeIds]
    simp
  exact ⟨clearOps book ++ crossingOps, orders.first orderIssued, trades.first tradeIssued⟩

-----------------------------------------------------------------------------------------
-- Freshness after a failover
-----------------------------------------------------------------------------------------

/-- No id a later run of the rebuilt book issues was issued by the old run. -/
def IdsFresh (market : String) (ops : List BookOp) (rebuilt : OrderBook) : Prop :=
  ∀ later,
    (∀ id ∈ rebuilt.runOrderIds later, id ∉ (OrderBook.new market).runOrderIds ops)
    ∧ ∀ id ∈ rebuilt.runTradeIds later, id ∉ (OrderBook.new market).runTradeIds ops

/-- Freshness compares counters: the rebuilt ones must not lie below the old ones. -/
theorem idsFresh_iff_counters {market : String} {ops : List BookOp} {rebuilt : OrderBook}
    (stpRate : rebuilt.stpRate = .new 60_000_000_000 30) (orderStart : 1 ≤ rebuilt.nextOrderId)
    (tradeStart : 1 ≤ rebuilt.nextTradeId)
    : IdsFresh market ops rebuilt
      ↔ ((OrderBook.new market).run ops).nextOrderId ≤ rebuilt.nextOrderId
        ∧ ((OrderBook.new market).run ops).nextTradeId ≤ rebuilt.nextTradeId := by
  obtain ⟨⟨_, oldOrders⟩, ⟨_, oldTrades⟩⟩ := run_issues (OrderBook.new market) ops
  constructor
  · intro fresh
    obtain ⟨later, orderIssued, tradeIssued⟩ := next_ids_issuable stpRate
    have orderFresh := (fresh later).1 _ orderIssued
    have tradeFresh := (fresh later).2 _ tradeIssued
    rw [oldOrders, not_and, not_lt] at orderFresh
    rw [oldTrades, not_and, not_lt] at tradeFresh
    exact ⟨orderFresh orderStart, tradeFresh tradeStart⟩
  · rintro ⟨orders, trades⟩ later
    obtain ⟨⟨_, newOrders⟩, ⟨_, newTrades⟩⟩ := run_issues rebuilt later
    refine ⟨fun id issued old => ?_, fun id issued old => ?_⟩
    · have lower := ((newOrders id).mp issued).1
      have upper := ((oldOrders id).mp old).2
      omega
    · have lower := ((newTrades id).mp issued).1
      have upper := ((oldTrades id).mp old).2
      omega

/-- Ids survive a failover exactly when the old sequencer never traded and the order it
numbered last, if it numbered any, still rests.
-/
theorem failover_ids_fresh_iff (market : String) (ops : List BookOp) (orders : List Order)
    (resting : orders.Perm ((OrderBook.new market).run ops).restingOrders)
    : IdsFresh market ops ((OrderBook.new market).loadOrders orders)
      ↔ ((OrderBook.new market).run ops).nextTradeId = 1
        ∧ (((OrderBook.new market).run ops).nextOrderId = 1
          ∨ ∃ order ∈ ((OrderBook.new market).run ops).restingOrders,
              order.id + 1 = ((OrderBook.new market).run ops).nextOrderId) := by
  obtain ⟨tradeEq, stpEq⟩ := loadOrders_frame (OrderBook.new market) orders
  obtain ⟨above, grows, origin⟩ := loadOrders_nextOrderId (OrderBook.new market) orders
  rw [idsFresh_iff_counters stpEq grows (by rw [tradeEq]; exact le_rfl), tradeEq]
  obtain ⟨⟨orderGrows, _⟩, ⟨tradeGrows, _⟩⟩ := run_issues (OrderBook.new market) ops
  have inv := (BookInv.new market).run ops
  have startOrder : (OrderBook.new market).nextOrderId = 1 := rfl
  have startTrade : (OrderBook.new market).nextTradeId = 1 := rfl
  constructor
  · intro given
    rcases given with ⟨orderLe, tradeLe⟩
    refine ⟨by omega, ?_⟩
    rcases origin with same | ⟨order, member, next⟩
    · exact Or.inl (by omega)
    · have found := resting.mem_iff.mp member
      have issued := inv.issued order found
      exact Or.inr ⟨order, found, by omega⟩
  · intro given
    rcases given with ⟨noTrade, none | ⟨order, found, last⟩⟩
    · exact ⟨by omega, by omega⟩
    · have loaded := above order (resting.mem_iff.mpr found)
      exact ⟨by omega, by omega⟩

/-- A book on which one order rests and nothing has traded keeps its ids fresh. -/
theorem failover_ids_fresh_resting
    : IdsFresh "XRP-RLUSD-PERP"
        [.setAttestedMs 1, .submitOrder (unitOrder "maker" .short) ⟨0, 0⟩]
        ((OrderBook.new "XRP-RLUSD-PERP").loadOrders
          ((OrderBook.new "XRP-RLUSD-PERP").run
            [.setAttestedMs 1, .submitOrder (unitOrder "maker" .short) ⟨0, 0⟩]).restingOrders) := by
  refine (failover_ids_fresh_iff "XRP-RLUSD-PERP" _ _ (List.Perm.refl _)).mpr ⟨rfl, Or.inr ?_⟩
  exact ⟨_, List.mem_singleton.mpr rfl, rfl⟩

/-- Two users trade one unit and the book empties; after the failover the same two orders
are numbered 1 and 2 again, and their trade is trade 1 again.
-/
theorem failover_reissues_ids
    : (OrderBook.new "XRP-RLUSD-PERP").runOrderIds crossingOps = [1, 2]
      ∧ (OrderBook.new "XRP-RLUSD-PERP").runTradeIds crossingOps = [1]
      ∧ ((OrderBook.new "XRP-RLUSD-PERP").run crossingOps).restingOrders = []
      ∧ ((OrderBook.new "XRP-RLUSD-PERP").loadOrders []).runOrderIds crossingOps = [1, 2]
      ∧ ((OrderBook.new "XRP-RLUSD-PERP").loadOrders []).runTradeIds crossingOps = [1]
      ∧ ¬ IdsFresh "XRP-RLUSD-PERP" crossingOps
            ((OrderBook.new "XRP-RLUSD-PERP").loadOrders
              ((OrderBook.new "XRP-RLUSD-PERP").run crossingOps).restingOrders) := by
  refine ⟨rfl, rfl, rfl, rfl, rfl, fun fresh => ?_⟩
  have issued : 1 ∈ ((OrderBook.new "XRP-RLUSD-PERP").loadOrders
      ((OrderBook.new "XRP-RLUSD-PERP").run crossingOps).restingOrders).runTradeIds
        crossingOps := List.mem_singleton.mpr rfl
  exact (fresh crossingOps).2 1 issued (List.mem_singleton.mpr rfl)

end PerpDex
