import PerpDex.OrderBook.Invariant

/-! Matching against a one-pass reference.
The reference lists the opposite side best price first, keeps the orders the taker may trade
with and consumes them one by one; what is left is filed under its prices again. Matching
computes that result on every well-formed book, also for a taker whose quantities wrap.
-/

namespace PerpDex

open OrderBook

/-- May the taker trade with a resting order? -/
def mayTrade (taker maker : Order) : Bool :=
  match taker.orderType, taker.side with
  | .market, _ => true
  | .limit, .long => maker.price.raw ≤ taker.price.raw
  | .limit, .short => taker.price.raw ≤ maker.price.raw

/-- What is left of a maker that gave up a quantity: nothing, if that was all it had. -/
def leftover (maker : Order) (quantity : Int) (status : OrderStatus) : List Order :=
  if quantity = maker.remaining.raw then []
  else [{ maker with filled := maker.filled.add (FP8.ofRaw quantity), status }]

/-- What consuming a list of makers yields. -/
structure Consumption where
  taker : Order
  trades : List Trade
  cancelled : List (Order × Int)
  left : List Order

/-- The trade between a taker and a maker, at the maker's price. -/
def tradeOf (context : MatchContext) (tradeId : Nat) (taker maker : Order) (quantity : Int)
    : Trade where
  tradeId := tradeId
  market := context.market
  makerOrderId := maker.id
  takerOrderId := taker.id
  makerUserId := maker.userId
  takerUserId := taker.userId
  price := maker.price
  size := FP8.ofRaw quantity
  takerSide := taker.side
  timestampMs := context.attestedMs

/-- The cancellation of a taker against its user's own maker, with the maker's new state. -/
def cancellationOf (maker : Order) (quantity : Int) : Order × Int :=
  ({ maker with
      filled := maker.filled.add (FP8.ofRaw quantity)
      status := if quantity = maker.remaining.raw then .cancelled else maker.status },
    quantity)

/-- The reference: consume the makers in turn until the taker has nothing remaining or the
list ends. Another user's order trades, the user's own order is decremented without a trade.
-/
def consume (context : MatchContext) (tradeId : Nat) (taker : Order)
    : List Order → Consumption
  | [] => ⟨taker, [], [], []⟩
  | maker :: rest =>
      let quantity := min taker.remaining.raw maker.remaining.raw
      if taker.remaining.raw ≤ 0 then ⟨taker, [], [], maker :: rest⟩
      else if maker.userId = taker.userId then
        let shrunk := { taker with size := taker.size.sub (FP8.ofRaw quantity) }
        let after := consume context tradeId shrunk rest
        { after with
          cancelled := cancellationOf maker quantity :: after.cancelled
          left := leftover maker quantity maker.status ++ after.left }
      else
        let filled := { taker with filled := taker.filled.add (FP8.ofRaw quantity) }
        let after := consume context (tradeId + 1) filled rest
        { after with
          trades := tradeOf context tradeId taker maker quantity :: after.trades
          left := leftover maker quantity .partiallyFilled ++ after.left }

/-- The levels that hold a list of orders, each behind the earlier ones of its price. -/
def file (orders : List Order) : Levels :=
  orders.foldl
    (fun levels order => levels.upsert order.price.raw (fun level => level.getD [] ++ [order]))
    .empty

/-- The result of matching, by the reference: the crossing orders are the front part of the
opposite side in priority order.
-/
def referenceMatch (book : OrderBook) (taker : Order) : Matching × OrderBook :=
  let side := taker.side.opposite
  let resting := queue side (book.levels side)
  let result :=
    consume book.context book.nextTradeId taker (resting.takeWhile (mayTrade taker))
  let nextTradeId := book.nextTradeId + result.trades.length
  let recentTrades := result.trades.foldl (pushRecent book.maxRecentTrades) book.recentTrades
  let levels := file (result.left ++ resting.dropWhile (mayTrade taker))
  ({ taker := result.taker
     trades := result.trades
     stpCancelled := result.cancelled
     nextTradeId
     recentTrades },
    { book.setLevels side levels with nextTradeId, recentTrades })

-----------------------------------------------------------------------------------------
-- Consuming
-----------------------------------------------------------------------------------------

theorem mayTrade_eq (taker maker : Order)
    : mayTrade taker maker = crosses taker maker.price.raw := by
  cases kind : taker.orderType <;> cases side : taker.side <;>
    simp [mayTrade, crosses, kind, side]

/-- What a match has produced, followed by what consuming further makers yields. -/
def Consumption.onto (after : Consumption) (context : MatchContext) (matching : Matching)
    : Matching where
  taker := after.taker
  trades := matching.trades ++ after.trades
  stpCancelled := matching.stpCancelled ++ after.cancelled
  nextTradeId := matching.nextTradeId + after.trades.length
  recentTrades := after.trades.foldl (pushRecent context.maxRecentTrades) matching.recentTrades

/-- A taker with nothing remaining consumes nothing. -/
theorem consume_idle {taker : Order} (done : taker.remaining.raw ≤ 0) (context : MatchContext)
    (tradeId : Nat) (makers : List Order)
    : consume context tradeId taker makers = ⟨taker, [], [], makers⟩ := by
  cases makers with
  | nil => rfl
  | cons maker rest => simp only [consume, if_pos done]

/-- Consuming a concatenation goes on with the second list where the first one ended. -/
theorem consume_append (context : MatchContext) (tradeId : Nat) (taker : Order)
    (front back : List Order)
    : consume context tradeId taker (front ++ back)
      = { taker :=
            (consume context (tradeId + (consume context tradeId taker front).trades.length)
              (consume context tradeId taker front).taker back).taker
          trades :=
            (consume context tradeId taker front).trades
            ++ (consume context (tradeId + (consume context tradeId taker front).trades.length)
                (consume context tradeId taker front).taker back).trades
          cancelled :=
            (consume context tradeId taker front).cancelled
            ++ (consume context (tradeId + (consume context tradeId taker front).trades.length)
                (consume context tradeId taker front).taker back).cancelled
          left :=
            (consume context tradeId taker front).left
            ++ (consume context (tradeId + (consume context tradeId taker front).trades.length)
                (consume context tradeId taker front).taker back).left } := by
  induction front generalizing tradeId taker with
  | nil => rfl
  | cons maker rest ih =>
      by_cases done : taker.remaining.raw ≤ 0
      · simp [consume_idle done]
      · by_cases own : maker.userId = taker.userId
        · simp only [List.cons_append, consume, if_neg done, if_pos own, ih, List.append_assoc]
        · simp only [List.cons_append, consume, if_neg done, if_neg own, ih, List.append_assoc,
            List.length_cons, Nat.add_assoc, Nat.add_comm 1]

/-- Consumed makers keep their prices. -/
theorem consume_left_price {context : MatchContext} {tradeId : Nat} {taker : Order}
    {makers : List Order} {order : Order}
    (member : order ∈ (consume context tradeId taker makers).left)
    : ∃ maker ∈ makers, maker.price = order.price := by
  induction makers generalizing tradeId taker with
  | nil => exact absurd member List.not_mem_nil
  | cons maker rest ih =>
      have split : ∀ {quantity : Int} {status : OrderStatus} {others : List Order},
          order ∈ leftover maker quantity status ++ others
          → (maker.price = order.price) ∨ order ∈ others := by
        intro quantity status others found
        rcases List.mem_append.mp found with kept | later
        · simp only [leftover] at kept
          split_ifs at kept
          · exact absurd kept List.not_mem_nil
          · rw [List.mem_singleton.mp kept]
            exact Or.inl rfl
        · exact Or.inr later
      simp only [consume] at member
      split_ifs at member with done own
      · exact ⟨order, member, rfl⟩
      all_goals
        rcases split member with same | later
        · exact ⟨maker, List.mem_cons_self, same⟩
        · obtain ⟨other, found, same⟩ := ih later
          exact ⟨other, List.mem_cons_of_mem _ found, same⟩

-----------------------------------------------------------------------------------------
-- The loops consume
-----------------------------------------------------------------------------------------

/-- The quantities of one visit: a live taker and an unfilled maker meet in a positive
quantity, and the maker is used up exactly if that is all it had.
-/
theorem visit_quantities {taker maker : Order} (live : 0 < taker.remaining.raw)
    (unfilled : maker.Unfilled)
    : 0 < min taker.remaining.raw maker.remaining.raw
      ∧ I64Range (min taker.remaining.raw maker.remaining.raw)
      ∧ (maker.filled.add (FP8.ofRaw (min taker.remaining.raw maker.remaining.raw))).raw
        = maker.filled.raw + min taker.remaining.raw maker.remaining.raw
      ∧ (maker.size.raw
            ≤ maker.filled.raw + min taker.remaining.raw maker.remaining.raw
          ↔ min taker.remaining.raw maker.remaining.raw = maker.remaining.raw) := by
  have remaining := unfilled.sane.remaining_raw
  have nonneg := unfilled.1
  have room := unfilled.2
  have upper := maker.size.inRange.2
  have fits : I64Range (min taker.remaining.raw maker.remaining.raw) :=
    ⟨by omega, by omega⟩
  refine ⟨by omega, fits, ?_, by omega⟩
  have raw := FP8.raw_ofRaw fits
  rw [FP8.raw_add, raw]
  rw [raw]
  exact ⟨by omega, by omega⟩

/-- The self-trade branch cancels the quantity in which the two orders meet. -/
theorem preventSelfTrade_eq {matching : Matching} {maker : Order}
    (live : 0 < matching.taker.remaining.raw) (unfilled : maker.Unfilled)
    : (preventSelfTrade matching maker).1.toList
        = leftover maker (min matching.taker.remaining.raw maker.remaining.raw) maker.status
      ∧ (preventSelfTrade matching maker).2
        = { matching with
            taker :=
              { matching.taker with
                size :=
                  matching.taker.size.sub
                    (FP8.ofRaw (min matching.taker.remaining.raw maker.remaining.raw)) }
            stpCancelled :=
              matching.stpCancelled
              ++ [cancellationOf maker
                  (min matching.taker.remaining.raw maker.remaining.raw)] } := by
  obtain ⟨positive, fits, filledEq, consumed⟩ := visit_quantities live unfilled
  have filledSame : FP8.ofRaw (maker.filled.raw
        + min matching.taker.remaining.raw maker.remaining.raw)
      = maker.filled.add
          (FP8.ofRaw (min matching.taker.remaining.raw maker.remaining.raw)) := by
    rw [← filledEq, FP8.ofRaw_raw]
  have sizeSame : FP8.ofRaw (matching.taker.size.raw
        - min matching.taker.remaining.raw maker.remaining.raw)
      = matching.taker.size.sub
          (FP8.ofRaw (min matching.taker.remaining.raw maker.remaining.raw)) := by
    rw [FP8.sub, FP8.raw_ofRaw fits]
  simp only [preventSelfTrade, if_neg (not_le.mpr positive), filledSame, sizeSame, filledEq,
    consumed]
  by_cases whole : min matching.taker.remaining.raw maker.remaining.raw = maker.remaining.raw
  · simp [whole, leftover, cancellationOf]
  · simp [whole, leftover, cancellationOf]

/-- The fill branch trades the quantity in which the two orders meet. -/
theorem fillMaker_eq {context : MatchContext} {matching : Matching} {maker : Order}
    (live : 0 < matching.taker.remaining.raw) (unfilled : maker.Unfilled)
    : (fillMaker context maker.price.raw matching maker).1.toList
        = leftover maker (min matching.taker.remaining.raw maker.remaining.raw)
            .partiallyFilled
      ∧ (fillMaker context maker.price.raw matching maker).2
        = { matching with
            taker :=
              { matching.taker with
                filled :=
                  matching.taker.filled.add
                    (FP8.ofRaw (min matching.taker.remaining.raw maker.remaining.raw)) }
            trades :=
              matching.trades
              ++ [tradeOf context matching.nextTradeId matching.taker maker
                  (min matching.taker.remaining.raw maker.remaining.raw)]
            nextTradeId := matching.nextTradeId + 1
            recentTrades :=
              pushRecent context.maxRecentTrades matching.recentTrades
                (tradeOf context matching.nextTradeId matching.taker maker
                  (min matching.taker.remaining.raw maker.remaining.raw)) } := by
  obtain ⟨_, _, filledEq, consumed⟩ := visit_quantities live unfilled
  have remaining := unfilled.sane.remaining_raw
  have usedUp : maker.filled.add
        (FP8.ofRaw (min matching.taker.remaining.raw maker.remaining.raw)) = maker.size
      ↔ min matching.taker.remaining.raw maker.remaining.raw = maker.remaining.raw := by
    rw [FP8.ext_iff, filledEq, ← consumed]
    omega
  simp only [fillMaker, usedUp, FP8.ofRaw_raw]
  by_cases whole : min matching.taker.remaining.raw maker.remaining.raw = maker.remaining.raw
  · simp [whole, leftover, tradeOf]
  · simp [whole, leftover, tradeOf]

/-- The maker loop over one level consumes that level, by induction over its orders. -/
theorem matchLevel_consumes {context : MatchContext} {price : Int} {level : PriceLevel}
    (priced : ∀ maker ∈ level, maker.price.raw = price)
    (unfilled : ∀ maker ∈ level, maker.Unfilled) (matching : Matching)
    : matchLevel context price matching level
      = ((consume context matching.nextTradeId matching.taker level).left,
          (consume context matching.nextTradeId matching.taker level).onto context
            matching) := by
  induction level generalizing matching with
  | nil => simp [matchLevel, consume, Consumption.onto]
  | cons maker rest ih =>
      have later := ih (fun other member => priced other (List.mem_cons_of_mem _ member))
        (fun other member => unfilled other (List.mem_cons_of_mem _ member))
      by_cases done : matching.taker.remaining.raw ≤ 0
      · simp [matchLevel, done, consume_idle done, Consumption.onto]
      · have live := not_le.mp done
        have headUnfilled := unfilled maker List.mem_cons_self
        rw [← priced maker List.mem_cons_self] at later ⊢
        simp only [matchLevel, if_neg done, matchMaker, consume]
        by_cases own : maker.userId = matching.taker.userId
        · obtain ⟨kept, next⟩ := preventSelfTrade_eq live headUnfilled
          simp [own, later, kept, next, Consumption.onto]
        · obtain ⟨kept, next⟩ := @fillMaker_eq context matching maker live headUnfilled
          simp [own, later, kept, next, Consumption.onto, Nat.add_assoc, Nat.add_comm 1]

/-- The walk over the entries consumes their orders in turn, by induction over them. -/
theorem sweepEntries_consumes {context : MatchContext} {entries : List (Int × PriceLevel)}
    (filed : Filed entries)
    (unfilled : ∀ entry ∈ entries, ∀ maker ∈ entry.2, maker.Unfilled) (matching : Matching)
    : (sweepEntries context matching entries).1.flatMap Prod.snd
        = (consume context matching.nextTradeId matching.taker
            (entries.flatMap Prod.snd)).left
      ∧ (sweepEntries context matching entries).2
        = (consume context matching.nextTradeId matching.taker
            (entries.flatMap Prod.snd)).onto context matching
      ∧ Filed (sweepEntries context matching entries).1 := by
  induction entries generalizing matching with
  | nil => exact ⟨rfl, by simp [sweepEntries, consume, Consumption.onto], filed⟩
  | cons entry rest ih =>
      by_cases done : matching.taker.remaining.raw ≤ 0
      · simp only [sweepEntries, if_pos done, consume_idle done]
        exact ⟨trivial, by simp [Consumption.onto], filed⟩
      · have level := @matchLevel_consumes context entry.1 entry.2
          (filed entry List.mem_cons_self) (unfilled entry List.mem_cons_self) matching
        obtain ⟨flat, final, refiled⟩ := ih
          (fun other member => filed other (List.mem_cons_of_mem _ member))
          (fun other member => unfilled other (List.mem_cons_of_mem _ member))
          (matchLevel context entry.1 matching entry.2).2
        simp only [sweepEntries, if_neg done, List.flatMap_cons, consume_append]
        refine ⟨?_, ?_, ?_⟩
        · rw [flat, level]
          rfl
        · rw [final, level]
          simp [Consumption.onto, Nat.add_assoc]
        · refine List.forall_mem_cons.mpr ⟨fun order member => ?_, refiled⟩
          rw [level] at member
          obtain ⟨maker, found, same⟩ := consume_left_price member
          rw [← same]
          exact filed entry List.mem_cons_self maker found

-----------------------------------------------------------------------------------------
-- Filing
-----------------------------------------------------------------------------------------

/-- The level at a price: the orders of a list that have it, if there are any. -/
def levelOf (orders : List Order) (price : Int) : Option PriceLevel :=
  if orders.filter (fun order => order.price.raw = price) = [] then none
  else some (orders.filter (fun order => order.price.raw = price))

/-- Filing collects the orders of each price in their order, by induction from the last. -/
theorem get?_file (orders : List Order) (price : Int)
    : (file orders).get? price = levelOf orders price := by
  induction orders using List.reverseRecOn with
  | nil => rfl
  | append_singleton orders order ih =>
      have step : file (orders ++ [order])
          = (file orders).upsert order.price.raw (fun level => level.getD [] ++ [order]) := by
        simp [file]
      rw [step, BTreeMap.get?_upsert]
      by_cases same : price = order.price.raw
      · subst same
        rw [if_pos rfl, ih]
        by_cases none : orders.filter (fun other => other.price.raw = order.price.raw) = []
        · simp [levelOf, none]
        · simp [levelOf, none]
      · simp [same, ih, levelOf, Ne.symm same]

/-- With distinct keys, the entries of a key flatten to what a lookup finds. -/
theorem flatMap_filter_key {entries : List (Int × PriceLevel)}
    (distinct : (entries.map Prod.fst).Nodup) (price : Int)
    : (entries.filter (fun entry => entry.1 = price)).flatMap Prod.snd
      = (entries.lookup price).getD [] := by
  induction entries with
  | nil => rfl
  | cons entry rest ih =>
      obtain ⟨fresh, tail⟩ := List.nodup_cons.mp distinct
      rw [BTreeMap.lookup_cons_ite]
      by_cases same : entry.1 = price
      · have others : rest.filter (fun other => other.1 = price) = [] := by
          refine List.filter_eq_nil_iff.mpr (fun other member clash => fresh ?_)
          have key : other.1 = entry.1 := (of_decide_eq_true clash).trans same.symm
          exact List.mem_map.mpr ⟨other, member, key⟩
        simp [same, others]
      · simp [same, Ne.symm same, ih tail]

theorem lookup_priority (side : Side) (levels : Levels) (price : Int)
    : (priority side levels).lookup price = levels.get? price := by
  apply Option.ext
  intro level
  rw [BTreeMap.lookup_eq_some_iff (priority_keys_nodup side levels), mem_priority,
    BTreeMap.get?_eq_some_iff]

/-- Levels without empty ones, with every order under its price, are refiled from their
queue.
-/
theorem file_queue {side : Side} {levels : Levels} (filed : Filed levels.entries)
    (nonempty : ∀ entry ∈ levels.entries, entry.2 ≠ [])
    : file (queue side levels) = levels := by
  apply BTreeMap.ext_get?
  intro price
  have listed : Filed (priority side levels) := fun entry member =>
    filed entry (mem_priority.mp member)
  have level := flatMap_filter_price listed (fun key => key = price)
  rw [flatMap_filter_key (priority_keys_nodup side levels), lookup_priority] at level
  rw [get?_file, levelOf, queue, ← level]
  cases found : levels.get? price with
  | none => rfl
  | some orders =>
      have some := nonempty _ (BTreeMap.get?_eq_some_iff.mp found)
      exact if_neg some

/-- The orders a taker may trade with are a front part of the opposite queue. -/
theorem span_mayTrade {taker : Order} {levels : Levels}
    (inv : LevelsInv taker.side.opposite levels)
    : (queue taker.side.opposite levels).takeWhile (mayTrade taker)
        = crossing taker (queue taker.side.opposite levels)
      ∧ (queue taker.side.opposite levels).dropWhile (mayTrade taker)
        = beyond taker (queue taker.side.opposite levels) := by
  have crossed : ∀ maker ∈ crossing taker (queue taker.side.opposite levels),
      mayTrade taker maker = true := fun maker member => by
    rw [mayTrade_eq]
    exact (List.mem_filter.mp member).2
  have apart : ∀ maker ∈ beyond taker (queue taker.side.opposite levels),
      mayTrade taker maker = false := fun maker member => by
    rw [mayTrade_eq]
    simpa using (List.mem_filter.mp member).2
  have split := queue_split inv
  generalize crossing taker (queue taker.side.opposite levels) = front at *
  generalize beyond taker (queue taker.side.opposite levels) = back at *
  rw [split, List.takeWhile_append_of_pos crossed, List.dropWhile_append_of_pos crossed]
  cases back with
  | nil => simp
  | cons maker rest => simp [apart maker List.mem_cons_self]

-----------------------------------------------------------------------------------------
-- Matching is the reference
-----------------------------------------------------------------------------------------

/-- Price-time priority: on every well-formed book and for every taker, matching returns the
trades, the self-trade cancellations and the taker of the reference, and leaves the book the
reference leaves, with the opposite side level by level.
-/
theorem matchOrder_eq_reference {book : OrderBook} (inv : BookInv book) (taker : Order)
    : book.matchOrder taker = referenceMatch book taker := by
  have side := inv.levels taker.side.opposite
  obtain ⟨after, nextEq, matchingEq, entriesEq⟩ := matchOrder_priority book taker
  obtain ⟨takes, drops⟩ := span_mayTrade side
  have filed : Filed (priority taker.side.opposite (book.levels taker.side.opposite)) :=
    fun entry member => Filed.of_resting side.resting entry (mem_priority.mp member)
  have swept := @sweepEntries_consumes book.context
    ((priority taker.side.opposite (book.levels taker.side.opposite)).filter
      (fun entry => crosses taker entry.1))
    (fun entry member => filed entry (List.mem_of_mem_filter member))
    (fun entry member maker found =>
      (side.resting entry (mem_priority.mp (List.mem_of_mem_filter member)) maker
        found).unfilled)
    (book.startMatching taker)
  rw [flatMap_filter_price filed (crosses taker)] at swept
  obtain ⟨flat, final, refiled⟩ := swept
  -- what the sweep left, then the orders beyond the taker's price
  have afterFiled : Filed (dropEmpty after).entries := by
    intro entry member
    have kept : entry ∈ priority taker.side.opposite after :=
      mem_priority.mpr (List.mem_of_mem_filter member)
    rw [entriesEq] at kept
    rcases List.mem_append.mp kept with crossed | worse
    · exact refiled entry crossed
    · exact filed entry (List.mem_of_mem_filter worse)
  have afterNonempty : ∀ entry ∈ (dropEmpty after).entries, entry.2 ≠ [] := by
    intro entry member
    have kept := (List.mem_filter.mp member).2
    simpa [List.isEmpty_iff] using kept
  have afterQueue : queue taker.side.opposite (dropEmpty after)
      = (consume book.context book.nextTradeId taker
          (crossing taker
            (queue taker.side.opposite (book.levels taker.side.opposite)))).left
        ++ beyond taker (queue taker.side.opposite (book.levels taker.side.opposite)) := by
    rw [queue_dropEmpty, queue, entriesEq, List.flatMap_append, flat,
      flatMap_filter_price filed (fun price => !crosses taker price)]
    rfl
  have levelsEq := @file_queue taker.side.opposite _ afterFiled afterNonempty
  rw [afterQueue] at levelsEq
  have matchingSame : (book.matchOrder taker).1 = (referenceMatch book taker).1 := by
    rw [matchingEq, final]
    simp only [referenceMatch, takes]
    simp [Consumption.onto, startMatching, crossing, queue, OrderBook.context]
  refine Prod.ext matchingSame ?_
  rw [nextEq, matchingSame]
  simp only [referenceMatch, takes, drops, levelsEq]

/-- A limit order in raw price and size. -/
def limitOrder (userId : String) (side : Side) (price size : Int) (timeInForce : TimeInForce)
    : SubmitArgs where
  userId := userId
  side := side
  orderType := .limit
  price := .ofRaw price
  size := .ofRaw size
  leverage := 1
  timeInForce := timeInForce
  reduceOnly := false
  clientOrderId := none

/-- A book on which bids of three users rest at three prices. -/
def threeBids : OrderBook :=
  (OrderBook.new "XRP-RLUSD-PERP").run
    [.setAttestedMs 1, .submitOrder (limitOrder "alice" .long 100 2 .gtc) ⟨0, 0⟩,
      .submitOrder (limitOrder "bob" .long 90 3 .gtc) ⟨0, 0⟩,
      .submitOrder (limitOrder "carol" .long 95 1 .gtc) ⟨0, 0⟩]

/-- Carol sells four units down to 92: two to alice, one is taken off her own bid, and one is
left over because bob's bid lies beyond her limit.
-/
theorem matchOrder_eq_reference_threeBids
    : threeBids.matchOrder (threeBids.newOrder (limitOrder "carol" .short 92 4 .gtc))
        = referenceMatch threeBids (threeBids.newOrder (limitOrder "carol" .short 92 4 .gtc))
      ∧ (referenceMatch threeBids
            (threeBids.newOrder (limitOrder "carol" .short 92 4 .gtc))).1.trades.map
          (fun trade => (trade.makerUserId, trade.size.raw)) = [("alice", 2)] :=
  ⟨matchOrder_eq_reference ((BookInv.new _).run _) _, by decide +kernel⟩

end PerpDex
