import PerpDex.OrderBook.Model

/-! Matching as a sweep over the opposite queue.
The executable loops are described once, by a relation whose steps say what visiting a
maker can do when both orders hold sane quantities. Later modules induct over the
relation and never unfold the loops.
-/

namespace PerpDex

open OrderBook

/-- An order with something left to fill, as every order on the book is. -/
def Order.Unfilled (order : Order) : Prop :=
  0 ≤ order.filled.raw ∧ order.filled.raw < order.size.raw

/-- An order whose filled quantity lies within its size. -/
def Order.Sane (order : Order) : Prop :=
  0 ≤ order.filled.raw ∧ order.filled.raw ≤ order.size.raw

theorem Order.Unfilled.sane {order : Order} (unfilled : order.Unfilled) : order.Sane :=
  ⟨unfilled.1, unfilled.2.le⟩

/-- For sane quantities the remaining quantity is the mathematical difference. -/
theorem Order.Sane.remaining_raw {order : Order} (sane : order.Sane)
    : order.remaining.raw = order.size.raw - order.filled.raw := by
  obtain ⟨nonneg, bounded⟩ := sane
  have upper := order.size.inRange.2
  exact FP8.raw_sub ⟨by omega, by omega⟩

/-- The taker of a running match is sane. -/
def OrderBook.Matching.Sane (matching : Matching) : Prop := matching.taker.Sane

/-- The quantity by which a taker and a maker meet. -/
def meet (taker maker : Order) : Int :=
  min (taker.size.raw - taker.filled.raw) (maker.size.raw - maker.filled.raw)

/-- The trade a fill records. -/
def fillTrade (context : MatchContext) (price : Int) (matching : Matching) (maker : Order)
    (fill : FP8) : Trade where
  tradeId := matching.nextTradeId
  market := context.market
  makerOrderId := maker.id
  takerOrderId := matching.taker.id
  makerUserId := maker.userId
  takerUserId := matching.taker.userId
  price := FP8.ofRaw price
  size := fill
  takerSide := matching.taker.side
  timestampMs := context.attestedMs

/-- What visiting an unfilled maker does: an own order is decremented against the taker's
size, another user's order is filled; it stays on the book only if something remains.
-/
inductive MakerStep (context : MatchContext) (price : Int) (matching : Matching)
    (maker : Order)
    : Option Order → Matching → Prop
  | decrement {size filled : FP8} (own : maker.userId = matching.taker.userId)
    (sizeEq : size.raw = matching.taker.size.raw - meet matching.taker maker)
    (filledEq : filled.raw = maker.filled.raw + meet matching.taker maker)
    (remains : filled.raw < maker.size.raw)
    : MakerStep context price matching maker (some { maker with filled })
        { matching with
          taker := { matching.taker with size }
          stpCancelled :=
            matching.stpCancelled
            ++ [({ maker with filled }, meet matching.taker maker)] }
  | decrementOut {size filled : FP8} (own : maker.userId = matching.taker.userId)
    (sizeEq : size.raw = matching.taker.size.raw - meet matching.taker maker)
    (filledEq : filled.raw = maker.filled.raw + meet matching.taker maker)
    (consumed : filled.raw = maker.size.raw)
    : MakerStep context price matching maker none
        { matching with
          taker := { matching.taker with size }
          stpCancelled :=
            matching.stpCancelled
            ++ [({ maker with filled, status := .cancelled }, meet matching.taker maker)] }
  | fill {size takerFilled filled : FP8} (foreign : maker.userId ≠ matching.taker.userId)
    (sizeEq : size.raw = meet matching.taker maker)
    (takerEq : takerFilled.raw = matching.taker.filled.raw + meet matching.taker maker)
    (filledEq : filled.raw = maker.filled.raw + meet matching.taker maker)
    (remains : filled.raw < maker.size.raw)
    : MakerStep context price matching maker
        (some { maker with filled, status := .partiallyFilled })
        { matching with
          taker := { matching.taker with filled := takerFilled }
          trades := matching.trades ++ [fillTrade context price matching maker size]
          nextTradeId := matching.nextTradeId + 1
          recentTrades :=
            pushRecent context.maxRecentTrades matching.recentTrades
              (fillTrade context price matching maker size) }
  | fillOut {size takerFilled filled : FP8} (foreign : maker.userId ≠ matching.taker.userId)
    (sizeEq : size.raw = meet matching.taker maker)
    (takerEq : takerFilled.raw = matching.taker.filled.raw + meet matching.taker maker)
    (filledEq : filled.raw = maker.filled.raw + meet matching.taker maker)
    (consumed : filled.raw = maker.size.raw)
    : MakerStep context price matching maker none
        { matching with
          taker := { matching.taker with filled := takerFilled }
          trades := matching.trades ++ [fillTrade context price matching maker size]
          nextTradeId := matching.nextTradeId + 1
          recentTrades :=
            pushRecent context.maxRecentTrades matching.recentTrades
              (fillTrade context price matching maker size) }

/-- Two orders with something left meet in a positive quantity that both still have. -/
theorem meet_bounds {taker maker : Order} (live : taker.filled.raw < taker.size.raw)
    (unfilled : maker.Unfilled)
    : 0 < meet taker maker
      ∧ meet taker maker ≤ taker.size.raw - taker.filled.raw
      ∧ meet taker maker ≤ maker.size.raw - maker.filled.raw := by
  have room := unfilled.2
  simp only [meet]
  omega

/-- The self-trade branch takes one of the two decrement steps.
Witness: the crossed amount is positive and fits, so no arithmetic wraps.
-/
theorem preventSelfTrade_step {context : MatchContext} {price : Int} {matching : Matching}
    {maker : Order} (sane : matching.Sane)
    (live : matching.taker.filled.raw < matching.taker.size.raw)
    (unfilled : maker.Unfilled) (own : maker.userId = matching.taker.userId)
    : MakerStep context price matching maker (preventSelfTrade matching maker).1
        (preventSelfTrade matching maker).2 := by
  obtain ⟨positive, takerRoom, makerRoom⟩ := meet_bounds live unfilled
  have crossEq : min matching.taker.remaining.raw maker.remaining.raw
      = meet matching.taker maker := by
    rw [sane.remaining_raw, unfilled.sane.remaining_raw]
    rfl
  have takerUpper := matching.taker.size.inRange.2
  have makerUpper := maker.size.inRange.2
  have takerNonneg := sane.1
  have makerNonneg := unfilled.1
  have sizeEq : (FP8.ofRaw (matching.taker.size.raw - meet matching.taker maker)).raw
      = matching.taker.size.raw - meet matching.taker maker :=
    FP8.raw_ofRaw ⟨by omega, by omega⟩
  have filledEq : (FP8.ofRaw (maker.filled.raw + meet matching.taker maker)).raw
      = maker.filled.raw + meet matching.taker maker :=
    FP8.raw_ofRaw ⟨by omega, by omega⟩
  simp only [preventSelfTrade, crossEq, not_le.mpr positive, if_false]
  split_ifs with consumed
  · exact .decrementOut own sizeEq filledEq (by omega)
  · exact .decrement own sizeEq filledEq (not_le.mp consumed)

/-- The fill branch takes one of the two fill steps, again without wrapping. -/
theorem fillMaker_step {context : MatchContext} {price : Int} {matching : Matching}
    {maker : Order} (sane : matching.Sane)
    (live : matching.taker.filled.raw < matching.taker.size.raw)
    (unfilled : maker.Unfilled) (foreign : maker.userId ≠ matching.taker.userId)
    : MakerStep context price matching maker
        (fillMaker context price matching maker).1
        (fillMaker context price matching maker).2 := by
  obtain ⟨positive, takerRoom, makerRoom⟩ := meet_bounds live unfilled
  have takerUpper := matching.taker.size.inRange.2
  have makerUpper := maker.size.inRange.2
  have takerNonneg := sane.1
  have makerNonneg := unfilled.1
  have fillEq : (FP8.ofRaw (min matching.taker.remaining.raw maker.remaining.raw)).raw
      = meet matching.taker maker := by
    rw [sane.remaining_raw, unfilled.sane.remaining_raw]
    have fits : I64Range (meet matching.taker maker) := ⟨by omega, by omega⟩
    exact FP8.raw_ofRaw fits
  generalize fillDef : FP8.ofRaw (min matching.taker.remaining.raw maker.remaining.raw) = fill
  rw [fillDef] at fillEq
  have takerEq : (matching.taker.filled.add fill).raw
      = matching.taker.filled.raw + meet matching.taker maker := by
    rw [← fillEq]
    exact FP8.raw_add ⟨by omega, by omega⟩
  have filledEq : (maker.filled.add fill).raw
      = maker.filled.raw + meet matching.taker maker := by
    rw [← fillEq]
    exact FP8.raw_add ⟨by omega, by omega⟩
  by_cases consumed : maker.filled.add fill = maker.size
  · have exhausted : (maker.filled.add fill).raw = maker.size.raw := by rw [consumed]
    have step : MakerStep context price matching maker none _ :=
      .fillOut foreign fillEq takerEq filledEq exhausted
    simpa [fillMaker, fillDef, consumed, fillTrade] using step
  · have remains : (maker.filled.add fill).raw < maker.size.raw := by
      have apart : (maker.filled.add fill).raw ≠ maker.size.raw := fun same =>
        consumed (FP8.ext same)
      omega
    have step : MakerStep context price matching maker (some _) _ :=
      .fill foreign fillEq takerEq filledEq remains
    simpa [fillMaker, fillDef, consumed, fillTrade] using step

/-- Visiting an unfilled maker with a live taker takes a maker step. -/
theorem matchMaker_step {context : MatchContext} {price : Int} {matching : Matching}
    {maker : Order} (sane : matching.Sane)
    (live : matching.taker.filled.raw < matching.taker.size.raw)
    (unfilled : maker.Unfilled)
    : MakerStep context price matching maker
        (matchMaker context price matching maker).1
        (matchMaker context price matching maker).2 := by
  simp only [matchMaker]
  split_ifs with own
  · exact preventSelfTrade_step sane live unfilled own
  · exact fillMaker_step sane live unfilled own

-----------------------------------------------------------------------------------------
-- A whole queue
-----------------------------------------------------------------------------------------

/-- The taker sweeps a queue of makers, best first: it visits them one after another at
their own prices until it is exhausted, and leaves the rest of the queue alone.
-/
inductive Sweeps (context : MatchContext)
    : Matching → List Order → List Order → Matching → Prop
  | nil {matching} : Sweeps context matching [] [] matching
  | exhausted {matching maker rest}
    (done : matching.taker.size.raw ≤ matching.taker.filled.raw)
    : Sweeps context matching (maker :: rest) (maker :: rest) matching
  | visit {matching middle final maker kept rest left}
    (live : matching.taker.filled.raw < matching.taker.size.raw)
    (step : MakerStep context maker.price.raw matching maker kept middle)
    (tail : Sweeps context middle rest left final)
    : Sweeps context matching (maker :: rest) (kept.toList ++ left) final

/-- A maker step keeps the taker's quantities sane, by cases on the step. -/
theorem MakerStep.sane {context : MatchContext} {price : Int} {matching next : Matching}
    {maker : Order} {kept : Option Order} (sane : matching.Sane)
    (live : matching.taker.filled.raw < matching.taker.size.raw) (unfilled : maker.Unfilled)
    (step : MakerStep context price matching maker kept next)
    : next.Sane := by
  obtain ⟨positive, takerRoom, makerRoom⟩ := meet_bounds live unfilled
  have nonneg := sane.1
  cases step with
  | decrement _ sizeEq _ _ | decrementOut _ sizeEq _ _ =>
      exact ⟨nonneg, by simp only [sizeEq]; omega⟩
  | fill _ _ takerEq _ _ | fillOut _ _ takerEq _ _ =>
      exact ⟨by simp only [takerEq]; omega, by simp only [takerEq]; omega⟩

/-- An exhausted taker leaves any queue alone. -/
theorem Sweeps.idle {context : MatchContext} {matching : Matching}
    (done : matching.taker.size.raw ≤ matching.taker.filled.raw) (queue : List Order)
    : Sweeps context matching queue queue matching := by
  cases queue with
  | nil => exact .nil
  | cons maker rest => exact .exhausted done

/-- Sweeps compose along the queue, by induction on the first. -/
theorem Sweeps.append {context : MatchContext} {matching middle final : Matching}
    {front back frontLeft backLeft : List Order}
    (first : Sweeps context matching front frontLeft middle)
    (second : Sweeps context middle back backLeft final)
    : Sweeps context matching (front ++ back) (frontLeft ++ backLeft) final := by
  induction first with
  | nil => exact second
  | @exhausted matching maker rest done =>
      -- the taker was already exhausted, so the second sweep changed nothing
      cases second with
      | nil => simpa using Sweeps.idle done (maker :: rest)
      | exhausted _ => exact .exhausted done
      | visit live _ _ => exact absurd done (not_le.mpr live)
  | visit live step _ ih =>
      rw [List.append_assoc]
      exact .visit live step (ih second)

/-- The whole sweep keeps the taker sane, by induction over the visited makers. -/
theorem Sweeps.sane {context : MatchContext} {matching final : Matching}
    {queue left : List Order} (sweeps : Sweeps context matching queue left final)
    (unfilled : ∀ maker ∈ queue, maker.Unfilled) (sane : matching.Sane)
    : final.Sane := by
  induction sweeps with
  | nil | exhausted _ => exact sane
  | visit live step _ ih =>
      exact ih (fun maker member => unfilled maker (List.mem_cons_of_mem _ member))
        (step.sane sane live (unfilled _ List.mem_cons_self))

/-- The executable maker loop over one level is a sweep of that level. -/
theorem matchLevel_sweeps {context : MatchContext} {price : Int} {level : PriceLevel}
    (priced : ∀ maker ∈ level, maker.price.raw = price)
    (unfilled : ∀ maker ∈ level, maker.Unfilled) {matching : Matching}
    (sane : matching.Sane)
    : Sweeps context matching level (matchLevel context price matching level).1
        (matchLevel context price matching level).2 := by
  induction level generalizing matching with
  | nil => exact .nil
  | cons maker rest ih =>
      have remaining := Order.Sane.remaining_raw sane
      simp only [matchLevel]
      split_ifs with done
      · exact .exhausted (by omega)
      · have live : matching.taker.filled.raw < matching.taker.size.raw := by omega
        have headUnfilled := unfilled maker List.mem_cons_self
        have step := @matchMaker_step context price matching maker sane live headUnfilled
        rw [← priced maker List.mem_cons_self] at step ⊢
        refine .visit live step ?_
        rw [priced maker List.mem_cons_self] at step ⊢
        exact ih (fun other member => priced other (List.mem_cons_of_mem _ member))
          (fun other member => unfilled other (List.mem_cons_of_mem _ member))
          (step.sane sane live headUnfilled)

end PerpDex
