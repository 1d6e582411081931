import PerpDex.OrderBook.Invariant

/-! Matching as an allotment.
A demand is allotted to the makers of a queue, best first, until it is used up. The trades,
the self-trade decrements, the makers left and the quantities of the taker are all read off
the allotment, so later modules reason about one list of shares instead of a run of steps.
-/

namespace PerpDex

open OrderBook

/-- The quantity of an order that is still open. -/
def Order.openRaw (order : Order) : Int := order.size.raw - order.filled.raw

theorem Order.Sane.remaining_open {order : Order} (sane : order.Sane)
    : order.remaining.raw = order.openRaw :=
  sane.remaining_raw

theorem Order.Unfilled.open_pos {order : Order} (unfilled : order.Unfilled)
    : 0 < order.openRaw := by
  have room := unfilled.2
  simp only [Order.openRaw]
  omega

/-- A maker with the quantity of a demand that falls to it. -/
abbrev Share := Order × Int

/-- The makers a demand reaches, best first, each with its share of the demand. -/
def allot : Int → List Order → List Share
  | _, [] => []
  | demand, maker :: rest =>
      if demand ≤ 0 then []
      else
        (maker, min demand maker.openRaw)
          :: allot (demand - min demand maker.openRaw) rest

/-- The shares of a user's own makers. -/
def ownShares (userId : String) (shares : List Share) : List Share :=
  shares.filter (fun share => share.1.userId = userId)

/-- The shares of everyone else's makers. -/
def foreignShares (userId : String) (shares : List Share) : List Share :=
  shares.filter (fun share => share.1.userId ≠ userId)

def total (shares : List Share) : Int := (shares.map Prod.snd).sum

/-- The maker after giving up its share, if something of it is left. -/
def shareLeft (userId : String) (share : Share) : Option Order :=
  if share.2 = share.1.openRaw then none
  else
    some
      { share.1 with
        filled := FP8.ofRaw (share.1.filled.raw + share.2)
        status := if share.1.userId = userId then share.1.status else .partiallyFilled }

/-- What self-trade prevention reports for a share of an own maker. -/
def shareDecrement (share : Share) : Order × Int :=
  ({ share.1 with
      filled := FP8.ofRaw (share.1.filled.raw + share.2)
      status := if share.2 = share.1.openRaw then .cancelled else share.1.status },
    share.2)

/-- The trade that fills a share of another user's maker. -/
def shareTrade (context : MatchContext) (taker : Order) (tradeId : Nat) (share : Share)
    : Trade where
  tradeId := tradeId
  market := context.market
  makerOrderId := share.1.id
  takerOrderId := taker.id
  makerUserId := share.1.userId
  takerUserId := taker.userId
  price := share.1.price
  size := FP8.ofRaw share.2
  takerSide := taker.side
  timestampMs := context.attestedMs

/-- One trade per share, numbered consecutively. -/
def shareTrades (context : MatchContext) (taker : Order) : Nat → List Share → List Trade
  | _, [] => []
  | next, share :: rest =>
      shareTrade context taker next share :: shareTrades context taker (next + 1) rest

theorem shareTrades_eq_map (context : MatchContext) (taker : Order) (next : Nat)
    (shares : List Share) {α : Type} (view : Trade → α) (project : Share → α)
    (views : ∀ tradeId share, view (shareTrade context taker tradeId share) = project share)
    : (shareTrades context taker next shares).map view = shares.map project := by
  induction shares generalizing next with
  | nil => rfl
  | cons share rest ih => simp only [shareTrades, List.map_cons, views, ih]

theorem mem_shareTrades {context : MatchContext} {taker : Order} {next : Nat}
    {shares : List Share} {trade : Trade} (member : trade ∈ shareTrades context taker next shares)
    : ∃ tradeId, ∃ share ∈ shares, trade = shareTrade context taker tradeId share := by
  induction shares generalizing next with
  | nil => exact absurd member List.not_mem_nil
  | cons share rest ih =>
      rcases List.mem_cons.mp member with rfl | later
      · exact ⟨next, share, List.mem_cons_self, rfl⟩
      · obtain ⟨tradeId, other, found, same⟩ := ih later
        exact ⟨tradeId, other, List.mem_cons_of_mem _ found, same⟩

theorem shareTrade_mem {context : MatchContext} {taker : Order} {next : Nat}
    {shares : List Share} {share : Share} (member : share ∈ shares)
    : ∃ tradeId,
        shareTrade context taker tradeId share ∈ shareTrades context taker next shares := by
  induction shares generalizing next with
  | nil => exact absurd member List.not_mem_nil
  | cons head rest ih =>
      rcases List.mem_cons.mp member with rfl | later
      · exact ⟨next, List.mem_cons_self⟩
      · obtain ⟨tradeId, found⟩ := @ih (next + 1) later
        exact ⟨tradeId, List.mem_cons_of_mem _ found⟩

theorem shareTrades_append (context : MatchContext) (taker : Order) (next : Nat)
    (front back : List Share)
    : shareTrades context taker next (front ++ back)
      = shareTrades context taker next front
        ++ shareTrades context taker (next + front.length) back := by
  induction front generalizing next with
  | nil => rfl
  | cons share rest ih =>
      simp only [List.cons_append, shareTrades, ih, List.length_cons]
      rw [Nat.add_right_comm next 1, Nat.add_assoc]

/-- Trades name their taker but do not depend on its quantities. -/
theorem shareTrades_taker (context : MatchContext) (taker : Order) (size filled : FP8)
    (next : Nat) (shares : List Share)
    : shareTrades context { taker with size, filled } next shares
      = shareTrades context taker next shares := by
  induction shares generalizing next with
  | nil => rfl
  | cons share rest ih =>
      simp only [shareTrades, ih]
      rfl

theorem allot_idle {demand : Int} (none : demand ≤ 0) (makers : List Order)
    : allot demand makers = [] := by
  cases makers with
  | nil => rfl
  | cons maker rest => simp [allot, none]

/-- The makers reached are a first part of the queue. -/
theorem allot_split (demand : Int) (makers : List Order)
    : makers
      = (allot demand makers).map Prod.fst ++ makers.drop (allot demand makers).length := by
  induction makers generalizing demand with
  | nil => rfl
  | cons maker rest ih =>
      simp only [allot]
      split_ifs
      · rfl
      · simp only [List.map_cons, List.length_cons, List.drop_succ_cons, List.cons_append]
        exact congrArg _ (ih _)

theorem allot_maker {demand : Int} {makers : List Order} {share : Share}
    (member : share ∈ allot demand makers)
    : share.1 ∈ makers := by
  rw [allot_split demand makers]
  exact List.mem_append_left _ (List.mem_map_of_mem member)

/-- A share is positive and no more than the maker has open. -/
theorem allot_bounds {demand : Int} {makers : List Order}
    (unfilled : ∀ maker ∈ makers, maker.Unfilled) {share : Share}
    (member : share ∈ allot demand makers)
    : 0 < share.2 ∧ share.2 ≤ share.1.openRaw := by
  induction makers generalizing demand with
  | nil => exact absurd member List.not_mem_nil
  | cons maker rest ih =>
      simp only [allot] at member
      split_ifs at member with none
      · exact absurd member List.not_mem_nil
      · rcases List.mem_cons.mp member with rfl | later
        · have room := (unfilled maker List.mem_cons_self).open_pos
          simp only
          omega
        · exact ih (fun other found => unfilled other (List.mem_cons_of_mem _ found)) later

/-- The open quantity of a queue. -/
def depth (makers : List Order) : Int := (makers.map Order.openRaw).sum

theorem depth_nonneg {makers : List Order} (unfilled : ∀ maker ∈ makers, maker.Unfilled)
    : 0 ≤ depth makers := by
  refine List.sum_nonneg (fun quantity member => ?_)
  obtain ⟨maker, found, rfl⟩ := List.mem_map.mp member
  exact (unfilled maker found).open_pos.le

/-- The demand is met up to the depth of the queue. -/
theorem total_allot {demand : Int} {makers : List Order}
    (unfilled : ∀ maker ∈ makers, maker.Unfilled) (nonneg : 0 ≤ demand)
    : total (allot demand makers) = min demand (depth makers) := by
  induction makers generalizing demand with
  | nil => simp [allot, total, depth, nonneg]
  | cons maker rest ih =>
      have others : ∀ other ∈ rest, other.Unfilled := fun other found =>
        unfilled other (List.mem_cons_of_mem _ found)
      have room := (unfilled maker List.mem_cons_self).open_pos
      have tailDepth := depth_nonneg others
      have depthEq : depth (maker :: rest) = maker.openRaw + depth rest := by simp [depth]
      simp only [allot]
      split_ifs with none
      · simp only [total, List.map_nil, List.sum_nil]
        omega
      · have tail := ih others (show 0 ≤ demand - min demand maker.openRaw by omega)
        simp only [total, List.map_cons, List.sum_cons] at tail ⊢
        omega

/-- What shares weigh splits into the user's own and everyone else's. -/
theorem weight_split (userId : String) (weight : Share → Int) (shares : List Share)
    : ((ownShares userId shares).map weight).sum + ((foreignShares userId shares).map weight).sum
      = (shares.map weight).sum := by
  induction shares with
  | nil => rfl
  | cons share rest ih =>
      simp only [ownShares, foreignShares] at ih ⊢
      by_cases own : share.1.userId = userId
      · simp [own] at ih ⊢
        omega
      · simp [own] at ih ⊢
        omega

theorem total_split (userId : String) (shares : List Share)
    : total (ownShares userId shares) + total (foreignShares userId shares) = total shares :=
  weight_split userId Prod.snd shares

-----------------------------------------------------------------------------------------
-- A sweep carries out the allotment
-----------------------------------------------------------------------------------------

/-- A sweep carried out as the allotment of its taker's open quantity. -/
structure Allots (context : MatchContext) (matching : Matching) (makers left : List Order)
    (final : Matching) : Prop where
  trades
    : final.trades
      = matching.trades
        ++ shareTrades context matching.taker matching.nextTradeId
            (foreignShares matching.taker.userId (allot matching.taker.openRaw makers))
  decrements
    : final.stpCancelled
      = matching.stpCancelled
        ++ (ownShares matching.taker.userId
            (allot matching.taker.openRaw makers)).map shareDecrement
  left
    : left
      = (allot matching.taker.openRaw makers).filterMap (shareLeft matching.taker.userId)
        ++ makers.drop (allot matching.taker.openRaw makers).length
  size
    : final.taker.size.raw
      = matching.taker.size.raw
        - total (ownShares matching.taker.userId (allot matching.taker.openRaw makers))
  filled
    : final.taker.filled.raw
      = matching.taker.filled.raw
        + total (foreignShares matching.taker.userId (allot matching.taker.openRaw makers))

/-- An exhausted taker allots nothing. -/
theorem Allots.idle {context : MatchContext} {matching : Matching}
    (done : matching.taker.size.raw ≤ matching.taker.filled.raw) (makers : List Order)
    : Allots context matching makers makers matching := by
  have none := allot_idle (show matching.taker.openRaw ≤ 0 by simp only [Order.openRaw]; omega)
    makers
  constructor <;> simp [none, foreignShares, ownShares, shareTrades, total]

/-- A maker that kept something is the leftover of its share. -/
theorem shareLeft_some {maker : Order} {quantity : Int} {filled : FP8} (userId : String)
    (filledEq : filled.raw = maker.filled.raw + quantity)
    (remains : filled.raw < maker.size.raw)
    : shareLeft userId (maker, quantity)
      = some
          { maker with
            filled
            status := if maker.userId = userId then maker.status else .partiallyFilled } := by
  have short : quantity ≠ maker.openRaw := by
    simp only [Order.openRaw]
    omega
  have same : FP8.ofRaw (maker.filled.raw + quantity) = filled := by
    rw [← filledEq, FP8.ofRaw_raw]
  simp only [shareLeft, if_neg short, same]

theorem shareLeft_none {maker : Order} {quantity : Int} {filled : FP8} (userId : String)
    (filledEq : filled.raw = maker.filled.raw + quantity)
    (consumed : filled.raw = maker.size.raw)
    : shareLeft userId (maker, quantity) = none := by
  have whole : quantity = maker.openRaw := by
    simp only [Order.openRaw]
    omega
  simp only [shareLeft, if_pos whole]

/-- One visit hands one share to its maker. -/
structure StepAllots (context : MatchContext) (matching : Matching) (share : Share)
    (kept : Option Order) (next : Matching) : Prop where
  terms
    : next.taker
      = { matching.taker with size := next.taker.size, filled := next.taker.filled }
  trades
    : next.trades
      = matching.trades
        ++ shareTrades context matching.taker matching.nextTradeId
            (foreignShares matching.taker.userId [share])
  numbered
    : next.nextTradeId
      = matching.nextTradeId + (foreignShares matching.taker.userId [share]).length
  decrements
    : next.stpCancelled
      = matching.stpCancelled
        ++ (ownShares matching.taker.userId [share]).map shareDecrement
  kept : kept = shareLeft matching.taker.userId share
  size
    : next.taker.size.raw
      = matching.taker.size.raw - total (ownShares matching.taker.userId [share])
  filled
    : next.taker.filled.raw
      = matching.taker.filled.raw + total (foreignShares matching.taker.userId [share])

/-- A visited maker gives the taker its share and keeps the rest, by cases on what becomes of the
maker.
-/
theorem MakerStep.allots {context : MatchContext} {matching next : Matching}
    {maker : Order} {kept : Option Order}
    (step : MakerStep context maker.price.raw matching maker kept next)
    : StepAllots context matching (maker, meet matching.taker maker) kept next := by
  cases step with
  | @decrement size filled own sizeEq filledEq remains =>
      have short : meet matching.taker maker ≠ maker.openRaw := by
        simp only [Order.openRaw]
        omega
      have same : FP8.ofRaw (maker.filled.raw + meet matching.taker maker) = filled := by
        rw [← filledEq, FP8.ofRaw_raw]
      have leftover := shareLeft_some matching.taker.userId filledEq remains
      constructor <;>
        simp [foreignShares, ownShares, own, shareTrades, shareDecrement, short, same, total,
          leftover, sizeEq]
  | @decrementOut size filled own sizeEq filledEq consumed =>
      have whole : meet matching.taker maker = maker.openRaw := by
        simp only [Order.openRaw]
        omega
      have same : FP8.ofRaw (maker.filled.raw + meet matching.taker maker) = filled := by
        rw [← filledEq, FP8.ofRaw_raw]
      have leftover := shareLeft_none matching.taker.userId filledEq consumed
      constructor
      case decrements =>
        simp only [ownShares, own, shareDecrement, same, List.filter_cons, decide_true, if_true,
          List.filter_nil, List.map_cons, List.map_nil, if_pos whole]
      all_goals
        simp [foreignShares, ownShares, own, shareTrades, total, leftover, sizeEq]
  | @fill size takerFilled filled foreign sizeEq takerEq filledEq remains =>
      have leftover := shareLeft_some matching.taker.userId filledEq remains
      have sizeSame : FP8.ofRaw (meet matching.taker maker) = size := by
        rw [← sizeEq, FP8.ofRaw_raw]
      constructor <;>
        simp [foreignShares, ownShares, foreign, shareTrades, shareTrade, fillTrade, total,
          leftover, takerEq, sizeSame]
  | @fillOut size takerFilled filled foreign sizeEq takerEq filledEq consumed =>
      have leftover := shareLeft_none matching.taker.userId filledEq consumed
      have sizeSame : FP8.ofRaw (meet matching.taker maker) = size := by
        rw [← sizeEq, FP8.ofRaw_raw]
      constructor <;>
        simp [foreignShares, ownShares, foreign, shareTrades, shareTrade, fillTrade, total,
          leftover, takerEq, sizeSame]

theorem ownShares_cons (userId : String) (share : Share) (rest : List Share)
    : ownShares userId (share :: rest) = ownShares userId [share] ++ ownShares userId rest :=
  List.filter_append [share] rest

theorem foreignShares_cons (userId : String) (share : Share) (rest : List Share)
    : foreignShares userId (share :: rest)
      = foreignShares userId [share] ++ foreignShares userId rest :=
  List.filter_append [share] rest

theorem total_append (front back : List Share)
    : total (front ++ back) = total front + total back := by
  simp [total]

/-- Matching a queue is carrying out the allotment, by induction over the sweep. -/
theorem Sweeps.allots {context : MatchContext} {matching final : Matching}
    {makers left : List Order} (sweeps : Sweeps context matching makers left final)
    : Allots context matching makers left final := by
  induction sweeps with
  | nil => constructor <;> simp [allot, foreignShares, ownShares, shareTrades, total]
  | exhausted done => exact .idle done _
  | @visit matching middle final maker kept rest left live step tail later =>
      have head := step.allots
      have demandPos : ¬ matching.taker.openRaw ≤ 0 := by
        simp only [Order.openRaw]
        omega
      have shares : allot matching.taker.openRaw (maker :: rest)
          = (maker, meet matching.taker maker)
            :: allot (matching.taker.openRaw - meet matching.taker maker) rest := by
        simp only [allot, if_neg demandPos]
        rfl
      have user : middle.taker.userId = matching.taker.userId := by rw [head.terms]
      have split := total_split matching.taker.userId [(maker, meet matching.taker maker)]
      have single : total [(maker, meet matching.taker maker)] = meet matching.taker maker := by
        simp [total]
      have demand : middle.taker.openRaw
          = matching.taker.openRaw - meet matching.taker maker := by
        have size := head.size
        have filled := head.filled
        simp only [Order.openRaw]
        omega
      have same : ∀ next shares, shareTrades context middle.taker next shares
          = shareTrades context matching.taker next shares := by
        intro next shares
        rw [head.terms]
        exact shareTrades_taker ..
      obtain ⟨trades, decrements, leftEq, size, filled⟩ := later
      rw [user, demand] at trades decrements leftEq size filled
      constructor <;> rw [shares]
      · rw [foreignShares_cons, shareTrades_append, trades, head.trades, head.numbered, same,
          List.append_assoc]
      · rw [ownShares_cons, List.map_append, decrements, head.decrements, List.append_assoc]
      · rw [leftEq, head.kept, List.filterMap_cons, List.length_cons, List.drop_succ_cons,
          ← List.append_assoc]
        cases shareLeft matching.taker.userId (maker, meet matching.taker maker) <;> rfl
      · rw [ownShares_cons, total_append, size, head.size]
        omega
      · rw [foreignShares_cons, total_append, filled, head.filled]
        omega

end PerpDex
