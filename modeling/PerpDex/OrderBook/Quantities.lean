import PerpDex.OrderBook.Effects
import PerpDex.OrderBook.Reference

/-! Where the quantity of a submission goes.
What an order asks for is traded, cancelled against the user's own orders or left open, and
each maker loses what the trades and cancellations naming it say. The fill-or-kill pre-check
counts other users' liquidity only, and on the bid side in the wrong direction.
-/

namespace PerpDex

open OrderBook

/-- The quantity a list of trades exchanged. -/
def tradedSize (trades : List Trade) : Int := (trades.map (fun trade => trade.size.raw)).sum

/-- The quantity of the trades that name a maker. -/
def tradedWith (trades : List Trade) (orderId : Nat) : Int :=
  (trades.map (fun trade => if trade.makerOrderId = orderId then trade.size.raw else 0)).sum

/-- The quantity self-trade prevention cancelled. -/
def cancelledSize (cancelled : List (Order × Int)) : Int := (cancelled.map Prod.snd).sum

/-- The quantity self-trade prevention cancelled on one maker. -/
def cancelledOn (cancelled : List (Order × Int)) (orderId : Nat) : Int :=
  (cancelled.map (fun entry => if entry.1.id = orderId then entry.2 else 0)).sum

/-- What rests under an id: nothing, if the order is gone. -/
def remainingAt (book : OrderBook) (orderId : Nat) : Int :=
  (book.getOrder orderId).elim 0 (fun order => order.remaining.raw)

/-- An accepted submission accounts for every unit: the requested size is filled, remains or
was cancelled, and each maker lost what the report says it lost.
-/
structure Conserved (book : OrderBook) (args : SubmitArgs) (submission : Submission)
    (next : OrderBook) : Prop where
  trades : ∀ trade ∈ submission.trades, 0 < trade.size.raw
  cancellations : ∀ entry ∈ submission.stpCancelled, 0 < entry.2
  filled : submission.order.filled.raw = tradedSize submission.trades
  requested
    : args.size.raw
      = submission.order.filled.raw + submission.order.remaining.raw
        + cancelledSize submission.stpCancelled
  makers
    : ∀ order ∈ book.restingOrders,
        order.remaining.raw - remainingAt next order.id
          = tradedWith submission.trades order.id
            + cancelledOn submission.stpCancelled order.id
  others : ∀ trade ∈ submission.trades, trade.makerUserId ≠ trade.takerUserId

section Shares

variable {book next : OrderBook} {args : SubmitArgs} {submission : Submission}
  {shares : List Share}

/-- Summing over the trades is summing over the shares taken from others. -/
theorem SubmitEffect.sum_trades (effect : SubmitEffect book args submission next shares)
    {view : Trade → Int} {weight : Share → Int}
    (views
      : ∀ tradeId, ∀ share ∈ shares,
          view (shareTrade book.context (book.newOrder args) tradeId share) = weight share)
    : (submission.trades.map view).sum
      = ((foreignShares args.userId shares).map weight).sum := by
  rw [effect.trades]
  have foreign : ∀ share ∈ foreignShares args.userId shares, share ∈ shares :=
    fun share member => List.mem_of_mem_filter member
  generalize foreignShares args.userId shares = taken at foreign
  generalize book.nextTradeId = tradeId
  induction taken generalizing tradeId with
  | nil => rfl
  | cons share rest ih =>
      have later := ih (fun other member => foreign other (List.mem_cons_of_mem _ member))
        (tradeId + 1)
      simp only [shareTrades, List.map_cons, List.sum_cons, later,
        views tradeId share (foreign share List.mem_cons_self)]

/-- The traded size is what other users' makers gave up. -/
theorem SubmitEffect.tradedSize (inv : BookInv book)
    (effect : SubmitEffect book args submission next shares)
    : PerpDex.tradedSize submission.trades = total (foreignShares args.userId shares) :=
  effect.sum_trades (fun _ _ member => effect.share_amount inv member)

/-- The cancelled size is what the user's own makers gave up. -/
theorem SubmitEffect.cancelledSize (effect : SubmitEffect book args submission next shares)
    : PerpDex.cancelledSize submission.stpCancelled = total (ownShares args.userId shares) := by
  rw [effect.decrements, PerpDex.cancelledSize, List.map_map]
  rfl

/-- What the shares take from the maker with an id. -/
def takenFrom (shares : List Share) (orderId : Nat) : Int :=
  (shares.map (fun share => if share.1.id = orderId then share.2 else 0)).sum

/-- The report names a maker with exactly what the shares take from it. -/
theorem SubmitEffect.takenFrom (inv : BookInv book)
    (effect : SubmitEffect book args submission next shares) (orderId : Nat)
    : tradedWith submission.trades orderId + cancelledOn submission.stpCancelled orderId
      = PerpDex.takenFrom shares orderId := by
  have traded : tradedWith submission.trades orderId
      = PerpDex.takenFrom (foreignShares args.userId shares) orderId := by
    refine effect.sum_trades (fun tradeId share member => ?_)
    have amount := effect.share_amount inv member
    simp only [shareTrade, amount]
  have cancelled : cancelledOn submission.stpCancelled orderId
      = PerpDex.takenFrom (ownShares args.userId shares) orderId := by
    rw [effect.decrements, cancelledOn, List.map_map]
    rfl
  rw [traded, cancelled, add_comm]
  exact weight_split args.userId _ shares

/-- The weight at an id that no share has is nothing. -/
theorem sum_at_none (weight : Share → Int) {orderId : Nat}
    (missing : ∀ share ∈ shares, share.1.id ≠ orderId)
    : (shares.map (fun other => if other.1.id = orderId then weight other else 0)).sum = 0 := by
  refine List.sum_eq_zero (fun amount listed => ?_)
  obtain ⟨share, found, rfl⟩ := List.mem_map.mp listed
  exact if_neg (missing share found)

/-- Among shares of distinct makers, the weight at the id of one is that one's. -/
theorem sum_at_share (weight : Share → Int)
    (distinct : (shares.map (fun share => share.1.id)).Nodup) {share : Share}
    (member : share ∈ shares)
    : (shares.map (fun other => if other.1.id = share.1.id then weight other else 0)).sum
      = weight share := by
  induction shares with
  | nil => exact absurd member List.not_mem_nil
  | cons head rest ih =>
      obtain ⟨fresh, tail⟩ := List.nodup_cons.mp distinct
      rw [List.map_cons, List.sum_cons]
      rcases List.mem_cons.mp member with rfl | later
      · have others := @sum_at_none rest weight share.1.id (fun other found same =>
          fresh (List.mem_map.mpr ⟨other, found, same⟩))
        rw [if_pos rfl, others, add_zero]
      · have apart : head.1.id ≠ share.1.id := fun same =>
          fresh (List.mem_map.mpr ⟨share, later, same.symm⟩)
        rw [if_neg apart, ih tail later, zero_add]

end Shares

/-- What is left of a maker has something open: its open quantity less the share. -/
theorem shareLeft_open {share : Share} {userId : String} {order : Order}
    (unfilled : share.1.Unfilled) (positive : 0 < share.2) (within : share.2 ≤ share.1.openRaw)
    (left : shareLeft userId share = some order)
    : order.Unfilled ∧ order.openRaw = share.1.openRaw - share.2 := by
  obtain ⟨maker, quantity⟩ := share
  have nonneg : 0 ≤ maker.filled.raw := unfilled.1
  have upper := maker.size.inRange.2
  have short : quantity ≠ maker.openRaw := fun whole => by simp [shareLeft, whole] at left
  simp only [Order.openRaw] at positive within short ⊢
  have filledEq : (FP8.ofRaw (maker.filled.raw + quantity)).raw
      = maker.filled.raw + quantity := FP8.raw_ofRaw ⟨by omega, by omega⟩
  have remains : (FP8.ofRaw (maker.filled.raw + quantity)).raw < maker.size.raw := by omega
  rw [shareLeft_some userId filledEq remains] at left
  rw [← Option.some.inj left]
  refine ⟨⟨?_, remains⟩, ?_⟩
  · simp only [filledEq]
    omega
  · simp only [filledEq]
    omega

/-- A maker is used up exactly by a share of all it has open. -/
theorem shareLeft_eq_none {share : Share} {userId : String}
    (gone : shareLeft userId share = none)
    : share.2 = share.1.openRaw := by
  by_contra short
  simp [shareLeft, short] at gone

/-- What rests of a maker after it gave up a share: its open quantity less the share. -/
theorem shareLeft_remaining {share : Share} (unfilled : share.1.Unfilled)
    (positive : 0 < share.2) (within : share.2 ≤ share.1.openRaw) (userId : String)
    : (shareLeft userId share).elim 0 (fun order => order.remaining.raw)
      = share.1.openRaw - share.2 := by
  cases left : shareLeft userId share with
  | none =>
      rw [shareLeft_eq_none left, sub_self]
      rfl
  | some order =>
      obtain ⟨orderUnfilled, openEq⟩ := shareLeft_open unfilled positive within left
      exact orderUnfilled.sane.remaining_open.trans openEq

-----------------------------------------------------------------------------------------
-- Conservation
-----------------------------------------------------------------------------------------

/-- The shares an accepted submission takes: none, if the pre-check kills it. -/
def sharesTaken (book : OrderBook) (args : SubmitArgs) : List Share :=
  if args.timeInForce = .fok ∧ book.availableLiquidity (book.newOrder args) < args.size.raw then []
  else takes book (book.newOrder args)

/-- Everything an accepted submission says about its shares, with the filled quantity and
the bound on what is taken.
-/
theorem submitOrder_shares {book next : OrderBook} (inv : BookInv book) {args : SubmitArgs}
    {clock : StpClock} {submission : Submission}
    (accepted : book.submitOrder args clock = (.ok submission, next))
    : SubmitEffect book args submission next (sharesTaken book args)
      ∧ submission.order.filled.raw
        = total (foreignShares args.userId (sharesTaken book args))
      ∧ total (sharesTaken book args) ≤ args.size.raw := by
  have outcome := submitOrder_outcome book args clock
  rw [accepted] at outcome
  cases outcome with
  | killed stpRate positive fillOrKill short =>
      have taken : sharesTaken book args = [] := if_pos ⟨fillOrKill, short⟩
      rw [taken]
      exact ⟨killed_effect fillOrKill stpRate, rfl, positive.le⟩
  | executed stpRate positive _ _ liquid =>
      have taken : sharesTaken book args = takes book (book.newOrder args) :=
        if_neg (fun killed => absurd (liquid killed.1) (not_le.mpr killed.2))
      have admitted : BookInv (book.countAttempt stpRate) := inv.congr rfl rfl (Nat.le_succ _)
      have report := executeOrder_report admitted (@newOrder_sane book args positive) clock.record
      have asked : (book.newOrder args).openRaw = args.size.raw := sub_zero _
      have met := total_allot (opposing_unfilled inv (book.newOrder args))
        (asked.symm ▸ positive.le)
      rw [taken]
      refine ⟨executed_effect inv positive stpRate liquid clock.record, ?_, ?_⟩
      · exact report.filled.trans (zero_add _)
      · rw [takes, met, asked]
        exact min_le_left _ _

/-- A submission neither loses nor invents quantity: what is filled, taken off and left over adds up
to what was asked for. Witness: the shares of others are what is traded, those of the submitter
what is cancelled.
-/
theorem SubmitEffect.conserved {book next : OrderBook} {args : SubmitArgs}
    {submission : Submission} {shares : List Share} (inv : BookInv book)
    (effect : SubmitEffect book args submission next shares)
    (filled : submission.order.filled.raw = total (foreignShares args.userId shares))
    (bounded : total shares ≤ args.size.raw)
    : Conserved book args submission next := by
  have traded := effect.tradedSize inv
  have cancelled := effect.cancelledSize
  have split := total_split args.userId shares
  have nonneg : 0 ≤ total (foreignShares args.userId shares) := by
    refine List.sum_nonneg (fun amount listed => ?_)
    obtain ⟨share, found, rfl⟩ := List.mem_map.mp listed
    exact (effect.share_bounds inv (List.mem_of_mem_filter found)).1.le
  have size := effect.size
  have sane : submission.order.Sane := ⟨by omega, by omega⟩
  have remaining := sane.remaining_raw
  refine ⟨?_, ?_, by omega, by omega, ?_, ?_⟩
  · intro trade member
    rw [effect.trades] at member
    obtain ⟨_, share, found, rfl⟩ := mem_shareTrades member
    have listed := List.mem_of_mem_filter found
    have positive := (effect.share_bounds inv listed).1
    simpa only [shareTrade, effect.share_amount inv listed] using positive
  · intro entry member
    rw [effect.decrements] at member
    obtain ⟨share, found, rfl⟩ := List.mem_map.mp member
    exact (effect.share_bounds inv (List.mem_of_mem_filter found)).1
  · intro order member
    rw [effect.takenFrom inv]
    have found := (getOrder_eq_some_iff inv).mpr ⟨member, rfl⟩
    cases shared : shareOf shares order.id with
    | none =>
        have old := inv.issued order member
        rw [PerpDex.takenFrom, sum_at_none _ (shareOf_none shared), remainingAt, effect.lookup,
          if_neg (fun both => old.ne both.2), shared, found]
        exact sub_self _
    | some share =>
        obtain ⟨listed, sameId⟩ := shareOf_some shared
        obtain ⟨positive, within⟩ := effect.share_bounds inv listed
        have unfilled := effect.share_unfilled inv listed
        have same : share.1 = order := by
          have other := (getOrder_eq_some_iff inv).mpr ⟨effect.share_resting listed, sameId⟩
          exact Option.some.inj (other.symm.trans found)
        subst same
        rw [PerpDex.takenFrom, sum_at_share _ (effect.share_distinct inv) listed, remainingAt,
          effect.lookup_share inv listed, shareLeft_remaining unfilled positive within,
          unfilled.sane.remaining_open]
        omega
  · intro trade member
    rw [effect.trades] at member
    obtain ⟨_, share, found, rfl⟩ := mem_shareTrades member
    exact of_decide_eq_true (List.mem_filter.mp found).2

/-- Quantity is conserved by every submission on a well-formed book: an accepted one accounts
for every unit it asked for and took, a refused one leaves the resting orders, the trade
counter and the recent trades as they were.
-/
theorem submission_conserves_quantity {book : OrderBook} (inv : BookInv book)
    (args : SubmitArgs) (clock : StpClock)
    : (∀ submission next,
          book.submitOrder args clock = (.ok submission, next)
          → Conserved book args submission next)
      ∧ ∀ reason next,
          book.submitOrder args clock = (.error reason, next)
          → next.bids = book.bids ∧ next.asks = book.asks
            ∧ next.nextTradeId = book.nextTradeId
            ∧ next.recentTrades = book.recentTrades := by
  refine ⟨fun submission next accepted => ?_, fun reason next refused => ?_⟩
  · obtain ⟨effect, filled, bounded⟩ := submitOrder_shares inv accepted
    exact effect.conserved inv filled bounded
  · have outcome := submitOrder_outcome book args clock
    rw [refused] at outcome
    cases outcome with
    | refused _ stpRate => exact ⟨rfl, rfl, rfl, rfl⟩

/-- Carol's sale of four units into the three bids, which fills two, cancels one and rests
one, and her refused sale of nothing.
-/
theorem submission_conserves_quantity_threeBids
    : BookInv threeBids
      ∧ (∀ submission next,
          threeBids.submitOrder (limitOrder "carol" .short 92 4 .gtc) ⟨0, 0⟩
              = (.ok submission, next)
          → Conserved threeBids (limitOrder "carol" .short 92 4 .gtc) submission next)
      ∧ ∀ reason next,
          threeBids.submitOrder (limitOrder "carol" .short 92 0 .gtc) ⟨0, 0⟩
              = (.error reason, next)
          → next.bids = threeBids.bids ∧ next.asks = threeBids.asks
            ∧ next.nextTradeId = threeBids.nextTradeId
            ∧ next.recentTrades = threeBids.recentTrades := by
  have inv : BookInv threeBids := (BookInv.new _).run _
  exact ⟨inv, (submission_conserves_quantity inv _ _).1, (submission_conserves_quantity inv _ _).2⟩

end PerpDex
