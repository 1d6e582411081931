import PerpDex.OrderBook.Quantities
import PerpDex.Trading.Reserve

/-! The terms on which makers are margined.
The settlement loop opens both legs of a fill with the leverage of the order that takes. A
maker's leg is on the maker's own terms exactly if the two leverages agree, and then the margin
its fills demand stays within what was reserved while it rested.
-/

namespace PerpDex

open OrderBook

/-- The order an operation submits, if it submits one. -/
def EngineOp.request : EngineOp → Option (OrderRequest × StpClock)
  | .submitOrder authorization args clock => some (⟨authorization, args, none⟩, clock)
  | .submitCloseOrder authorization userId closeSide size leverage closePositionId clock =>
      some
        (⟨authorization, closeArgs userId closeSide size leverage, some closePositionId⟩, clock)
  | .cancelOrder _ => none
  | .cancelAll _ => none

section Engine

variable {σ : Type} (perp : PerpClient σ) (crypto : Crypto)

/-- The fills of an operation. -/
def EngineState.trades (state : EngineState (σ × List EnclaveCall)) (op : EngineOp) : List Trade :=
  match op.request with
  | none => []
  | some (request, clock) =>
      ((submitOrderInner perp.logged crypto request clock state.engine
          state.enclave).result.toOption.map OrderResult.trades).getD []

/-- The calls an operation makes to the enclave. -/
def EngineState.calls (state : EngineState (σ × List EnclaveCall)) (op : EngineOp)
    : List EnclaveCall :=
  (state.apply perp.logged crypto op).enclave.2.drop state.enclave.2.length

/-- The position opened for a maker on its own terms: the side opposite to the taker, the
fill size, and the price and leverage of its resting order.
-/
def ownTermsCall (trade : Trade) (maker : Order) : EnclaveCall :=
  .openPosition maker.userId trade.takerSide.opposite.toString trade.size.display
    maker.price.display maker.leverage

/-- Every fill of an operation is settled by the taker's call and a call for the maker on the
terms of the order that rested.
-/
def MakersOnOwnTerms (state : EngineState (σ × List EnclaveCall)) (op : EngineOp) : Prop :=
  ∀ request clock, op.request = some (request, clock)
  → ∃ legs : List (Trade × Order),
      legs.map Prod.fst = state.trades perp crypto op
      ∧ (∀ leg ∈ legs, state.engine.book.getOrder leg.1.makerOrderId = some leg.2)
      ∧ state.calls perp crypto op
        = legs.flatMap
            (fun leg =>
              [takerCall request.closePositionId request.args.leverage leg.1,
                ownTermsCall leg.1 leg.2])

/-- The other users' orders an operation would fill. -/
def EngineState.makers (state : EngineState (σ × List EnclaveCall)) (request : OrderRequest)
    (clock : StpClock) : List Share :=
  if engineAccepts perp.logged request clock state.engine state.enclave then
    foreignShares request.args.userId (sharesTaken state.engine.book request.args)
  else []

/-- Every maker an operation would fill rests with the leverage of the order that takes. -/
def MakersShareLeverage (state : EngineState (σ × List EnclaveCall)) (op : EngineOp) : Prop :=
  ∀ request clock, op.request = some (request, clock)
  → ∀ share ∈ state.makers perp request clock, share.1.leverage = request.args.leverage

/-- Everything a submission does: nothing, or it fills the shares the book offers and settles
both legs of every fill.
-/
theorem submitOrderInner_fills {engine : TradingEngine} (inv : BookInv engine.book)
    (request : OrderRequest) (clock : StpClock) (enclave : σ × List EnclaveCall)
    : (engineAccepts perp.logged request clock engine enclave = false
        ∧ (∃ reason,
          (submitOrderInner perp.logged crypto request clock engine enclave).result
            = .error reason)
        ∧ SameOrders engine.book
            (submitOrderInner perp.logged crypto request clock engine enclave).engine.book
        ∧ (submitOrderInner perp.logged crypto request clock engine enclave).enclave.2
          = enclave.2)
      ∨ ∃ attestedMs submission result,
          engineAccepts perp.logged request clock engine enclave = true
          ∧ (submitOrderInner perp.logged crypto request clock engine enclave).result = .ok result
          ∧ result.trades = submission.trades
          ∧ BookInv (submitOrderInner perp.logged crypto request clock engine enclave).engine.book
          ∧ SubmitEffect (engine.book.setAttestedMs attestedMs) request.args submission
              (submitOrderInner perp.logged crypto request clock engine enclave).engine.book
              (sharesTaken engine.book request.args)
          ∧ (request.args.orderType = .limit → 0 < request.args.price.raw)
          ∧ (submitOrderInner perp.logged crypto request clock engine enclave).enclave.2
            = enclave.2
              ++ submission.trades.flatMap
                  (settlementCalls request.closePositionId request.args.leverage) := by
  have unread : (readEnclave perp.logged request enclave).2.2 = enclave.2 :=
    readEnclave_log perp request enclave.1 enclave.2
  cases submitOrderInner_cases perp.logged crypto inv request clock enclave with
  | refused reason unaccepted result same unsettled =>
      refine .inl ⟨unaccepted, ⟨reason, result⟩, same, ?_⟩
      rw [unsettled]
      exact unread
  | settled available attestedMs submission failedFills _ accepted guarded matched result
      settles =>
      have clocked : BookInv (engine.book.setAttestedMs attestedMs) := inv.congr rfl rfl le_rfl
      obtain ⟨_, keeps, _⟩ := matched_effect inv matched
      obtain ⟨effect, _, _⟩ := submitOrder_shares clocked matched
      refine .inr ⟨attestedMs, submission, _, accepted, result, rfl, keeps, effect, ?_, ?_⟩
      · intro limit
        simp only [lockedAccepts, OrderBook.accepts, limit, Bool.and_eq_true,
          Bool.or_eq_true, decide_eq_true_eq] at guarded
        rcases guarded.2.1.1.2 with other | paid
        · simp at other
        · exact paid
      · have logged := settleTrades_log perp request.closePositionId request.args.leverage
          submission.trades (readEnclave perp.logged request enclave).2.1
          (readEnclave perp.logged request enclave).2.2
        rw [settles]
        exact logged.trans (by rw [unread])

/-- What an operation that submits an order leaves behind. -/
theorem apply_request {state : EngineState (σ × List EnclaveCall)} {op : EngineOp}
    {request : OrderRequest} {clock : StpClock} (submits : op.request = some (request, clock))
    : (state.apply perp.logged crypto op).engine
        = (submitOrderInner perp.logged crypto request clock state.engine state.enclave).engine
      ∧ (state.apply perp.logged crypto op).enclave
        = (submitOrderInner perp.logged crypto request clock state.engine
            state.enclave).enclave := by
  cases op with
  | submitOrder _ _ _ | submitCloseOrder _ _ _ _ _ _ _ =>
      obtain ⟨rfl, rfl⟩ := Prod.mk.inj (Option.some.inj submits)
      exact ⟨rfl, rfl⟩
  | cancelOrder _ | cancelAll _ => exact absurd submits (by simp [EngineOp.request])

/-- What an operation fills and calls: nothing, or the shares of the other users with both
legs of every fill.
-/
theorem step_fills {state : EngineState (σ × List EnclaveCall)}
    (inv : BookInv state.engine.book) {op : EngineOp} {request : OrderRequest}
    {clock : StpClock} (submits : op.request = some (request, clock))
    : ∃ context taker tradeId,
        state.trades perp crypto op
          = shareTrades context taker tradeId (state.makers perp request clock)
        ∧ state.calls perp crypto op
          = (state.trades perp crypto op).flatMap
              (settlementCalls request.closePositionId request.args.leverage)
        ∧ ∀ share ∈ state.makers perp request clock,
            state.engine.book.getOrder share.1.id = some share.1 := by
  have next := (@apply_request σ perp crypto state _ _ _ submits).2
  simp only [EngineState.trades, EngineState.calls, EngineState.makers, submits, next]
  rcases submitOrderInner_fills perp crypto inv request clock state.enclave with
    ⟨unaccepted, ⟨reason, refused⟩, _, quiet⟩
    | ⟨attestedMs, submission, result, accepted, resultEq, tradesEq, _, effect, _, logged⟩
  · refine ⟨state.engine.book.context, state.engine.book.newOrder request.args, 0, ?_⟩
    simp [unaccepted, refused, quiet, shareTrades, Except.toOption]
  · have traded := effect.trades
    refine ⟨(state.engine.book.setAttestedMs attestedMs).context,
      (state.engine.book.setAttestedMs attestedMs).newOrder request.args,
      state.engine.book.nextTradeId, ?_, ?_, ?_⟩
    · rw [if_pos accepted, resultEq]
      exact tradesEq.trans traded
    · rw [logged, List.drop_left, resultEq]
      simp [Except.toOption, tradesEq]
    · rw [if_pos accepted]
      intro share member
      have clocked : BookInv (state.engine.book.setAttestedMs attestedMs) :=
        inv.congr rfl rfl le_rfl
      exact (getOrder_eq_some_iff clocked).mpr
        ⟨effect.share_resting (List.mem_of_mem_filter member), rfl⟩

/-- The trades of shares, each with the maker it fills. -/
theorem shareTrades_legs (context : MatchContext) (taker : Order) (tradeId : Nat)
    (shares : List Share)
    : ∃ legs : List (Trade × Order),
        legs.map Prod.fst = shareTrades context taker tradeId shares
        ∧ ∀ leg ∈ legs, ∃ tradeId, ∃ share ∈ shares,
            leg = (shareTrade context taker tradeId share, share.1) := by
  induction shares generalizing tradeId with
  | nil => exact ⟨[], rfl, fun _ member => absurd member List.not_mem_nil⟩
  | cons share rest ih =>
      obtain ⟨legs, same, origins⟩ := ih (tradeId + 1)
      refine ⟨(shareTrade context taker tradeId share, share.1) :: legs, ?_, ?_⟩
      · simp [shareTrades, same]
      · intro leg member
        rcases List.mem_cons.mp member with rfl | later
        · exact ⟨tradeId, share, List.mem_cons_self, rfl⟩
        · obtain ⟨other, origin, found, isLeg⟩ := origins leg later
          exact ⟨other, origin, List.mem_cons_of_mem _ found, isLeg⟩

/-- Two lists of pairs of calls with the same first calls agree exactly if the second calls
do.
-/
theorem flatMap_pairs_iff {α β : Type} (first left right : α → β) (items : List α)
    : items.flatMap (fun item => [first item, left item])
        = items.flatMap (fun item => [first item, right item])
      ↔ ∀ item ∈ items, left item = right item := by
  induction items with
  | nil => simp
  | cons item rest ih => simp [ih]

/-- A leg is on the maker's own terms exactly if its leverage is the maker's. -/
theorem makerCall_own_iff {context : MatchContext} {taker : Order} {tradeId : Nat}
    {share : Share} {leverage : UInt32}
    : makerCall leverage (shareTrade context taker tradeId share)
        = ownTermsCall (shareTrade context taker tradeId share) share.1
      ↔ share.1.leverage = leverage := by
  simp [makerCall, ownTermsCall, shareTrade, eq_comm]

/-- One operation settles makers on their own terms exactly if the makers it fills share its
leverage.
-/
theorem makersOnOwnTerms_iff {state : EngineState (σ × List EnclaveCall)}
    (inv : BookInv state.engine.book) (op : EngineOp)
    : MakersOnOwnTerms perp crypto state op ↔ MakersShareLeverage perp state op := by
  constructor
  · intro own request clock submits share member
    obtain ⟨context, taker, tradeId, trades, calls, resting⟩ := step_fills perp crypto inv submits
    obtain ⟨legs, legTrades, makers, ownCalls⟩ := own request clock submits
    rw [calls, ← legTrades, List.flatMap_map] at ownCalls
    have pairwise := (flatMap_pairs_iff _ _ _ _).mp ownCalls
    obtain ⟨number, listed⟩ := @shareTrade_mem context taker tradeId _ _ member
    rw [← trades, ← legTrades] at listed
    obtain ⟨leg, found, isTrade⟩ := List.mem_map.mp listed
    have maker := makers leg found
    have isMaker : leg.2 = share.1 := by
      rw [isTrade] at maker
      exact Option.some.inj (maker.symm.trans (resting share member))
    have same := pairwise leg found
    rw [isTrade, isMaker] at same
    exact makerCall_own_iff.mp same
  · intro shared request clock submits
    obtain ⟨context, taker, tradeId, trades, calls, resting⟩ := step_fills perp crypto inv submits
    obtain ⟨legs, legTrades, origins⟩ := shareTrades_legs context taker tradeId
      (state.makers perp request clock)
    refine ⟨legs, legTrades.trans trades.symm, ?_, ?_⟩
    · intro leg member
      obtain ⟨number, share, found, rfl⟩ := origins leg member
      exact resting share found
    · rw [calls, trades, ← legTrades, List.flatMap_map]
      refine (flatMap_pairs_iff _ _ _ _).mpr (fun leg member => ?_)
      obtain ⟨number, share, found, rfl⟩ := origins leg member
      exact makerCall_own_iff.mpr (shared request clock submits share found)

-----------------------------------------------------------------------------------------
-- The margin demanded
-----------------------------------------------------------------------------------------

variable (gate : Int → Int → UInt32 → Int)

/-- The initial margin the enclave demands for a call, by its gate on size, price and
leverage.
-/
def callMargin : EnclaveCall → Int
  | .openPosition _ _ size price leverage =>
      (do
        let size ← (FP8.fromStr size).toOption
        let price ← (FP8.fromStr price).toOption
        return gate size.raw price.raw leverage).getD 0
  | .closePosition _ _ _ => 0

/-- The gate the reservation mirrors: notional over leverage, rounded to a raw unit either
way.
-/
structure GateMirrored : Prop where
  least
    : ∀ size price leverage, 0 ≤ size → 0 ≤ price → 0 < leverage.toNat
      → marginRaw size price leverage ≤ gate size price leverage
  most
    : ∀ size price leverage, 0 ≤ size → 0 ≤ price → 0 < leverage.toNat
      → gate size price leverage ≤ marginRaw size price leverage + 1

/-- The margin an operation demands for the maker legs of one resting order. -/
def EngineState.demand (orderId : Nat) (state : EngineState (σ × List EnclaveCall))
    (op : EngineOp) : Int :=
  match op.request with
  | none => 0
  | some (request, _) =>
      ((state.trades perp crypto op).map
        (fun trade =>
          if trade.makerOrderId = orderId then
            callMargin gate (makerCall request.args.leverage trade)
          else 0)).sum

/-- The number of fills of one resting order by an operation. -/
def EngineState.fillCount (orderId : Nat) (state : EngineState (σ × List EnclaveCall))
    (op : EngineOp) : Int :=
  ((state.trades perp crypto op).map
    (fun trade => if trade.makerOrderId = orderId then 1 else 0)).sum

theorem callMargin_makerCall (leverage : UInt32) (trade : Trade)
    : callMargin gate (makerCall leverage trade)
      = gate trade.size.raw trade.price.raw leverage := by
  simp [callMargin, makerCall, FP8.fromStr_display, Except.toOption]

/-- Splitting a quantity never raises the margin it needs. -/
theorem marginRaw_add_le {left right price : Int} {leverage : UInt32}
    (leveraged : 0 < leverage.toNat)
    : marginRaw left price leverage + marginRaw right price leverage
      ≤ marginRaw (left + right) price leverage := by
  have floors : ∀ {divisor : Int} (first second : Int), 0 < divisor
      → first / divisor + second / divisor ≤ (first + second) / divisor := by
    intro divisor first second positive
    rw [Int.le_ediv_iff_mul_le positive, add_mul]
    exact add_le_add (Int.ediv_mul_le first positive.ne') (Int.ediv_mul_le second positive.ne')
  have positive : (0 : Int) < leverage.toNat := by exact_mod_cast leveraged
  have notional : left * price / fp8Scale + right * price / fp8Scale
      ≤ (left + right) * price / fp8Scale := by
    rw [add_mul]
    exact floors _ _ (by decide)
  calc marginRaw left price leverage + marginRaw right price leverage
      ≤ (left * price / fp8Scale + right * price / fp8Scale) / leverage.toNat :=
        floors _ _ positive
    _ ≤ marginRaw (left + right) price leverage := Int.ediv_le_ediv positive notional

/-- The margin reserved for what rests under an id. -/
def reserveAt (book : OrderBook) (orderId : Nat) : Int :=
  (book.getOrder orderId).elim 0 Order.reserveRaw

/-- Whatever rests under a maker's id is that maker, reduced. -/
structure TracksMaker (maker : Order) (book : OrderBook) : Prop where
  inv : BookInv book
  issued : maker.id < book.nextOrderId
  terms
    : ∀ order, book.getOrder maker.id = some order
      → order.price = maker.price ∧ order.leverage = maker.leverage

/-- What an operation does to the order under an id: it leaves it, removes it, or takes a
share of it, which is a fill if the share is another user's.
-/
inductive StepAt (orderId : Nat) (state : EngineState (σ × List EnclaveCall)) (op : EngineOp)
    : Prop
  | quiet
    (kept
      : (state.apply perp.logged crypto op).engine.book.getOrder orderId
          = state.engine.book.getOrder orderId
        ∨ (state.apply perp.logged crypto op).engine.book.getOrder orderId = none)
    (demand : state.demand perp crypto gate orderId op = 0)
    (fills : state.fillCount perp crypto orderId op = 0)
  | taken {request : OrderRequest} {clock : StpClock} {share : Share}
    (submits : op.request = some (request, clock))
    (found : state.engine.book.getOrder orderId = some share.1)
    (positive : 0 < share.2) (within : share.2 ≤ share.1.openRaw)
    (left
      : (state.apply perp.logged crypto op).engine.book.getOrder orderId
        = shareLeft request.args.userId share)
    (settled
      : (state.demand perp crypto gate orderId op = 0
          ∧ state.fillCount perp crypto orderId op = 0)
        ∨ (share ∈ state.makers perp request clock
          ∧ state.demand perp crypto gate orderId op
            = gate share.2 share.1.price.raw request.args.leverage
          ∧ state.fillCount perp crypto orderId op = 1))

/-- An operation without trades demands nothing. -/
theorem untraded_step {state : EngineState (σ × List EnclaveCall)} {op : EngineOp}
    (untraded : state.trades perp crypto op = []) (orderId : Nat)
    : state.demand perp crypto gate orderId op = 0
      ∧ state.fillCount perp crypto orderId op = 0 := by
  constructor
  · rw [EngineState.demand, untraded]
    cases op.request <;> rfl
  · rw [EngineState.fillCount, untraded]
    rfl

/-- A cancellation leaves the order under an id or removes it. -/
theorem cancelled_step {state : EngineState (σ × List EnclaveCall)}
    (inv : BookInv state.engine.book) {op : EngineOp} (cancels : op.request = none)
    (orderId : Nat)
    : BookInv (state.apply perp.logged crypto op).engine.book
      ∧ state.engine.book.nextOrderId
        ≤ (state.apply perp.logged crypto op).engine.book.nextOrderId
      ∧ StepAt perp crypto gate orderId state op := by
  have untraded : state.trades perp crypto op = [] := by simp [EngineState.trades, cancels]
  obtain ⟨demand, fills⟩ := untraded_step perp crypto gate untraded orderId
  cases op with
  | submitOrder _ _ _ | submitCloseOrder _ _ _ _ _ _ _ => simp [EngineOp.request] at cancels
  | cancelOrder cancelledId =>
      refine ⟨inv.cancelOrder cancelledId, (cancelOrder_nextOrderId _ _).ge,
        .quiet ?_ demand fills⟩
      have outcome := cancelOrder_outcome inv cancelledId
      simp only [EngineState.apply]
      generalize state.engine.book.cancelOrder cancelledId = result at outcome ⊢
      cases outcome with
      | missing _ => exact Or.inl rfl
      | removed _ others _ =>
          rw [others]
          split_ifs
          · exact Or.inr rfl
          · exact Or.inl rfl
  | cancelAll userId =>
      refine ⟨inv.cancelAll userId, le_rfl, .quiet ?_ demand fills⟩
      simp only [EngineState.apply]
      rw [cancelAll_lookup inv]
      split_ifs
      · exact Or.inr rfl
      · exact Or.inl rfl

section Accepted

variable {state : EngineState (σ × List EnclaveCall)} {op : EngineOp} {request : OrderRequest}
  {clock : StpClock} {attestedMs : Nat} {submission : Submission} {next : OrderBook}

/-- What an accepted order demands under an id, and how often it fills it, are sums over the
shares it takes from other users.
-/
theorem accepted_sums (inv : BookInv state.engine.book)
    (submits : op.request = some (request, clock))
    (makers
      : state.makers perp request clock
        = foreignShares request.args.userId (sharesTaken state.engine.book request.args))
    (trades : state.trades perp crypto op = submission.trades)
    (effect
      : SubmitEffect (state.engine.book.setAttestedMs attestedMs) request.args submission next
          (sharesTaken state.engine.book request.args))
    (orderId : Nat)
    : state.demand perp crypto gate orderId op
        = ((state.makers perp request clock).map
            (fun share =>
              if share.1.id = orderId then
                gate share.2 share.1.price.raw request.args.leverage
              else 0)).sum
      ∧ state.fillCount perp crypto orderId op
        = ((state.makers perp request clock).map
            (fun share => if share.1.id = orderId then 1 else 0)).sum := by
  have clocked : BookInv (state.engine.book.setAttestedMs attestedMs) := inv.congr rfl rfl le_rfl
  constructor
  · simp only [EngineState.demand, submits, trades, makers]
    refine effect.sum_trades (fun number share member => ?_)
    have amount := effect.share_amount clocked member
    simp only [callMargin_makerCall, shareTrade, amount]
  · rw [EngineState.fillCount, trades, makers]
    exact effect.sum_trades (fun _ _ _ => rfl)

/-- An accepted order leaves the order under an id as it was or takes a share of it. -/
theorem accepted_step (inv : BookInv state.engine.book)
    (submits : op.request = some (request, clock))
    (makers
      : state.makers perp request clock
        = foreignShares request.args.userId (sharesTaken state.engine.book request.args))
    (trades : state.trades perp crypto op = submission.trades)
    (effect
      : SubmitEffect (state.engine.book.setAttestedMs attestedMs) request.args submission
          (state.apply perp.logged crypto op).engine.book
          (sharesTaken state.engine.book request.args))
    {orderId : Nat} (issued : orderId < state.engine.book.nextOrderId)
    : StepAt perp crypto gate orderId state op := by
  have clocked : BookInv (state.engine.book.setAttestedMs attestedMs) := inv.congr rfl rfl le_rfl
  obtain ⟨demand, fills⟩ := accepted_sums perp crypto gate inv submits makers trades effect orderId
  have unfilled : (∀ share ∈ state.makers perp request clock, share.1.id ≠ orderId)
      → state.demand perp crypto gate orderId op = 0
        ∧ state.fillCount perp crypto orderId op = 0 := by
    intro missing
    exact ⟨demand.trans (sum_at_none
        (fun share => gate share.2 share.1.price.raw request.args.leverage) missing),
      fills.trans (sum_at_none (fun _ => 1) missing)⟩
  have fresh : ¬ (persists submission.order = true
      ∧ orderId = (state.engine.book.setAttestedMs attestedMs).nextOrderId) :=
    fun both => issued.ne both.2
  cases shared : shareOf (sharesTaken state.engine.book request.args) orderId with
  | none =>
      have missing : ∀ share ∈ state.makers perp request clock, share.1.id ≠ orderId := by
        rw [makers]
        exact fun share member => shareOf_none shared share (List.mem_of_mem_filter member)
      obtain ⟨noDemand, noFills⟩ := unfilled missing
      refine .quiet (Or.inl ?_) noDemand noFills
      rw [effect.lookup, if_neg fresh, shared]
      rfl
  | some share =>
      obtain ⟨member, rfl⟩ := shareOf_some shared
      obtain ⟨positive, within⟩ := effect.share_bounds clocked member
      have found : state.engine.book.getOrder share.1.id = some share.1 :=
        (getOrder_eq_some_iff clocked).mpr ⟨effect.share_resting member, rfl⟩
      refine .taken submits found positive within (effect.lookup_share clocked member) ?_
      have distinct := effect.share_distinct clocked
      by_cases foreign : share ∈ state.makers perp request clock
      · have makersDistinct : ((state.makers perp request clock).map
            (fun share => share.1.id)).Nodup := by
          rw [makers]
          exact distinct.sublist (List.filter_sublist.map _)
        refine Or.inr ⟨foreign, demand.trans ?_, fills.trans ?_⟩
        · exact sum_at_share
            (fun share => gate share.2 share.1.price.raw request.args.leverage)
            makersDistinct foreign
        · exact sum_at_share (fun _ => 1) makersDistinct foreign
      · refine Or.inl (unfilled (fun other listed same => ?_))
        rw [makers] at listed foreign
        rw [List.inj_on_of_nodup_map distinct (List.mem_of_mem_filter listed) member same]
          at listed
        exact foreign listed

end Accepted

/-- The book after any operation is well formed, has issued no fewer ids, and each old id has
been stepped on.
-/
theorem step_at {state : EngineState (σ × List EnclaveCall)} (inv : BookInv state.engine.book)
    (op : EngineOp) {orderId : Nat} (issued : orderId < state.engine.book.nextOrderId)
    : BookInv (state.apply perp.logged crypto op).engine.book
      ∧ state.engine.book.nextOrderId
        ≤ (state.apply perp.logged crypto op).engine.book.nextOrderId
      ∧ StepAt perp crypto gate orderId state op := by
  cases submits : op.request with
  | none => exact cancelled_step perp crypto gate inv submits orderId
  | some submitted =>
      obtain ⟨request, clock⟩ := submitted
      obtain ⟨engineEq, _⟩ := @apply_request σ perp crypto state _ _ _ submits
      rcases submitOrderInner_fills perp crypto inv request clock state.enclave with
        ⟨_, ⟨reason, refused⟩, same, _⟩
        | ⟨attestedMs, submission, result, accepted, resultEq, tradesEq, keeps, effect, _, _⟩
      · have untraded : state.trades perp crypto op = [] := by
          simp [EngineState.trades, submits, refused, Except.toOption]
        obtain ⟨demand, fills⟩ := untraded_step perp crypto gate untraded orderId
        rw [← engineEq] at same
        exact ⟨same.inv inv, same.counter.ge, .quiet (Or.inl (same.getOrder orderId)) demand fills⟩
      · have trades : state.trades perp crypto op = submission.trades := by
          simp [EngineState.trades, submits, resultEq, Except.toOption, tradesEq]
        have makers : state.makers perp request clock
            = foreignShares request.args.userId (sharesTaken state.engine.book request.args) := by
          rw [EngineState.makers, if_pos accepted]
        rw [← engineEq] at keeps effect
        exact ⟨keeps, effect.counter ▸ Nat.le_succ _,
          accepted_step perp crypto gate inv submits makers trades effect issued⟩

theorem TracksMaker.step {maker : Order} {state : EngineState (σ × List EnclaveCall)}
    (tracks : TracksMaker maker state.engine.book) (op : EngineOp)
    : TracksMaker maker (state.apply perp.logged crypto op).engine.book := by
  obtain ⟨inv, grows, at_⟩ := step_at perp crypto marginRaw tracks.inv op tracks.issued
  refine ⟨inv, tracks.issued.trans_le grows, fun order found => ?_⟩
  cases at_ with
  | quiet kept _ _ =>
      rcases kept with same | gone
      · exact tracks.terms order (same.symm.trans found)
      · exact absurd (gone.symm.trans found) (by simp)
  | taken _ before _ _ left _ =>
      have terms := tracks.terms _ before
      rw [shareLeft_terms (left.symm.trans found)]
      exact terms

/-- What is reserved under an id is not negative while the maker's price is not. -/
theorem TracksMaker.reserve_nonneg {maker : Order} {book : OrderBook}
    (tracks : TracksMaker maker book) (paid : 0 ≤ maker.price.raw)
    : 0 ≤ reserveAt book maker.id := by
  rw [reserveAt]
  cases found : book.getOrder maker.id with
  | none => exact le_rfl
  | some order =>
      obtain ⟨member, _⟩ := (getOrder_eq_some_iff tracks.inv).mp found
      obtain ⟨side, listed⟩ := mem_restingOrders.mp member
      have unfilled := (tracks.inv.levels side).unfilled order listed
      have price := (tracks.terms order found).1
      exact marginRaw_nonneg _ unfilled.open_pos.le (price ▸ paid)

/-- A step that shares the maker's leverage demands no more margin than it releases from the
reservation, plus one unit for the fill.
-/
theorem TracksMaker.pays {maker : Order} {state : EngineState (σ × List EnclaveCall)}
    (tracks : TracksMaker maker state.engine.book) (mirrored : GateMirrored gate)
    (paid : 0 ≤ maker.price.raw) (leveraged : 0 < maker.leverage.toNat) {op : EngineOp}
    (shared : MakersShareLeverage perp state op)
    : state.demand perp crypto gate maker.id op
        + reserveAt (state.apply perp.logged crypto op).engine.book maker.id
      ≤ reserveAt state.engine.book maker.id + state.fillCount perp crypto maker.id op := by
  obtain ⟨_, _, at_⟩ := step_at perp crypto gate tracks.inv op tracks.issued
  have nonneg := tracks.reserve_nonneg paid
  cases at_ with
  | quiet kept demand fills =>
      rw [demand, fills]
      rcases kept with same | gone
      · rw [reserveAt, same, ← reserveAt]
        omega
      · rw [reserveAt, gone]
        simpa using nonneg
  | @taken request clock share submits found positive within left settled =>
      obtain ⟨price, leverage⟩ := tracks.terms _ found
      obtain ⟨member, _⟩ := (getOrder_eq_some_iff tracks.inv).mp found
      obtain ⟨side, listed⟩ := mem_restingOrders.mp member
      have unfilled := (tracks.inv.levels side).unfilled share.1 listed
      have before : reserveAt state.engine.book maker.id
          = marginRaw share.1.openRaw maker.price.raw maker.leverage := by
        rw [reserveAt, found, ← price, ← leverage]
        rfl
      have after : reserveAt (state.apply perp.logged crypto op).engine.book maker.id
          = marginRaw (share.1.openRaw - share.2) maker.price.raw maker.leverage := by
        rw [reserveAt, left]
        cases rest : shareLeft request.args.userId share with
        | none => simp [shareLeft_eq_none rest, marginRaw]
        | some order =>
            have openEq := (shareLeft_open unfilled positive within rest).2
            rw [Option.elim_some, Order.reserveRaw, openEq, shareLeft_terms rest]
            simp only [price, leverage]
      have split := @marginRaw_add_le share.2 (share.1.openRaw - share.2) maker.price.raw
        maker.leverage leveraged
      have least := @marginRaw_nonneg share.2 maker.price.raw maker.leverage positive.le paid
      rw [add_sub_cancel] at split
      rw [before, after]
      rcases settled with ⟨demand, fills⟩ | ⟨foreign, demand, fills⟩
      · rw [demand, fills]
        omega
      · have bound := mirrored.most share.2 maker.price.raw maker.leverage positive.le paid
          leveraged
        rw [demand, fills, price, ← shared request clock submits share foreign, leverage]
        omega

-----------------------------------------------------------------------------------------
-- Runs
-----------------------------------------------------------------------------------------

/-- The books a run of the engine passes through: well formed, with positive prices. -/
structure EngineBook (book : OrderBook) : Prop where
  inv : BookInv book
  paid : ∀ order ∈ book.restingOrders, 0 < order.price.raw

theorem EngineBook.step {state : EngineState (σ × List EnclaveCall)}
    (valid : EngineBook state.engine.book) (op : EngineOp)
    : EngineBook (state.apply perp.logged crypto op).engine.book := by
  have thinned : ∀ {next : OrderBook}, BookThins state.engine.book next
      → ∀ order ∈ next.restingOrders, 0 < order.price.raw := by
    intro next thins order member
    obtain ⟨old, present, reduced⟩ := thins.restingOrders member
    rw [reduced.price_eq]
    exact valid.paid old present
  cases submits : op.request with
  | none =>
      cases op with
      | submitOrder _ _ _ | submitCloseOrder _ _ _ _ _ _ _ => simp [EngineOp.request] at submits
      | cancelOrder orderId =>
          exact ⟨valid.inv.cancelOrder orderId, thinned (cancelOrder_thins valid.inv orderId).2⟩
      | cancelAll userId =>
          exact ⟨valid.inv.cancelAll userId, thinned (cancelAll_thins valid.inv userId).2⟩
  | some submitted =>
      obtain ⟨request, clock⟩ := submitted
      rw [(@apply_request σ perp crypto state _ _ _ submits).1]
      rcases submitOrderInner_fills perp crypto valid.inv request clock state.enclave with
        ⟨_, _, same, _⟩ | ⟨attestedMs, submission, _, _, _, _, keeps, effect, priced, _⟩
      · refine ⟨same.inv valid.inv, fun order member => ?_⟩
        rw [same.restingOrders] at member
        exact valid.paid order member
      · refine ⟨keeps, fun order member => ?_⟩
        have found := (getOrder_eq_some_iff keeps).mpr ⟨member, rfl⟩
        rw [effect.lookup] at found
        split_ifs at found with own
        · -- the order that came to rest is a limit order
          rw [← Option.some.inj found, effect.terms]
          have resting := effect.resting own.1
          simp only [restsAfter, Bool.and_eq_true, decide_eq_true_eq] at resting
          exact priced resting.1.1
        · cases shared : shareOf (sharesTaken state.engine.book request.args) order.id with
          | none =>
              rw [shared] at found
              exact valid.paid order (List.mem_of_find?_eq_some found)
          | some share =>
              rw [shared] at found
              rw [shareLeft_terms found]
              exact valid.paid share.1 (effect.share_resting (shareOf_some shared).1)

/-- From a moment at which a maker rests with reserved margin, the margin demanded for its fills
stays within one raw unit a fill of what it has reserved, if fills share its leverage.
-/
theorem EngineBook.demand_le {state : EngineState (σ × List EnclaveCall)}
    (valid : EngineBook state.engine.book) (mirrored : GateMirrored gate) {maker : Order}
    (member : maker ∈ state.engine.book.restingOrders)
    (reserves : reservesMargin maker.userId maker = true)
    (fits : I64Range (maker.openRaw * maker.price.raw / fp8Scale)) {after : List EngineOp}
    (shared
      : Along (EngineState.apply perp.logged crypto) (MakersShareLeverage perp) state after)
    : sumAlong (EngineState.apply perp.logged crypto)
          (EngineState.demand perp crypto gate maker.id) state after
      ≤ (orderMargin maker).raw
        + sumAlong (EngineState.apply perp.logged crypto)
            (EngineState.fillCount perp crypto maker.id) state after := by
  have found := (getOrder_eq_some_iff valid.inv).mpr ⟨member, rfl⟩
  have paid := (valid.paid maker member).le
  simp only [reservesMargin, Bool.and_eq_true, decide_eq_true_eq] at reserves
  have tracks : TracksMaker maker state.engine.book := by
    refine ⟨valid.inv, valid.inv.issued maker member, fun order same => ?_⟩
    rw [Option.some.inj (same.symm.trans found)]
    exact ⟨rfl, rfl⟩
  obtain ⟨side, listed⟩ := mem_restingOrders.mp member
  have priced : maker.Priced := ⟨(valid.inv.levels side).unfilled maker listed, paid, fits⟩
  have bound := @sumAlong_le _ _ _ _
    (fun state : EngineState (σ × List EnclaveCall) => TracksMaker maker state.engine.book)
    _ _ (fun state => reserveAt state.engine.book maker.id)
    (fun _ op tracks => tracks.step perp crypto op)
    (fun _ tracks => tracks.reserve_nonneg paid)
    (fun _ _ tracks sharing => tracks.pays perp crypto gate mirrored paid reserves.2 sharing)
    _ _ shared tracks
  have reserved : reserveAt state.engine.book maker.id = maker.reserveRaw := by
    rw [reserveAt, found]
    rfl
  rw [priced.margin, ← reserved]
  exact bound

/-- Makers are margined on their own terms along a run exactly if every order that fills them
has their leverage. In such a run the margin demanded for the fills of a maker that reserves
margin stays within one raw unit a fill of what it had reserved, from any moment it rests.
-/
theorem makers_margined_on_own_terms (mirrored : GateMirrored gate) (market peerId : String)
    (publishes : Bool) (enclave : σ × List EnclaveCall) (ops : List EngineOp)
    : (Along (EngineState.apply perp.logged crypto) (MakersOnOwnTerms perp crypto)
          ⟨TradingEngine.new market peerId publishes, enclave⟩ ops
        ↔ Along (EngineState.apply perp.logged crypto) (MakersShareLeverage perp)
            ⟨TradingEngine.new market peerId publishes, enclave⟩ ops)
      ∧ (Along (EngineState.apply perp.logged crypto) (MakersShareLeverage perp)
            ⟨TradingEngine.new market peerId publishes, enclave⟩ ops
        → ∀ before after maker,
            ops = before ++ after
            → maker
                ∈ (EngineState.run perp.logged crypto
                    ⟨TradingEngine.new market peerId publishes, enclave⟩
                    before).engine.book.restingOrders
            → reservesMargin maker.userId maker = true
            → I64Range (maker.openRaw * maker.price.raw / fp8Scale)
            → sumAlong (EngineState.apply perp.logged crypto)
                  (EngineState.demand perp crypto gate maker.id)
                  (EngineState.run perp.logged crypto
                    ⟨TradingEngine.new market peerId publishes, enclave⟩ before) after
                ≤ (orderMargin maker).raw
                  + sumAlong (EngineState.apply perp.logged crypto)
                      (EngineState.fillCount perp crypto maker.id)
                      (EngineState.run perp.logged crypto
                        ⟨TradingEngine.new market peerId publishes, enclave⟩ before) after) := by
  have initial : EngineBook (TradingEngine.new market peerId publishes).book :=
    ⟨BookInv.new market, fun _ member => absurd member List.not_mem_nil⟩
  refine ⟨?_, ?_⟩
  · exact @Along.congr _ _ _ _ _ (fun state : EngineState (σ × List EnclaveCall) =>
      EngineBook state.engine.book) (fun _ op valid => valid.step perp crypto op)
      (fun _ op valid => makersOnOwnTerms_iff perp crypto valid.inv op) _ initial ops
  · intro shared before after maker split member reserves fits
    rw [split] at shared
    have later := (Along.append_iff.mp shared).2
    have valid : EngineBook (EngineState.run perp.logged crypto
        ⟨TradingEngine.new market peerId publishes, enclave⟩ before).engine.book :=
      run_invariant (fun state : EngineState (σ × List EnclaveCall) =>
        EngineBook state.engine.book) (fun _ op valid => valid.step perp crypto op) initial before
    exact valid.demand_le perp crypto gate mirrored member reserves fits later

end Engine

theorem marginRaw_mirrored : GateMirrored marginRaw where
  least := fun _ _ _ _ _ _ => le_rfl
  most := fun _ _ _ _ _ _ => by omega

/-- The state in which a sample run starts: the enclave grants every call. -/
def sampleStart : EngineState (Unit × List EnclaveCall) :=
  ⟨TradingEngine.new "XRP-USD-PERP" "" false, (), []⟩

/-- One unit is offered with a leverage and bought with leverage one. -/
def sellThenBuy (leverage : UInt32) : List EngineOp :=
  [.submitOrder (.clientSigned sellOneBinding)
      { unitOrder makerAddress .short with leverage } ⟨0, 0⟩,
    .submitOrder (.clientSigned buyOneBinding) (unitOrder takerAddress .long) ⟨0, 0⟩]

/-- Offered with leverage one too, the maker's leg is on its own terms. -/
theorem makers_margined_on_own_terms_unit
    : GateMirrored marginRaw
      ∧ Along (EngineState.apply (grantingPerp "1.0" []).logged sampleCrypto)
          (MakersOnOwnTerms (grantingPerp "1.0" []) sampleCrypto) sampleStart (sellThenBuy 1) := by
  refine ⟨marginRaw_mirrored, ?_⟩
  refine (makers_margined_on_own_terms (grantingPerp "1.0" []) sampleCrypto marginRaw
    marginRaw_mirrored "XRP-USD-PERP" "" false ((), []) (sellThenBuy 1)).1.mpr ⟨?_, ?_, trivial⟩
  · intro request clock submits
    obtain ⟨rfl, rfl⟩ := Prod.mk.inj (Option.some.inj submits)
    decide +kernel
  · intro request clock submits
    obtain ⟨rfl, rfl⟩ := Prod.mk.inj (Option.some.inj submits)
    decide +kernel

/-- Offered with leverage twenty, the unit reserves a twentieth of its price. The buyer's
leverage one is used for the maker's leg, which demands the whole price as margin.
-/
theorem maker_margined_on_takers_leverage
    : ((EngineState.run (grantingPerp "1.0" []).logged sampleCrypto sampleStart
          ((sellThenBuy 20).take 1)).engine.book.userReservedMargin makerAddress).raw
        = 5_000_000
      ∧ sumAlong (EngineState.apply (grantingPerp "1.0" []).logged sampleCrypto)
          (EngineState.demand (grantingPerp "1.0" []) sampleCrypto marginRaw 1) sampleStart
          (sellThenBuy 20)
        = 100_000_000
      ∧ sumAlong (EngineState.apply (grantingPerp "1.0" []).logged sampleCrypto)
          (EngineState.fillCount (grantingPerp "1.0" []) sampleCrypto 1) sampleStart
          (sellThenBuy 20)
        = 1
      ∧ ¬ Along (EngineState.apply (grantingPerp "1.0" []).logged sampleCrypto)
            (MakersOnOwnTerms (grantingPerp "1.0" []) sampleCrypto) sampleStart
            (sellThenBuy 20) := by
  refine ⟨by decide +kernel, by decide +kernel, by decide +kernel, fun own => ?_⟩
  have initial : EngineBook sampleStart.engine.book :=
    ⟨BookInv.new _, fun _ member => absurd member List.not_mem_nil⟩
  have shared := (makersOnOwnTerms_iff _ _ (initial.step _ _ _).inv _).mp own.2.1
  have equal := shared _ _ rfl
  revert equal
  decide +kernel

end PerpDex
