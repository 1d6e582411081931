import PerpDex.OrderBook.Effects
import PerpDex.Trading.Engine

/-! What a submission to the engine can do.
The guards before matching are a predicate on the request and the state before it; an order
that fails them leaves the resting orders alone, one that passes them is matched.
-/

namespace PerpDex

open OrderBook

/-- The pre-checks of `submit_order` on the book. -/
def OrderBook.accepts (book : OrderBook) (args : SubmitArgs) (clock : StpClock) : Bool :=
  0 < args.size.raw && (args.orderType ≠ .limit || 0 < args.price.raw)
  && (book.stpRate.peekAt args.userId clock.peek).1 && book.attestedMs ≠ 0

/-- The margin check under the lock. -/
def coversMargin (available : FP8) (args : SubmitArgs) (book : OrderBook) : Bool :=
  args.leverage.toNat ≠ 0
  && (requiredMargin args).raw ≤ (available.sub (book.userReservedMargin args.userId)).raw

/-- All guards of the section under the lock. -/
def lockedAccepts (available : Option FP8) (attestedMs : Nat) (args : SubmitArgs)
    (clock : StpClock) (book : OrderBook) : Bool :=
  available.all (fun available => coversMargin available args book)
  && (book.setAttestedMs attestedMs).accepts args clock

/-- All guards of the engine, on the request and the state before it. -/
def engineAccepts {σ : Type} (perp : PerpClient σ) (request : OrderRequest) (clock : StpClock)
    (engine : TradingEngine) (enclave : σ) : Bool :=
  match (readEnclave perp request enclave).1 with
  | .ok (available, attestedMs) =>
      lockedAccepts available attestedMs request.args clock engine.book
  | .error _ => false

/-- The book succeeds exactly on the orders it accepts. -/
theorem submitOrder_ok_iff (book : OrderBook) (args : SubmitArgs) (clock : StpClock)
    : (∃ submission, (book.submitOrder args clock).1 = .ok submission)
      ↔ book.accepts args clock = true := by
  simp only [OrderBook.submitOrder, OrderBook.accepts]
  split_ifs with empty unpriced refused paused killed
  · simp [empty]
  · simp [unpriced.1, unpriced.2]
  · have peeked : (book.stpRate.peekAt args.userId clock.peek).1 = false := by simpa using refused
    simp [peeked]
  · have clockless : book.attestedMs = 0 := paused
    simp [clockless]
  all_goals
    have peeked : (book.stpRate.peekAt args.userId clock.peek).1 = true := by simpa using refused
    have live : book.attestedMs ≠ 0 := paused
    have priced : args.orderType ≠ .limit ∨ 0 < args.price.raw := by
      rcases not_and_or.mp unpriced with market | paid
      · exact Or.inl market
      · exact Or.inr (not_le.mp paid)
    simpa [not_le.mp empty, peeked, live] using priced

-----------------------------------------------------------------------------------------
-- The section under the lock
-----------------------------------------------------------------------------------------

/-- Two books that differ in the clock and the rate limiter only. -/
structure SameOrders (book other : OrderBook) : Prop where
  market : other.market = book.market
  bids : other.bids = book.bids
  asks : other.asks = book.asks
  counter : other.nextOrderId = book.nextOrderId

theorem SameOrders.restingOrders {book other : OrderBook} (same : SameOrders book other)
    : other.restingOrders = book.restingOrders := by
  rw [OrderBook.restingOrders, OrderBook.restingOrders, same.bids, same.asks]

theorem SameOrders.getOrder {book other : OrderBook} (same : SameOrders book other)
    (orderId : Nat)
    : other.getOrder orderId = book.getOrder orderId := by
  rw [OrderBook.getOrder, OrderBook.getOrder, same.restingOrders]

theorem SameOrders.inv {book other : OrderBook} (same : SameOrders book other)
    (inv : BookInv book)
    : BookInv other :=
  inv.congr same.bids same.asks same.counter.ge

/-- Everything the locked section can do: refuse with the resting orders as they were, or
pass the guards and match.
-/
inductive LockedOutcome (available : Option FP8) (attestedMs : Nat) (args : SubmitArgs)
    (clock : StpClock) (book : OrderBook) : Except String Submission × OrderBook → Prop
  | refused (reason : String) {next : OrderBook} (same : SameOrders book next)
    : LockedOutcome available attestedMs args clock book (.error reason, next)
  | matched {submission : Submission} {next : OrderBook} {shares : List Share}
    (accepted : lockedAccepts available attestedMs args clock book = true)
    (inv : BookInv next)
    (effect : SubmitEffect (book.setAttestedMs attestedMs) args submission next shares)
    : LockedOutcome available attestedMs args clock book (.ok submission, next)

/-- Once margin is covered, the outcome is that of the book. -/
theorem submitOrder_locked {book : OrderBook} (inv : BookInv book) {available : Option FP8}
    (attestedMs : Nat) (args : SubmitArgs) (clock : StpClock)
    (margin : available.all (fun available => coversMargin available args book) = true)
    : LockedOutcome available attestedMs args clock book
        ((book.setAttestedMs attestedMs).submitOrder args clock) := by
  have clocked : BookInv (book.setAttestedMs attestedMs) := inv.congr rfl rfl le_rfl
  have keeps := clocked.submitOrder args clock
  rcases submitOrder_effect clocked args clock with
    ⟨reason, stpRate, refused⟩ | ⟨submission, next, shares, matched, effect⟩
  · rw [refused]
    exact .refused reason ⟨rfl, rfl, rfl, rfl⟩
  · have accepted := (submitOrder_ok_iff (book.setAttestedMs attestedMs) args clock).mp
      ⟨submission, by rw [matched]⟩
    rw [matched] at keeps ⊢
    refine .matched ?_ keeps effect
    rw [lockedAccepts, margin, accepted]
    rfl

theorem lockedSubmit_outcome {book : OrderBook} (inv : BookInv book) (available : Option FP8)
    (attestedMs : Nat) (args : SubmitArgs) (clock : StpClock)
    : LockedOutcome available attestedMs args clock book
        (lockedSubmit available attestedMs args clock book) := by
  cases available with
  | none => exact submitOrder_locked inv attestedMs args clock rfl
  | some available =>
      have same : SameOrders book (book.setAttestedMs attestedMs) := ⟨rfl, rfl, rfl, rfl⟩
      simp only [lockedSubmit]
      split_ifs with zero short
      · exact .refused _ same
      · exact .refused _ same
      · refine submitOrder_locked inv attestedMs args clock ?_
        have covered : (requiredMargin args).raw
            ≤ (available.sub (book.userReservedMargin args.userId)).raw := not_lt.mp short
        simp [coversMargin, zero, covered]

/-- The locked section succeeds exactly on the orders it accepts. -/
theorem lockedSubmit_ok_iff (available : Option FP8) (attestedMs : Nat) (args : SubmitArgs)
    (clock : StpClock) (book : OrderBook)
    : (∃ submission, (lockedSubmit available attestedMs args clock book).1 = .ok submission)
      ↔ lockedAccepts available attestedMs args clock book = true := by
  have inner := submitOrder_ok_iff (book.setAttestedMs attestedMs) args clock
  cases available with
  | none => simpa [lockedSubmit, lockedAccepts] using inner
  | some available =>
      simp only [lockedSubmit, lockedAccepts, Option.all_some, Bool.and_eq_true]
      have reserved : (book.setAttestedMs attestedMs).userReservedMargin args.userId
          = book.userReservedMargin args.userId := rfl
      rw [reserved]
      split_ifs with zero short
      · simp [coversMargin, zero]
      · simp [coversMargin, short]
      · have covered := not_lt.mp short
        simpa [coversMargin, zero, covered] using inner

/-- Once the section under the lock succeeds, its result is that of the book. -/
theorem lockedSubmit_ok {available : Option FP8} {attestedMs : Nat} {args : SubmitArgs}
    {clock : StpClock} {book next : OrderBook} {submission : Submission}
    (locked : lockedSubmit available attestedMs args clock book = (.ok submission, next))
    : (book.setAttestedMs attestedMs).submitOrder args clock = (.ok submission, next) := by
  cases available with
  | none => exact locked
  | some available =>
      simp only [lockedSubmit] at locked
      split_ifs at locked
      · exact absurd (Prod.mk.inj locked).1 (by simp)
      · exact absurd (Prod.mk.inj locked).1 (by simp)
      · exact locked

/-- An order that the book matched under the attested time keeps the invariant and took
shares.
-/
theorem matched_effect {book next : OrderBook} (inv : BookInv book) {attestedMs : Nat}
    {args : SubmitArgs} {clock : StpClock} {submission : Submission}
    (matched : (book.setAttestedMs attestedMs).submitOrder args clock = (.ok submission, next))
    : ∃ shares, BookInv next
      ∧ SubmitEffect (book.setAttestedMs attestedMs) args submission next shares := by
  have clocked : BookInv (book.setAttestedMs attestedMs) := inv.congr rfl rfl le_rfl
  have keeps := clocked.submitOrder args clock
  rw [matched] at keeps
  rcases submitOrder_effect clocked args clock with
    ⟨reason, stpRate, refused⟩ | ⟨other, after, shares, same, effect⟩
  · rw [matched] at refused
    cases refused
  · rw [matched] at same
    cases same
    exact ⟨shares, keeps, effect⟩

/-- Both legs of a fill, as the settlement loop calls them. -/
def settlementCalls (closePositionId : Option UInt32) (leverage : UInt32) (trade : Trade)
    : List EnclaveCall :=
  [takerCall closePositionId leverage trade, makerCall leverage trade]

section Engine

variable {σ : Type} (perp : PerpClient σ) (crypto : Crypto)

/-- Settlement does not touch the book, and reports the submission. -/
theorem settleAndPublish_report (request : OrderRequest) (attestedMs : Nat)
    (engine : TradingEngine) (enclave : σ) (submission : Submission)
    : (settleAndPublish perp crypto request attestedMs engine enclave submission).engine.book
        = engine.book
      ∧ ∃ failedFills,
          (settleAndPublish perp crypto request attestedMs engine enclave submission).result
          = .ok
              ⟨{ submission.order with closePositionId := request.closePositionId },
                submission.trades, failedFills, submission.stpCancelled⟩ := by
  simp only [settleAndPublish]
  split_ifs
  · exact ⟨rfl, _, rfl⟩
  · exact ⟨rfl, _, rfl⟩
  · exact ⟨rfl, _, rfl⟩

/-- Everything a submission to the engine can do: refuse, with the resting orders as they were
and the enclave only read, or pass all guards, match under the attested time it read, and
settle the trades.
-/
inductive EngineOutcome (request : OrderRequest) (clock : StpClock) (engine : TradingEngine)
    (enclave : σ) (response : Submitted σ) : Prop
  | refused (reason : String)
    (unaccepted : engineAccepts perp request clock engine enclave = false)
    (result : response.result = .error reason)
    (same : SameOrders engine.book response.engine.book)
    (unsettled : response.enclave = (readEnclave perp request enclave).2)
  | settled (available : Option FP8) (attestedMs : Nat) (submission : Submission)
    (failedFills : List FailedFill)
    (owner : checkOwner request = .ok ())
    (accepted : engineAccepts perp request clock engine enclave = true)
    (guarded : lockedAccepts available attestedMs request.args clock engine.book = true)
    (matched
      : (engine.book.setAttestedMs attestedMs).submitOrder request.args clock
        = (.ok submission, response.engine.book))
    (result
      : response.result
        = .ok
            ⟨{ submission.order with closePositionId := request.closePositionId },
              submission.trades, failedFills, submission.stpCancelled⟩)
    (settles
      : response.enclave
        = (settleTrades perp request.closePositionId request.args.leverage submission.trades
            (readEnclave perp request enclave).2).2)

/-- An order that gets past the reading of the enclave belongs to its signer. -/
theorem checkOwner_of_read {request : OrderRequest} {enclave : σ} {value : Option FP8 × Nat}
    (admitted : (readEnclave perp request enclave).1 = .ok value)
    : checkOwner request = .ok () := by
  simp only [readEnclave] at admitted
  cases gate : checkOwner request with
  | error reason => simp [gate] at admitted
  | ok _ => rfl

/-- Settlement leaves the enclave after both calls of every fill, if there are any. -/
theorem settleAndPublish_enclave (request : OrderRequest) (attestedMs : Nat)
    (engine : TradingEngine) (enclave : σ) (submission : Submission)
    : (settleAndPublish perp crypto request attestedMs engine enclave submission).enclave
      = (settleTrades perp request.closePositionId request.args.leverage submission.trades
          enclave).2 := by
  simp only [settleAndPublish]
  split_ifs with untraded
  · rw [untraded]
    rfl
  · rfl
  · rfl

/-- The one case analysis of the engine that every other fact about its outcome rests on. -/
theorem submitOrderInner_cases {engine : TradingEngine} (inv : BookInv engine.book)
    (request : OrderRequest) (clock : StpClock) (enclave : σ)
    : EngineOutcome perp request clock engine enclave
        (submitOrderInner perp crypto request clock engine enclave) := by
  cases admitted : (readEnclave perp request enclave).1 with
  | error reason =>
      have unaccepted : engineAccepts perp request clock engine enclave = false := by
        simp only [engineAccepts, admitted]
      simp only [submitOrderInner, admitted]
      exact .refused reason unaccepted rfl ⟨rfl, rfl, rfl, rfl⟩ rfl
  | ok read =>
      obtain ⟨available, attestedMs⟩ := read
      have accepting : engineAccepts perp request clock engine enclave
          = lockedAccepts available attestedMs request.args clock engine.book := by
        simp only [engineAccepts, admitted]
      have outcome := lockedSubmit_outcome inv available attestedMs request.args clock
      have accepts := lockedSubmit_ok_iff available attestedMs request.args clock engine.book
      cases locked : lockedSubmit available attestedMs request.args clock engine.book with
      | mk result next =>
          rw [locked] at outcome accepts
          cases outcome with
          | refused reason same =>
              have unaccepted : lockedAccepts available attestedMs request.args clock
                  engine.book = false := by
                rw [Bool.eq_false_iff]
                intro accepted
                obtain ⟨submission, impossible⟩ := accepts.mpr accepted
                cases impossible
              simp only [submitOrderInner, admitted, locked]
              exact .refused reason (accepting.trans unaccepted) rfl same rfl
          | @matched submission _ _ accepted _ _ =>
              have matched := lockedSubmit_ok locked
              have settled := settleAndPublish_report perp crypto request attestedMs
                { engine with book := next } (readEnclave perp request enclave).2 submission
              obtain ⟨bookEq, failedFills, resultEq⟩ := settled
              simp only [submitOrderInner, admitted, locked]
              refine .settled available attestedMs submission failedFills
                (checkOwner_of_read perp admitted) (accepting.trans accepted) accepted ?_ resultEq
                (settleAndPublish_enclave perp crypto request attestedMs _ _ submission)
              rw [bookEq]
              exact matched

/-- Everything the engine can do to the book: refuse with the resting orders as they were,
or pass its guards and match under the attested time it read.
-/
theorem submitOrderInner_outcome {engine : TradingEngine} (inv : BookInv engine.book)
    (request : OrderRequest) (clock : StpClock) (enclave : σ)
    : (∃ reason,
        (submitOrderInner perp crypto request clock engine enclave).result = .error reason
        ∧ SameOrders engine.book
            (submitOrderInner perp crypto request clock engine enclave).engine.book)
      ∨ ∃ attestedMs submission shares failedFills,
          (submitOrderInner perp crypto request clock engine enclave).result
            = .ok
                ⟨{ submission.order with closePositionId := request.closePositionId },
                  submission.trades, failedFills, submission.stpCancelled⟩
          ∧ checkOwner request = .ok ()
          ∧ engineAccepts perp request clock engine enclave = true
          ∧ BookInv (submitOrderInner perp crypto request clock engine enclave).engine.book
          ∧ SubmitEffect (engine.book.setAttestedMs attestedMs) request.args submission
              (submitOrderInner perp crypto request clock engine enclave).engine.book
              shares := by
  cases submitOrderInner_cases perp crypto inv request clock enclave with
  | refused reason _ result same _ => exact .inl ⟨reason, result, same⟩
  | settled _ attestedMs submission failedFills owner accepted _ matched result _ =>
      obtain ⟨shares, keeps, effect⟩ := matched_effect inv matched
      exact .inr ⟨attestedMs, submission, shares, failedFills, result, owner, accepted, keeps,
        effect⟩

/-- Everything the engine can do to the enclave: read it, and settle the trades of an order
it accepts.
-/
theorem submitOrderInner_settles {engine : TradingEngine} (inv : BookInv engine.book)
    (request : OrderRequest) (clock : StpClock) (enclave : σ)
    : (engineAccepts perp request clock engine enclave = false
        ∧ (submitOrderInner perp crypto request clock engine enclave).enclave
          = (readEnclave perp request enclave).2)
      ∨ ∃ attestedMs submission next shares,
          engineAccepts perp request clock engine enclave = true
          ∧ SubmitEffect (engine.book.setAttestedMs attestedMs) request.args submission next
              shares
          ∧ (submitOrderInner perp crypto request clock engine enclave).enclave
            = (settleTrades perp request.closePositionId request.args.leverage
                submission.trades (readEnclave perp request enclave).2).2 := by
  cases submitOrderInner_cases perp crypto inv request clock enclave with
  | refused _ unaccepted _ _ unsettled => exact .inl ⟨unaccepted, unsettled⟩
  | settled _ attestedMs submission _ _ accepted _ matched _ settles =>
      obtain ⟨shares, _, effect⟩ := matched_effect inv matched
      exact .inr ⟨attestedMs, submission, _, shares, accepted, effect, settles⟩

/-- The settlement loop makes both calls of every fill, whatever the replies are. -/
theorem settleTrades_log (closePositionId : Option UInt32) (leverage : UInt32)
    (trades : List Trade) (enclave : σ) (log : List EnclaveCall)
    : (settleTrades perp.logged closePositionId leverage trades (enclave, log)).2.2
      = log ++ trades.flatMap (settlementCalls closePositionId leverage) := by
  induction trades generalizing enclave log with
  | nil => simp [settleTrades]
  | cons trade rest ih =>
      simp only [settleTrades, PerpClient.logged]
      rw [List.flatMap_cons]
      refine (ih _ _).trans ?_
      simp [settlementCalls]

/-- Reading the balance and the clock is not a call. -/
theorem readEnclave_log (request : OrderRequest) (enclave : σ) (log : List EnclaveCall)
    : (readEnclave perp.logged request (enclave, log)).2.2 = log := by
  simp only [readEnclave]
  cases checkOwner request with
  | error reason => rfl
  | ok _ =>
      simp only [fetchAvailable]
      cases request.closePositionId with
      | some _ => rfl
      | none =>
          simp only [PerpClient.logged]
          cases readAvailable (perp.getBalance request.args.userId enclave).1 with
          | error reason => rfl
          | ok available => rfl

end Engine

end PerpDex
