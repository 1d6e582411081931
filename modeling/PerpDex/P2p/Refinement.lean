import PerpDex.OrderBook.Failover
import PerpDex.P2p.Validator
import PerpDex.Trading.Outcome

/-! Replay against execution.
The sequencer's calls for an order and the calls a validator derives from its batch agree
for opening orders whose signed body still describes the published message; self-trade
prevention changes the published size, and a close is replayed as an open if at all.
-/

namespace PerpDex

open OrderBook

section Sequencer

variable {σ : Type} (perp : PerpClient σ) (crypto : Crypto)

/-- What a submission that publishes a batch has done. -/
structure Publishes (request : OrderRequest) (engine : TradingEngine) (batch : OrderBatch)
    (calls : List EnclaveCall) (attestedMs : Nat) (submission : Submission)
    (next : OrderBook) (shares : List Share) : Prop where
  owner : checkOwner request = .ok ()
  effect : SubmitEffect (engine.book.setAttestedMs attestedMs) request.args submission next shares
  traded : submission.trades ≠ []
  batch
    : batch
      = orderBatch crypto { engine with book := next }
          { submission.order with closePositionId := request.closePositionId } submission.trades
          request.authorization attestedMs
  calls
    : calls
      = submission.trades.flatMap
          (settlementCalls request.closePositionId request.args.leverage)

theorem submitOrderInner_publishes {engine : TradingEngine} (inv : BookInv engine.book)
    {request : OrderRequest} {clock : StpClock} {enclave : σ} {batch : OrderBatch}
    (published
      : (submitOrderInner perp.logged crypto request clock engine (enclave, [])).published
        = some batch)
    : ∃ attestedMs submission next shares,
        Publishes crypto request engine batch
          (submitOrderInner perp.logged crypto request clock engine (enclave, [])).enclave.2
          attestedMs submission next shares := by
  have unread := readEnclave_log perp request enclave []
  have owner : ∀ {value}, (readEnclave perp.logged request (enclave, [])).1 = .ok value
      → checkOwner request = .ok () := by
    intro value read
    simp only [readEnclave] at read
    cases gate : checkOwner request with
    | error reason => simp [gate] at read
    | ok _ => rfl
  simp only [submitOrderInner] at published ⊢
  generalize readEnclave perp.logged request (enclave, []) = reading at owner unread published ⊢
  obtain ⟨read, ⟨state, log⟩⟩ := reading
  obtain rfl : log = [] := unread
  cases read with
  | error reason => exact absurd published (by simp)
  | ok value =>
      obtain ⟨available, attestedMs⟩ := value
      simp only at published ⊢
      have outcome := lockedSubmit_outcome inv available attestedMs request.args clock
      generalize lockedSubmit available attestedMs request.args clock engine.book = locked
        at outcome published ⊢
      cases outcome with
      | refused reason same => exact absurd published (by simp)
      | @matched submission next shares accepted keeps effect =>
          simp only [settleAndPublish] at published ⊢
          split_ifs at published ⊢ with untraded publishes
          refine ⟨attestedMs, submission, next, shares, owner rfl, effect, untraded, ?_, ?_⟩
          · exact (Option.some.inj published).symm
          · exact (settleTrades_log perp _ _ _ _ _).trans (List.nil_append _)

end Sequencer

theorem fillPanics_fillMessage (trade : Trade) : fillPanics (fillMessage trade) = false := by
  simp [fillPanics, fillMessage, FP8.fromStr_display]

theorem fillBytes_fillMessage (trade : Trade)
    : fillBytes (fillMessage trade) = tradeBytes trade := by
  simp [fillBytes, fillBytes.amountBytes, fillMessage, FP8.fromStr_display, tradeBytes]

theorem num_display (value : FP8) : num value.display = .ok value.raw := by
  simp [num, FP8.fromStr_display]

/-- The replayed legs of a fill are the settlement calls of an opening order. -/
theorem replayCalls_fillMessage {order : OrderMessage} {trade : Trade}
    (taker : order.userId = trade.takerUserId)
    : replayCalls order (fillMessage trade) = settlementCalls none order.leverage trade := by
  cases side : trade.takerSide <;>
    simp [replayCalls, settlementCalls, legSides, fillMessage, takerCall, makerCall, taker, side,
      Side.toString, Side.opposite]

section Batch

variable (crypto : Crypto) (engine : TradingEngine) (order : Order) (trades : List Trade)
  (authorization : OrderAuthorization) (attestedMs : Nat)

theorem orderBatch_fills
    : (orderBatch crypto engine order trades authorization attestedMs).fills
      = trades.map fillMessage :=
  List.append_nil _

/-- The validator recomputes the hash the sequencer published. -/
theorem localHash_orderBatch
    : localHash crypto (orderBatch crypto engine order trades authorization attestedMs)
      = (orderBatch crypto engine order trades authorization attestedMs).stateHash := by
  rw [localHash, orderBatch_fills, List.map_map]
  have same : fillBytes ∘ fillMessage = tradeBytes := funext fillBytes_fillMessage
  rw [same]
  rfl

/-- A batch that arrives from the elected leader in time passes the gates. -/
theorem passesGates_orderBatch {ownRipple : Nat}
    (timely : batchTimeSkip (attestedMs / 1_000) ownRipple = false)
    : passesGates crypto
        ⟨orderBatch crypto engine order trades authorization attestedMs, some engine.peerId,
          some engine.peerId, false, ownRipple⟩ = true := by
  have readable : (trades.map fillMessage).any fillPanics = false := by
    rw [List.any_map]
    refine List.any_eq_false.mpr (fun trade _ => ?_)
    simp [fillPanics_fillMessage]
  have leader : leaderGateDecision (some engine.peerId) (some engine.peerId)
      (orderBatch crypto engine order trades authorization attestedMs).sequencerId
      = .accept := by
    simp [leaderGateDecision, orderBatch]
  have time : batchTimeSkip
      (orderBatch crypto engine order trades authorization attestedMs).timestamp ownRipple
      = false := timely
  simp only [passesGates, orderBatch_fills, readable, leader, time, localHash_orderBatch]
  rfl

/-- The calls replayed for a batch with one order. -/
theorem replayOrders_single (readJson : List UInt8 → Option Json) (vaultUserIds : List String)
    (message : OrderMessage)
    : (replayOrders crypto readJson vaultUserIds 0 [message]).1.flatMap ReplayedFill.calls
      = if verifyReplicatedOrder crypto readJson message vaultUserIds = .ok () then
          message.fills.flatMap (replayCalls message)
        else [] := by
  simp only [replayOrders]
  cases checked : verifyReplicatedOrder crypto readJson message vaultUserIds with
  | error failure => cases failure <;> rfl
  | ok _ =>
      simp only [if_true, List.append_nil]
      have untagged : ∀ (fills : List FillMessage) (start : Nat),
          ((fills.zipIdx start).map
            (fun place => ReplayedFill.mk 0 place.2 message place.1)).flatMap
              ReplayedFill.calls
            = fills.flatMap (replayCalls message) := by
        intro fills
        induction fills with
        | nil => exact fun _ => rfl
        | cons fill rest ih =>
            intro start
            rw [List.zipIdx_cons, List.map_cons, List.flatMap_cons, List.flatMap_cons, ih]
            rfl
      exact untagged message.fills 0

end Batch

-----------------------------------------------------------------------------------------
-- Agreement
-----------------------------------------------------------------------------------------

/-- How much of an order self-trade prevention takes off, read off the book before it. -/
def selfCrossed (book : OrderBook) (args : SubmitArgs) : Int :=
  total (ownShares args.userId (takes book (book.newOrder args)))

section Agreement

variable (crypto : Crypto) (readJson : List UInt8 → Option Json) (vaultUserIds : List String)

/-- A signed body that names the terms of an order, its size less what is taken off it. -/
structure SignedFor (binding : OrderSignatureBinding) (args : SubmitArgs) (crossed : Int)
    : Prop where
  verified : verifySignatureOnly crypto binding = .ok ()
  terms
    : ∃ body,
        signedBody readJson binding = .ok body
        ∧ sget body "user_id" = args.userId
        ∧ parseSide (sget body "side") = .ok args.side
        ∧ num (sget body "size") = .ok (args.size.raw - crossed)
        ∧ (sget body "price" = "" ∨ num (sget body "price") = .ok args.price.raw)
        ∧ signedLeverage body = args.leverage

/-- What authorises an order in the eyes of a validator: a signature over the published
terms, or the configuration of the vault that quotes it.
-/
def AuthorizedFor (request : OrderRequest) (book : OrderBook) : Prop :=
  match request.authorization with
  | .clientSigned binding =>
      SignedFor crypto readJson binding request.args (selfCrossed book request.args)
  | .protocolVault => request.args.userId ∈ vaultUserIds

/-- A validator follows a batch: the hash checks out, the signed order is verified, and the
calls it makes are the given ones.
-/
structure Follows (request : OrderRequest) (batch : OrderBatch) (replayed : List ReplayedFill)
    (calls : List EnclaveCall) : Prop where
  hash : localHash crypto batch = batch.stateHash
  verified
    : ∀ binding, request.authorization = .clientSigned binding
      → ∀ order ∈ batch.orders,
          verifyReplicatedOrder crypto readJson order vaultUserIds = .ok ()
  calls : replayed.flatMap ReplayedFill.calls = calls

variable {crypto} {request : OrderRequest} {engine : TradingEngine} {batch : OrderBatch}
  {calls : List EnclaveCall} {attestedMs : Nat} {submission : Submission} {next : OrderBook}
  {shares : List Share}

/-- The message that is published for the order. -/
def publishedMessage (request : OrderRequest) (submission : Submission) : OrderMessage :=
  orderMessage { submission.order with closePositionId := request.closePositionId }
    submission.trades request.authorization.wire

/-- Every order that traded took the shares of the whole crossing depth. -/
theorem Publishes.crossed
    (publishes
      : Publishes crypto request engine batch calls attestedMs submission next shares)
    : submission.order.size.raw
      = request.args.size.raw - selfCrossed engine.book request.args := by
  rcases publishes.effect.taken with ⟨none, _⟩ | taken
  · have untraded := publishes.effect.trades
    rw [none] at untraded
    exact absurd untraded publishes.traded
  · rw [publishes.effect.size, taken]
    rfl

/-- The published message of a signed order is verified exactly if the order is signed for
what was published.
-/
theorem Publishes.verified_iff
    (publishes
      : Publishes crypto request engine batch calls attestedMs submission next shares)
    {binding : OrderSignatureBinding} (signed : request.authorization = .clientSigned binding)
    : verifyReplicatedOrder crypto readJson (publishedMessage request submission) vaultUserIds
        = .ok ()
      ↔ SignedFor crypto readJson binding request.args
          (selfCrossed engine.book request.args) := by
  have terms := publishes.effect.terms
  have user : submission.order.userId = request.args.userId := by rw [terms]; rfl
  have side : submission.order.side = request.args.side := by rw [terms]; rfl
  have price : submission.order.price = request.args.price := by rw [terms]; rfl
  have leverage : submission.order.leverage = request.args.leverage := by rw [terms]; rfl
  have owner : binding.signerAddress = request.args.userId := by
    have gate := publishes.owner
    simp only [checkOwner, signed] at gate
    by_contra apart
    simp [apart] at gate
  have wire : (publishedMessage request submission).authorization
      = some (.clientSigned binding) := by
    simp [publishedMessage, orderMessage, signed, OrderAuthorization.wire]
  rw [verifyReplicatedOrder_signed_iff crypto readJson wire]
  constructor
  · intro given
    rcases given with ⟨verified, _, body, read, agree⟩
    obtain ⟨bodyUser, ⟨bodySide, parsed, shown⟩, ⟨size, signedSize, sizeRead⟩, prices, lever⟩ :=
      agree
    refine ⟨verified, body, read, bodyUser.trans user, ?_, ?_, ?_, lever.trans leverage⟩
    · have same : bodySide = submission.order.side := Side.toString_injective shown
      rw [parsed, same, side]
    · have shownSize : num submission.order.size.display = .ok size := sizeRead
      rw [num_display, publishes.crossed] at shownSize
      rw [signedSize, shownSize]
    · refine prices.imp_right ?_
      intro given
      rcases given with ⟨value, signedPrice, priceRead⟩
      have shownPrice : num submission.order.price.display = .ok value := priceRead
      rw [num_display, price] at shownPrice
      rw [signedPrice, shownPrice]
  · intro given
    rcases given with ⟨verified, body, read, bodyUser, bodySide, size, prices, lever⟩
    refine ⟨verified, owner.trans user.symm, body, read, ?_⟩
    constructor
    · exact bodyUser.trans user.symm
    · exact ⟨_, bodySide, congrArg Side.toString side.symm⟩
    · refine ⟨_, size, ?_⟩
      rw [← publishes.crossed]
      exact num_display _
    · refine prices.imp_right (fun signedPrice => ⟨_, signedPrice, ?_⟩)
      rw [← price]
      exact num_display _
    · exact lever.trans leverage.symm

/-- The published message is verified exactly if the order is authorised. -/
theorem Publishes.authorized_iff
    (publishes
      : Publishes crypto request engine batch calls attestedMs submission next shares)
    : verifyReplicatedOrder crypto readJson (publishedMessage request submission) vaultUserIds
        = .ok ()
      ↔ AuthorizedFor crypto readJson vaultUserIds request engine.book := by
  rw [AuthorizedFor]
  cases authorization : request.authorization with
  | clientSigned binding => exact publishes.verified_iff readJson vaultUserIds authorization
  | protocolVault =>
      have user : submission.order.userId = request.args.userId := by
        rw [publishes.effect.terms]
        rfl
      simp [verifyReplicatedOrder, publishedMessage, orderMessage, authorization,
        OrderAuthorization.wire, require_ok_iff, user]

theorem Publishes.orders
    (publishes
      : Publishes crypto request engine batch calls attestedMs submission next shares)
    : batch.orders = [publishedMessage request submission] := by
  rw [publishes.batch]
  rfl

/-- The batch passes the gates when it comes from the elected leader in time. -/
theorem Publishes.passes
    (publishes
      : Publishes crypto request engine batch calls attestedMs submission next shares)
    {ownRipple : Nat} (timely : batchTimeSkip batch.timestamp ownRipple = false)
    : passesGates crypto ⟨batch, some engine.peerId, some engine.peerId, false, ownRipple⟩
      = true := by
  rw [publishes.batch] at timely ⊢
  exact passesGates_orderBatch crypto { engine with book := next } _ _ _ _ timely

/-- A validator that verifies the message of an opening order makes the same calls. -/
theorem Publishes.replayCalls_eq
    (publishes
      : Publishes crypto request engine batch calls attestedMs submission next shares)
    (opens : request.closePositionId = none)
    : (publishedMessage request submission).fills.flatMap
        (replayCalls (publishedMessage request submission))
      = calls := by
  have terms := publishes.effect.terms
  have user : submission.order.userId = request.args.userId := by rw [terms]; rfl
  have leverage : submission.order.leverage = request.args.leverage := by rw [terms]; rfl
  have takers : ∀ trade ∈ submission.trades, trade.takerUserId = request.args.userId := by
    intro trade member
    rw [publishes.effect.trades] at member
    obtain ⟨_, _, _, rfl⟩ := mem_shareTrades member
    rfl
  have fills : (publishedMessage request submission).fills
      = submission.trades.map fillMessage := rfl
  rw [publishes.calls, fills, List.flatMap_map, opens]
  refine List.flatMap_congr (fun trade member => ?_)
  have taker : (publishedMessage request submission).userId = trade.takerUserId :=
    user.trans (takers trade member).symm
  rw [replayCalls_fillMessage taker]
  exact congrArg (settlementCalls none · trade) leverage

/-- The calls of a closing order start with a close, which a validator never makes. -/
theorem Publishes.closes
    (publishes
      : Publishes crypto request engine batch calls attestedMs submission next shares)
    {positionId : UInt32} (closes : request.closePositionId = some positionId)
    (replayed : List ReplayedFill)
    : replayed.flatMap ReplayedFill.calls ≠ calls := by
  obtain ⟨trade, rest, trades⟩ := List.exists_cons_of_ne_nil publishes.traded
  rw [publishes.calls, trades, List.flatMap_cons, closes]
  intro same
  cases replayed with
  | nil => simp [settlementCalls] at same
  | cons first later =>
      simp [ReplayedFill.calls, replayCalls, settlementCalls, takerCall] at same

end Agreement

/-- A validator that receives the batch of an order once, in time and from the elected
leader, follows the sequencer exactly if the order opens positions and its signature is over
what was published, or it comes from a vault the validator knows.
Witness: the message of a signed order is verified iff it is signed for what was published.
-/
theorem replay_follows_iff {σ : Type} (perp : PerpClient σ) (crypto : Crypto)
    (readJson : List UInt8 → Option Json) (vaultUserIds : List String)
    (request : OrderRequest) (clock : StpClock) (engine : TradingEngine) (enclave : σ)
    (batch : OrderBatch) (loop : ReplayLoop) (ownRipple : Nat) (inv : BookInv engine.book)
    (published
      : (submitOrderInner perp.logged crypto request clock engine (enclave, [])).published
        = some batch)
    (running : loop.running = true)
    (timely : batchTimeSkip batch.timestamp ownRipple = false)
    : Follows crypto readJson vaultUserIds request batch
        (loop.receive crypto readJson vaultUserIds
          ⟨batch, some engine.peerId, some engine.peerId, false, ownRipple⟩).2
        (submitOrderInner perp.logged crypto request clock engine (enclave, [])).enclave.2
      ↔ request.closePositionId = none
        ∧ AuthorizedFor crypto readJson vaultUserIds request engine.book := by
  obtain ⟨attestedMs, submission, next, shares, publishes⟩ :=
    submitOrderInner_publishes perp crypto inv published
  generalize (submitOrderInner perp.logged crypto request clock engine (enclave, [])).enclave.2
    = calls at publishes ⊢
  have gates := publishes.passes timely
  have orders := publishes.orders
  have replayed : (loop.receive crypto readJson vaultUserIds
      ⟨batch, some engine.peerId, some engine.peerId, false, ownRipple⟩).2.flatMap
        ReplayedFill.calls
      = if verifyReplicatedOrder crypto readJson (publishedMessage request submission)
            vaultUserIds = .ok () then
          (publishedMessage request submission).fills.flatMap
            (replayCalls (publishedMessage request submission))
        else [] := by
    rw [ReplayLoop.receive_replayed, running, gates, Bool.and_self, if_pos rfl]
    simp only [orders]
    exact replayOrders_single crypto readJson vaultUserIds _
  have hash : localHash crypto batch = batch.stateHash := by
    rw [publishes.batch]
    exact localHash_orderBatch crypto _ _ _ _ _
  have traded : calls ≠ [] := by
    obtain ⟨trade, rest, trades⟩ := List.exists_cons_of_ne_nil publishes.traded
    rw [publishes.calls, trades, List.flatMap_cons]
    simp [settlementCalls]
  constructor
  · intro follows
    have opens : request.closePositionId = none := by
      cases closes : request.closePositionId with
      | none => rfl
      | some positionId => exact absurd follows.calls (publishes.closes closes _)
    have same := follows.calls
    rw [replayed] at same
    split_ifs at same with verified
    · exact ⟨opens, (publishes.authorized_iff readJson vaultUserIds).mp verified⟩
    · exact absurd same.symm traded
  · intro given
    rcases given with ⟨opens, authorized⟩
    have verified := (publishes.authorized_iff readJson vaultUserIds).mpr authorized
    refine ⟨hash, fun binding _ order member => ?_, ?_⟩
    · rw [orders] at member
      rw [List.mem_singleton.mp member]
      exact verified
    · rw [replayed, if_pos verified]
      exact publishes.replayCalls_eq opens

/-- The order bodies that were signed in the samples, as they are read. -/
def buyOneJson : Json :=
  .object
    [("user_id", .string takerAddress), ("side", .string "buy"), ("price", .string "1.0"),
      ("size", .string "1.0")]

def closeOneJson : Json := .object [("user_id", .string takerAddress)]

/-- A reader that knows these bodies. -/
def sampleJson (bytes : List UInt8) : Option Json :=
  if bytes = buyOneBody then some buyOneJson
  else if bytes = closeOneBody then some closeOneJson
  else none

theorem signedBody_buyOne : signedBody sampleJson buyOneBinding = .ok buyOneJson := by
  have body : Hex.decode buyOneBinding.signedBodyHex = some buyOneBody :=
    Hex.decode_encode buyOneBody
  have read : sampleJson buyOneBody = some buyOneJson := if_pos rfl
  rw [signedBody, body]
  simp only [read]

/-- A sequencer on whose book the maker offers one unit. -/
def offeredEngine : TradingEngine where
  book :=
    (OrderBook.new "XRP-USD-PERP").run
      [.setAttestedMs 1_760_000_000_000, .submitOrder (unitOrder makerAddress .short) ⟨0, 0⟩]
  seqNum := 1
  peerId := "leader"
  publishes := true

/-- The taker buys the unit. -/
def buyOneRequest : OrderRequest where
  authorization := .clientSigned buyOneBinding
  args := unitOrder takerAddress .long
  closePositionId := none

/-- The taker closes a short position of one unit by buying it. -/
def closeOneRequest : OrderRequest where
  authorization := .clientSigned closeOneBinding
  args := closeArgs takerAddress .long .one 1
  closePositionId := some 7

/-- What the sequencer does for a request, with the calls it makes. -/
def offeredRun (request : OrderRequest) : Submitted (Unit × List EnclaveCall) :=
  submitOrderInner (grantingPerp "1000.0" []).logged sampleCrypto request ⟨0, 0⟩ offeredEngine
    ((), [])

theorem offeredEngine_inv : BookInv offeredEngine.book := (BookInv.new _).run _

/-- The taker signed for what is published: no order of its own is in reach. -/
theorem buyOneRequest_authorized
    : AuthorizedFor sampleCrypto sampleJson [] buyOneRequest offeredEngine.book := by
  refine ⟨buyOneBinding_verifies, buyOneJson, signedBody_buyOne, rfl, ?_, ?_, ?_, rfl⟩
  · decide +kernel
  · decide +kernel
  · exact Or.inr (by decide +kernel)

/-- So the buy is followed. -/
theorem replay_follows_buy
    : ∃ batch,
        (offeredRun buyOneRequest).published = some batch
        ∧ batchTimeSkip batch.timestamp 813_315_200 = false
        ∧ Follows sampleCrypto sampleJson [] buyOneRequest batch
            (ReplayLoop.start.receive sampleCrypto sampleJson []
              ⟨batch, some "leader", some "leader", false, 813_315_200⟩).2
            (offeredRun buyOneRequest).enclave.2 := by
  have delivered : (offeredRun buyOneRequest).published.any
      (fun batch => !batchTimeSkip batch.timestamp 813_315_200) = true := by decide +kernel
  obtain ⟨batch, published, timely⟩ := (Option.any_eq_true _ _).mp delivered
  have timely : batchTimeSkip batch.timestamp 813_315_200 = false := by simpa using timely
  refine ⟨batch, published, timely, ?_⟩
  refine (replay_follows_iff (grantingPerp "1000.0" []) sampleCrypto sampleJson [] buyOneRequest
    ⟨0, 0⟩ offeredEngine () batch .start 813_315_200 offeredEngine_inv published rfl timely).mpr
    ⟨rfl, buyOneRequest_authorized⟩

/-- A close whose calls all succeed is published, passes every gate of the batch, and is
still not followed: the validator refuses it, and would open a position if it did not.
-/
theorem close_is_not_followed
    : ∃ batch,
        (offeredRun closeOneRequest).published = some batch
        ∧ (∃ result, (offeredRun closeOneRequest).result = .ok result ∧ result.failedFills = [])
        ∧ batchTimeSkip batch.timestamp 813_315_200 = false
        ∧ ¬ Follows sampleCrypto sampleJson [] closeOneRequest batch
            (ReplayLoop.start.receive sampleCrypto sampleJson []
              ⟨batch, some "leader", some "leader", false, 813_315_200⟩).2
            (offeredRun closeOneRequest).enclave.2 := by
  have delivered : (offeredRun closeOneRequest).published.any
      (fun batch => !batchTimeSkip batch.timestamp 813_315_200) = true := by decide +kernel
  have settled : (offeredRun closeOneRequest).result.toOption.any
      (fun result => result.failedFills.isEmpty) = true := by decide +kernel
  obtain ⟨batch, published, timely⟩ := (Option.any_eq_true _ _).mp delivered
  obtain ⟨result, accepted, empty⟩ := (Option.any_eq_true _ _).mp settled
  refine ⟨batch, published, ⟨result, ?_, by simpa using empty⟩, by simpa using timely,
    fun follows => ?_⟩
  · cases outcome : (offeredRun closeOneRequest).result with
    | error reason => simp [outcome, Except.toOption] at accepted
    | ok value => simpa [outcome, Except.toOption] using accepted
  · obtain ⟨_, _, _, _, publishes⟩ :=
      submitOrderInner_publishes (grantingPerp "1000.0" []) sampleCrypto offeredEngine_inv
        published
    exact publishes.closes rfl _ follows.calls

end PerpDex
