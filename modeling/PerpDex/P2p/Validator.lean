import PerpDex.Api.Orders

/-! The validator: what it checks of a published batch and which calls it replays.
The loop keeps one cursor, `last_seq`, which it overwrites with every batch that passes the
leader gate. Metrics and the passive trade log are left out. A panic of a number parser
ends the task, so a loop that is not running replays nothing any more.
-/

namespace PerpDex

open OrderBook

inductive LeaderGate where
  | accept
  | noLeader
  | notLeader
  | unsigned
  | fieldMismatch
deriving DecidableEq

/-- Bind the authenticated publisher of a batch to the elected leader. -/
def leaderGateDecision (srcPeer elected : Option String) (claimedSequencerId : String)
    : LeaderGate :=
  match elected with
  | none => .noLeader
  | some electedId =>
      match srcPeer with
      | none => .unsigned
      | some src =>
          if src ≠ electedId then .notLeader
          else if claimedSequencerId ≠ electedId then .fieldMismatch
          else .accept

def rippleEpochOffsetSecs : Nat := 946_684_800

def batchTimeFwdTolSecs : Nat := 30

def batchTimeMaxLagSecs : Nat := 600

/-- Why a batch time is outside the window the own clock has reached. -/
def batchTimeDivergence (batchRipple ownRipple fwdTolSecs maxLagSecs : Nat) : Option String :=
  if ownRipple = 0 then
    some "own attested clock is not live -- cannot independently verify the batch time"
  else if ownRipple + fwdTolSecs < batchRipple then
    some "batch close-time is AHEAD of this node's derived attested clock"
  else if maxLagSecs < ownRipple - batchRipple then
    some "batch close-time is stale relative to this node's attested clock"
  else none

def batchTimeSkip (batchTimestampUnix ownRipple : Nat) : Bool :=
  (batchTimeDivergence (batchTimestampUnix - rippleEpochOffsetSecs) ownRipple
    batchTimeFwdTolSecs batchTimeMaxLagSecs).isSome

/-- Does reading the numbers of a fill panic? -/
def fillPanics (fill : FillMessage) : Bool :=
  FP8.fromStr fill.price = .error .panicked || FP8.fromStr fill.size = .error .panicked

/-- What the validator hashes of one fill; a number it cannot read is left out. -/
def fillBytes (fill : FillMessage) : List UInt8 :=
  leBytes fill.tradeId ++ amountBytes fill.price ++ amountBytes fill.size
where
  amountBytes (text : String) : List UInt8 :=
    match FP8.fromStr text with
    | .ok value => leBytes value.raw
    | .error _ => []

def OrderBatch.fills (batch : OrderBatch) : List FillMessage :=
  batch.orders.flatMap OrderMessage.fills

def localHash (crypto : Crypto) (batch : OrderBatch) : String :=
  stateHash crypto batch.seqNum (batch.fills.map fillBytes) batch.timestamp

/-- Why an order is not replayed: it is refused, or checking it panics. -/
inductive VerifyError where
  | refused (why : String)
  | panicked
deriving DecidableEq

def refuse {α : Type} : Except String α → Except VerifyError α
  | .ok value => .ok value
  | .error why => .error (.refused why)

def require (holds : Bool) (why : String) : Except VerifyError Unit :=
  if holds then .ok () else .error (.refused why)

/-- A string member of the signed body; anything else reads as the empty text. -/
def sget (body : Json) (key : String) : String :=
  ((body.get key).bind Json.asStr).getD ""

/-- A number of the terms check; a text that is no number reads as the least `i64`. -/
def num (text : String) : Except VerifyError Int :=
  match FP8.fromStr text with
  | .ok value => .ok value.raw
  | .error .invalid => .ok (-2 ^ 63)
  | .error .panicked => .error .panicked

def signedLeverage (body : Json) : UInt32 :=
  UInt32.ofNat ((((body.get "leverage").bind Json.asU64).map UInt64.toNat).getD 1)

section Verify

variable (crypto : Crypto) (readJson : List UInt8 → Option Json)

def signedBody (binding : OrderSignatureBinding) : Except String Json :=
  match Hex.decode binding.signedBodyHex with
  | none => .error "signed body is not hex"
  | some raw =>
      match readJson raw with
      | none => .error "signed body is not JSON"
      | some body => .ok body

/-- A market order carries no price in the signed body; only a priced order is checked. -/
def verifyPrice (order : OrderMessage) (body : Json) : Except VerifyError Unit :=
  if sget body "price" = "" then .ok ()
  else do
    let signedPrice ← num (sget body "price")
    let price ← num order.price
    require (signedPrice = price) "signed price does not match the replicated price"

/-- The terms of a message against the body its owner signed. -/
def verifyTerms (order : OrderMessage) (body : Json) : Except VerifyError Unit := do
  require (sget body "user_id" = order.userId) "signed body names a different user"
  let side ← refuse (parseSide (sget body "side"))
  require (side.toString = order.side)
    s!"signed side {side.toString} != replicated side {order.side}"
  let signedSize ← num (sget body "size")
  let size ← num order.size
  require (signedSize = size) "signed size does not match the replicated size"
  verifyPrice order body
  require (signedLeverage body = order.leverage)
    "signed leverage does not match the replicated leverage"

/-- `verify_replicated_order`. -/
def verifyReplicatedOrder (order : OrderMessage) (vaultUserIds : List String)
    : Except VerifyError Unit :=
  match order.authorization with
  | none => .error (.refused "no authorization carried — order is UNVERIFIED")
  | some .protocolVault =>
      require (vaultUserIds.any (· = order.userId))
        s!"vault quote from {order.userId} — not a vault this node has configured"
  | some (.clientSigned binding) => do
      refuse (verifySignatureOnly crypto binding)
      require (binding.signerAddress = order.userId)
        s!"signer {binding.signerAddress} is not the order owner {order.userId}"
      let body ← refuse (signedBody readJson binding)
      verifyTerms order body

theorem refuse_ok_iff {α : Type} {checked : Except String α} {value : α}
    : refuse checked = .ok value ↔ checked = .ok value := by
  cases checked <;> simp [refuse]

theorem require_ok_iff {holds : Bool} {why : String} {done : Unit}
    : require holds why = .ok done ↔ holds = true := by
  cases holds <;> simp [require]

/-- What the terms check establishes. -/
structure TermsAgree (order : OrderMessage) (body : Json) : Prop where
  user : sget body "user_id" = order.userId
  side : ∃ side, parseSide (sget body "side") = .ok side ∧ side.toString = order.side
  size : ∃ value, num (sget body "size") = .ok value ∧ num order.size = .ok value
  price
    : sget body "price" = ""
      ∨ ∃ value, num (sget body "price") = .ok value ∧ num order.price = .ok value
  leverage : signedLeverage body = order.leverage

theorem verifyPrice_ok_iff {order : OrderMessage} {body : Json} {done : Unit}
    : verifyPrice order body = .ok done
      ↔ sget body "price" = ""
        ∨ ∃ value, num (sget body "price") = .ok value ∧ num order.price = .ok value := by
  simp only [verifyPrice]
  split_ifs with unpriced
  · simp [unpriced]
  · simp only [Except.bind_eq_ok_iff, require_ok_iff, decide_eq_true_eq, unpriced, false_or]
    constructor
    · intro given
      rcases given with ⟨signedPrice, signedRead, price, priceRead, same⟩
      exact ⟨price, same ▸ signedRead, priceRead⟩
    · intro given
      rcases given with ⟨price, signedRead, priceRead⟩
      exact ⟨price, signedRead, price, priceRead, rfl⟩

theorem verifyTerms_ok_iff {order : OrderMessage} {body : Json}
    : verifyTerms order body = .ok () ↔ TermsAgree order body := by
  simp only [verifyTerms, Except.bind_eq_ok_iff, refuse_ok_iff, require_ok_iff,
    verifyPrice_ok_iff, decide_eq_true_eq]
  constructor
  · rintro ⟨_, user, side, parsed, _, shown, signedSize, signedRead, size, sizeRead, _, sizes,
      _, prices, leverage⟩
    exact ⟨user, ⟨side, parsed, shown⟩, ⟨size, sizes ▸ signedRead, sizeRead⟩, prices, leverage⟩
  · intro given
    rcases given with ⟨user, ⟨side, parsed, shown⟩, ⟨size, signedRead, sizeRead⟩, prices, leverage⟩
    exact ⟨(), user, side, parsed, (), shown, size, signedRead, size, sizeRead, (), rfl, (),
      prices, leverage⟩

/-- An accepted signed order carries a verified signature of its owner over its terms. -/
theorem verifyReplicatedOrder_signed_iff {order : OrderMessage}
    {binding : OrderSignatureBinding} (signed : order.authorization = some (.clientSigned binding))
    (vaultUserIds : List String)
    : verifyReplicatedOrder crypto readJson order vaultUserIds = .ok ()
      ↔ verifySignatureOnly crypto binding = .ok ()
        ∧ binding.signerAddress = order.userId
        ∧ ∃ body, signedBody readJson binding = .ok body ∧ TermsAgree order body := by
  simp only [verifyReplicatedOrder, signed, Except.bind_eq_ok_iff, refuse_ok_iff,
    require_ok_iff, decide_eq_true_eq, verifyTerms_ok_iff]
  constructor
  · intro given
    rcases given with ⟨_, verified, _, owner, body, read, terms⟩
    exact ⟨verified, owner, body, read, terms⟩
  · intro given
    rcases given with ⟨verified, owner, body, read, terms⟩
    exact ⟨(), verified, (), owner, body, read, terms⟩

end Verify

-----------------------------------------------------------------------------------------
-- The replay loop
-----------------------------------------------------------------------------------------

/-- A fill the loop has replayed, with its place in the batch. -/
structure ReplayedFill where
  orderIndex : Nat
  fillIndex : Nat
  order : OrderMessage
  fill : FillMessage

/-- The sides of the two legs of a fill. -/
def legSides (fill : FillMessage) : Side × Side :=
  if fill.takerSide = "long" then (.long, .short) else (.short, .long)

/-- Both legs are opened, the taker's first, whatever the replies are. -/
def replayCalls (order : OrderMessage) (fill : FillMessage) : List EnclaveCall :=
  [.openPosition order.userId (legSides fill).1.toString fill.size fill.price order.leverage,
    .openPosition fill.makerUserId (legSides fill).2.toString fill.size fill.price
      order.leverage]

def ReplayedFill.calls (replayed : ReplayedFill) : List EnclaveCall :=
  replayCalls replayed.order replayed.fill

/-- The state of the loop. -/
structure ReplayLoop where
  lastSeq : Nat
  running : Bool
deriving DecidableEq

def ReplayLoop.start : ReplayLoop := ⟨0, true⟩

/-- A batch as it reaches the loop, with what the loop reads from the rest of the node. -/
structure Delivery where
  batch : OrderBatch
  srcPeer : Option String
  elected : Option String
  isSequencer : Bool
  ownRipple : Nat

section Replay

variable (crypto : Crypto) (readJson : List UInt8 → Option Json) (vaultUserIds : List String)

/-- Replay the orders from an index on; the flag says whether the loop is still running. -/
def replayOrders : Nat → List OrderMessage → List ReplayedFill × Bool
  | _, [] => ([], true)
  | index, order :: rest =>
      match verifyReplicatedOrder crypto readJson order vaultUserIds with
      | .error .panicked => ([], false)
      | .error (.refused _) => replayOrders (index + 1) rest
      | .ok () =>
          let (later, running) := replayOrders (index + 1) rest
          (order.fills.zipIdx.map (fun (fill, fillIndex) => ⟨index, fillIndex, order, fill⟩)
            ++ later, running)

/-- The gates before the replay; they look at nothing but the delivery. -/
def passesGates (delivery : Delivery) : Bool :=
  !delivery.isSequencer
  && leaderGateDecision delivery.srcPeer delivery.elected delivery.batch.sequencerId = .accept
  && !delivery.batch.fills.any fillPanics
  && localHash crypto delivery.batch = delivery.batch.stateHash
  && !batchTimeSkip delivery.batch.timestamp delivery.ownRipple

/-- One turn of the loop. -/
def ReplayLoop.receive (loop : ReplayLoop) (delivery : Delivery)
    : ReplayLoop × List ReplayedFill :=
  let batch := delivery.batch
  if !loop.running then (loop, [])
  else if delivery.isSequencer then (loop, [])
  else if leaderGateDecision delivery.srcPeer delivery.elected batch.sequencerId ≠ .accept then
    (loop, [])
  else
    -- a gap in the sequence is reported and the cursor moves on
    let loop := { loop with lastSeq := batch.seqNum }
    if batch.fills.any fillPanics then ({ loop with running := false }, [])
    else if localHash crypto batch ≠ batch.stateHash then (loop, [])
    else if batchTimeSkip batch.timestamp delivery.ownRipple then (loop, [])
    else
      let (replayed, running) := replayOrders crypto readJson vaultUserIds 0 batch.orders
      ({ loop with running }, replayed)

/-- A running loop replays a batch that passes the gates. -/
theorem ReplayLoop.receive_passed {loop : ReplayLoop} {delivery : Delivery}
    (running : loop.running = true) (passes : passesGates crypto delivery = true)
    : loop.receive crypto readJson vaultUserIds delivery
      = (⟨delivery.batch.seqNum,
            (replayOrders crypto readJson vaultUserIds 0 delivery.batch.orders).2⟩,
          (replayOrders crypto readJson vaultUserIds 0 delivery.batch.orders).1) := by
  simp only [passesGates, Bool.and_eq_true, Bool.not_eq_true', decide_eq_true_eq] at passes
  obtain ⟨⟨⟨⟨follower, leader⟩, quiet⟩, intact⟩, timely⟩ := passes
  simp only [ReplayLoop.receive, running, follower, leader, quiet, intact, timely,
    Bool.not_true, Bool.false_eq_true, if_false, ne_eq, not_true_eq_false]

/-- What a turn replays: the orders of the batch if it passes the gates, else nothing. -/
theorem ReplayLoop.receive_replayed (loop : ReplayLoop) (delivery : Delivery)
    : (loop.receive crypto readJson vaultUserIds delivery).2
      = if loop.running && passesGates crypto delivery then
          (replayOrders crypto readJson vaultUserIds 0 delivery.batch.orders).1
        else [] := by
  split_ifs with passes
  · obtain ⟨running, gates⟩ := Bool.and_eq_true_iff.mp passes
    rw [ReplayLoop.receive_passed crypto readJson vaultUserIds running gates]
  · simp only [ReplayLoop.receive]
    split_ifs with stopped sequencer other panics apart late
    · rfl
    · rfl
    · rfl
    · rfl
    · rfl
    · rfl
    · refine absurd ?_ passes
      simp only [passesGates, Bool.and_eq_true, Bool.not_eq_true', decide_eq_true_eq]
      exact ⟨by simpa using stopped, ⟨⟨⟨by simpa using sequencer, not_not.mp other⟩,
        eq_false_of_ne_true panics⟩, not_not.mp apart⟩, eq_false_of_ne_true late⟩

end Replay

end PerpDex
