import PerpDex.Auth.Signature
import PerpDex.EnclaveReply
import PerpDex.Withdrawal.Journal

/-! One reconcile pass over one reserved withdrawal.
The pass reads the XRPL node, decides which proof to build, and carries it to the enclave.
It is cut at the enclave calls: a stage names the call to make next, and the reply leads to
the following stage or to an outcome. Building a proof is a parameter.
-/

namespace PerpDex

/-- What a reserved slot calls for, given the escrow's sequence and the validated ledger. -/
inductive Verdict where
  | slotConsumed
  | expired
  | pending
  | anomaly
deriving DecidableEq

def classify (escrowValidatedSequence currentValidatedLedger : UInt32)
    (entry : PendingWithdrawal) : Verdict :=
  if entry.sequence < escrowValidatedSequence then .slotConsumed
  else if escrowValidatedSequence < entry.sequence then .anomaly
  else if entry.lastLedgerSequence < currentValidatedLedger then .expired
  else .pending

inductive ReconcileOutcome where
  | finalized
  | rolledBackStolen
  | rolledBackExpired
  | stillPending
  | deferred (reason : String)
  | anomaly (reason : String)
deriving DecidableEq

/-- May the journal entry be dropped? -/
def ReconcileOutcome.isTerminal : ReconcileOutcome → Bool
  | .finalized | .rolledBackStolen | .rolledBackExpired => true
  | _ => false

/-- The call to make next, or the outcome. The proofs are those the calls carry. -/
inductive ReconcileStage where
  | finalize (proof : List UInt8)
  | rollbackSlotStolen (proof : List UInt8)
  | rollbackExpired (proof : List UInt8)
  | done (outcome : ReconcileOutcome)

/-- The proof that goes with the call. -/
def ReconcileStage.proof : ReconcileStage → Option (List UInt8)
  | .finalize proof | .rollbackSlotStolen proof | .rollbackExpired proof => some proof
  | .done _ => none

/-- What the node answers during one pass, and what the collector has buffered. -/
structure XrplAnswers where
  accountInfo : Except String Json
  validatedLedger : Except String Json
  accountTx : Except String Json
  ledger : UInt32 → Except String Json
  validations : String → Option (List (List UInt8))
  spvBundle : Except String (List UInt8)

def escrowValidatedSequence (answer : Except String Json) : Except String UInt32 := do
  let r ← answer
  match (((r.index "result").index "account_data").index "Sequence").asU64 with
  | some sequence => .ok sequence.toUInt32
  | none => .error "account_info: missing validated Sequence"

def currentValidatedLedger (answer : Except String Json) : Except String UInt32 := do
  let r ← answer
  let result := r.index "result"
  let inner := (result.index "ledger").index "ledger_index"
  let written := (inner.asStr.bind parseU64).map UInt64.ofNat
  match ((result.index "ledger_index").asU64 <|> inner.asU64 <|> written) with
  | some index => .ok index.toUInt32
  | none => .error "ledger(validated): missing ledger_index"

/-- The transaction of an `account_tx` entry, in either of its two shapes. -/
def txObject (entry : Json) : Json :=
  if (entry.index "tx").isObject then entry.index "tx" else entry.index "tx_json"

/-- Hash and ledger of an entry that is validated and carries the sequence number. -/
def txAtSequence (s : UInt32) (entry : Json) : Option (String × UInt32) :=
  if (entry.index "validated").asBool ≠ some true then none
  else if ((txObject entry).index "Sequence").asU64 ≠ some s.toUInt64 then none
  else
    let hash := (entry.index "hash").asStr <|> ((txObject entry).index "hash").asStr
    let ledgerIndex :=
      (entry.index "ledger_index").asU64 <|> ((txObject entry).index "ledger_index").asU64
      <|> ((txObject entry).index "inLedger").asU64
    match hash, ledgerIndex with
    | some hash, some ledgerIndex => some (hash, ledgerIndex.toUInt32)
    | _, _ => none

/-- The first entry of the page that qualifies; `account_tx` is asked for 50 entries,
newest first.
-/
def findValidatedTxAtSequence (answer : Except String Json) (s : UInt32)
    : Except String (Option (String × UInt32)) := do
  let r ← answer
  match ((r.index "result").index "transactions").asArray with
  | none => .ok none
  | some txs => .ok (txs.findSome? (txAtSequence s))

def decodeTxId (hexHash : String) : Option (List UInt8) :=
  (Hex.decode hexHash).filter (fun bytes => bytes.length = 32)

/-- Is an outcome that the enclave refused worth another try? -/
def rcIsRetryable (rc : Int) : Bool :=
  [-60, -70, -71, -74, -77, -81, -87].contains rc || (-12 ≤ rc + 200 && rc + 200 ≤ -8)

section Reconcile

variable (crypto : Crypto)
  (buildDepositProof : Json → Nat → List (List UInt8) → Except String (List UInt8))

/-- `SHA512Half('TXN\0' || tx_blob)`. -/
def txId (txBlob : List UInt8) : List UInt8 :=
  (crypto.sha512 ([0x54, 0x58, 0x4E, 0x00] ++ txBlob)).take 32

def hasTxId (target : List UInt8) (entry : Json) : Bool :=
  match (entry.index "tx_blob").asStr.bind Hex.decode with
  | some blob => txId crypto blob = target
  | none => false

/-- Where the transaction with an id stands in a ledger. -/
def findTargetIndex (ledgerResult : Json) (target : List UInt8) : Option Nat := do
  let txs ← ((ledgerResult.index "ledger").index "transactions").asArray
  txs.findIdx? (hasTxId crypto target)

def fetchFullLedger (answer : Except String Json) : Except String Json := do
  let r ← answer
  .ok (r.index "result")

def reconcileConsumedSlot (entry : PendingWithdrawal) (answers : XrplAnswers)
    : ReconcileStage :=
  match findValidatedTxAtSequence answers.accountTx entry.sequence with
  | .error e => .done (.deferred s!"account_tx scan failed: {e}")
  | .ok none =>
      .done (.deferred
        "slot consumed but the tx at that Sequence is not yet visible in account_tx")
  | .ok (some (txHash, ledgerIndex)) =>
      match decodeTxId txHash with
      | none => .done (.anomaly s!"account_tx returned a non-32-byte tx hash {txHash}")
      | some target =>
          match fetchFullLedger (answers.ledger ledgerIndex) with
          | .error e => .done (.deferred s!"ledger fetch failed: {e}")
          | .ok ledger =>
              match findTargetIndex crypto ledger target with
              | none =>
                  .done (.deferred
                    s!"tx {txHash} not yet in fetched ledger {ledgerIndex} (node lag?)")
              | some targetIndex =>
                  match (ledger.index "ledger_hash").asStr with
                  | none => .done (.deferred "ledger result missing ledger_hash")
                  | some ledgerHash =>
                      match (answers.validations ledgerHash).filter (fun list => list ≠ []) with
                      | none =>
                          .done (.deferred
                            s!"no buffered validations for ledger {ledgerHash} yet; retry while in window")
                      | some validations =>
                          match buildDepositProof ledger targetIndex validations with
                          | .error e => .done (.deferred s!"XDEP proof build failed: {e}")
                          | .ok proof => .finalize proof

def reconcileExpired (answers : XrplAnswers) : ReconcileStage :=
  match answers.spvBundle with
  | .error e => .done (.deferred s!"R-b XSPV bundle fetch failed: {e}")
  | .ok blob => .rollbackExpired blob

/-- The reads of a pass, up to its first enclave call. -/
def reconcileOne (entry : PendingWithdrawal) (answers : XrplAnswers) : ReconcileStage :=
  match escrowValidatedSequence answers.accountInfo with
  | .error e => .done (.deferred s!"account_info failed: {e}")
  | .ok escrowSeq =>
      match currentValidatedLedger answers.validatedLedger with
      | .error e => .done (.deferred s!"validated-ledger read failed: {e}")
      | .ok validatedIdx =>
          match classify escrowSeq validatedIdx entry with
          | .pending => .done .stillPending
          | .anomaly =>
              .done (.anomaly
                s!"escrow {entry.escrow} validated Sequence {escrowSeq} is BEHIND the reserved slot {entry.sequence} (reorg / wrong escrow / stale read) — not reconciling")
          | .slotConsumed => reconcileConsumedSlot crypto buildDepositProof entry answers
          | .expired => reconcileExpired answers

end Reconcile

/-- Where a reply leads. A finalize that is refused with -69 goes on to the rollback of a
stolen slot with the same proof.
-/
def ReconcileStage.answered (sequence : UInt32) (reply : EnclaveReply)
    : ReconcileStage → ReconcileStage
  | .finalize proof =>
      match reply with
      | .ok _ => .done .finalized
      | .error msg =>
          match rcFromError msg with
          | some rc =>
              if rc = -69 then .rollbackSlotStolen proof
              else if rcIsRetryable rc then
                .done (.deferred s!"finalize refused rc={rc} (retryable): {msg}")
              else
                .done (.anomaly
                  s!"finalize refused rc={rc} — a settled on-chain fact at Sequence {sequence} or an unmapped terminal, not retryable: {msg}")
          | none => .done (.deferred s!"finalize failed, no enclave rc (transport?): {msg}")
  | .rollbackSlotStolen _ =>
      match reply with
      | .ok _ => .done .rolledBackStolen
      | .error msg =>
          .done (.anomaly
            s!"finalize reported content mismatch (-69) but R-a rollback was refused: {msg}")
  | .rollbackExpired _ =>
      match reply with
      | .ok _ => .done .rolledBackExpired
      | .error msg =>
          match rcFromError msg with
          | some rc =>
              if rcIsRetryable rc then
                .done (.deferred s!"R-b rollback refused rc={rc} (retryable): {msg}")
              else
                .done (.anomaly
                  s!"R-b rollback refused rc={rc} — terminal or unmapped, not retryable: {msg}")
          | none => .done (.deferred s!"R-b rollback failed, no enclave rc (transport?): {msg}")
  | .done outcome => .done outcome

/-- The reads alone never settle an entry. -/
theorem reconcileOne_not_terminal (crypto : Crypto)
    (buildDepositProof : Json → Nat → List (List UInt8) → Except String (List UInt8))
    {entry : PendingWithdrawal} {answers : XrplAnswers} {outcome : ReconcileOutcome}
    (ended : reconcileOne crypto buildDepositProof entry answers = .done outcome)
    : outcome.isTerminal = false := by
  simp only [reconcileOne, reconcileConsumedSlot, reconcileExpired] at ended
  repeat' split at ended
  all_goals cases ended
  all_goals rfl

/-- A call settles an entry only if the enclave accepted it. -/
theorem ReconcileStage.answered_terminal {stage : ReconcileStage} {sequence : UInt32}
    {reply : EnclaveReply} {outcome : ReconcileOutcome} {proof : List UInt8}
    (carries : stage.proof = some proof)
    (ended : stage.answered sequence reply = .done outcome) (terminal : outcome.isTerminal = true)
    : ∃ json, reply = .ok json := by
  cases reply with
  | ok json => exact ⟨json, rfl⟩
  | error msg =>
      cases stage with
      | done _ => simp [ReconcileStage.proof] at carries
      | _ =>
          simp only [ReconcileStage.answered] at ended
          repeat' split at ended
          all_goals cases ended
          all_goals cases terminal

/-- A call after a call carries the same proof. -/
theorem ReconcileStage.answered_proof {stage : ReconcileStage} {sequence : UInt32}
    {reply : EnclaveReply} {proof : List UInt8}
    (carries : (stage.answered sequence reply).proof = some proof)
    : stage.proof = some proof := by
  cases stage with
  | finalize held =>
      simp only [ReconcileStage.answered] at carries
      repeat' split at carries
      all_goals first
        | exact carries
        | exact absurd carries (by simp [ReconcileStage.proof])
  | rollbackSlotStolen held =>
      simp only [ReconcileStage.answered] at carries
      split at carries <;> simp [ReconcileStage.proof] at carries
  | rollbackExpired held =>
      simp only [ReconcileStage.answered] at carries
      repeat' split at carries
      all_goals exact absurd carries (by simp [ReconcileStage.proof])
  | done outcome => exact carries

end PerpDex
