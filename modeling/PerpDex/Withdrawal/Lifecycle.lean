import PerpDex.Api.Identity
import PerpDex.Lib.Run
import PerpDex.Withdrawal.Reconcile

/-! Withdrawals and reconcile sweeps on one node.
A withdrawal reserves its slot in the enclave and notes it in the journal afterwards; a
sweep takes a copy of the journal, reconciles entry by entry without the lock, and removes
an entry by its slot. Runs and sweeps overlap in any order.
-/

namespace PerpDex

namespace Withdrawal

/-- How an enclave call goes: it takes effect and answers, it is refused, it fails on the
way there, or it takes effect and the answer is lost on the way back.
-/
inductive EnclaveAnswer where
  | accepted
  | refused (message : String)
  | failed (error : String)
  | lost (error : String)
deriving DecidableEq

namespace EnclaveAnswer

def effective : EnclaveAnswer → Bool
  | .accepted | .lost _ => true
  | _ => false

/-- What the client returns for the margin check. -/
def withdrawReply : EnclaveAnswer → EnclaveReply
  | .accepted => .ok (.object [("status", .string "success")])
  | .refused message => .ok (.object [("status", .string "error"), ("message", .string message)])
  | .failed error | .lost error => .error error

/-- What the client returns for a finalize or rollback. -/
def reconcileReply : EnclaveAnswer → EnclaveReply
  | .accepted => .ok (.object [("status", .string "success")])
  | .refused error | .failed error | .lost error => .error error

end EnclaveAnswer

/-- The reserved rows of the enclave, each with the run it was reserved for, and the slots
the high-water has passed.
-/
structure Enclave where
  held : List (Slot × Nat)
  used : List Slot

namespace Enclave

/-- The high-water of an escrow is below the slot. -/
def accepts (enclave : Enclave) (slot : Slot) : Bool :=
  enclave.used.all (fun other => other.escrow ≠ slot.escrow || other.sequence < slot.sequence)

def reserve (enclave : Enclave) (slot : Slot) (run : Nat) : Enclave where
  held := enclave.held ++ [(slot, run)]
  used := enclave.used ++ [slot]

/-- A row is finalized or rolled back; the high-water stays. -/
def settle (enclave : Enclave) (slot : Slot) : Enclave where
  held := enclave.held.filter (fun row => row.1 ≠ slot)
  used := enclave.used

end Enclave

/-- The enclave does not reserve a slot its high-water has passed. -/
def EnclaveAnswer.within (accepts : Bool) (answer : EnclaveAnswer) : EnclaveAnswer :=
  if answer.effective && !accepts then .refused "Sequence already reserved" else answer

/-- What a withdrawal has fixed before the margin check. -/
structure Plan where
  escrow : String
  sequence : UInt32
  lastLedgerSequence : UInt32
  amountDrops : UInt64
  request : WithdrawRequest

def Plan.slot (plan : Plan) : Slot := ⟨plan.escrow, plan.sequence⟩

def withdrawalLastLedgerWindow : Nat := 40

def fetchAccountSequence (answer : Except String Json) : Except String UInt32 := do
  let resp ← answer
  match (((resp.index "result").index "account_data").index "Sequence").asU64 with
  | some sequence => .ok sequence.toUInt32
  | none => .error "missing Sequence in account_info"

def ownValidatedLedger (answer : Except String Json) : Except String UInt64 := do
  let resp ← answer
  let info := (resp.index "result").index "info"
  match ((info.index "validated_ledger").index "seq").asU64 with
  | some seq => .ok seq
  | none => .error "server_info has no validated_ledger.seq"

/-- The reads before the margin check: an unreadable sequence becomes 1, an unreadable
ledger ends the withdrawal.
-/
def planWithdrawal (escrow : String) (request : WithdrawRequest) (amountDrops : UInt64)
    (accountInfo serverInfo : Except String Json) : Except String Plan :=
  let sequence := (fetchAccountSequence accountInfo).toOption.getD 1
  match ownValidatedLedger serverInfo with
  | .error e =>
      .error s!"reading the validated ledger for the withdrawal LastLedgerSequence: {e}"
  | .ok validatedLedger =>
      let lastLedger := validatedLedger.toNat + withdrawalLastLedgerWindow
      if 2 ^ 64 ≤ lastLedger then .error "withdrawal LastLedgerSequence overflow"
      else if 2 ^ 32 ≤ lastLedger then
        .error "withdrawal LastLedgerSequence exceeds the XRPL 32-bit field"
      else
        .ok
          { escrow
            sequence
            lastLedgerSequence := UInt32.ofNat lastLedger
            amountDrops
            request }

def mkJournalEntry (plan : Plan) (submittedHash : Option String) (reservedAtMs : UInt64)
    : PendingWithdrawal where
  escrow := plan.escrow
  sequence := plan.sequence
  lastLedgerSequence := plan.lastLedgerSequence
  amountDrops := plan.amountDrops
  destination := plan.request.destination
  destinationTag := plan.request.destinationTag
  submittedHash
  userId := plan.request.userId
  reservedAtMs

structure WithdrawResult where
  status : String
  amount : String
  destination : String
  xrplTxHash : Option String
  message : String

/-- Where a withdrawal stands between two steps that others can observe. -/
inductive Stage where
  | planned
  | reserved
  | journaled
  | submitted (hash : String)
  | returned (result : Except String WithdrawResult)

structure Run where
  plan : Plan
  stage : Stage

def withdrawResult (plan : Plan) (status message : String) (xrplTxHash : Option String)
    : Stage :=
  .returned (.ok
    { status
      amount := plan.request.amount
      destination := plan.request.destination
      xrplTxHash
      message })

/-- The branch on the answer to the margin check: only a success goes on. -/
def afterMargin (plan : Plan) : EnclaveReply → Stage
  | .ok resp =>
      if (resp.index "status").asStr = some "success" then .reserved
      else
        withdrawResult plan "error"
          ((resp.index "message").asStr.getD "margin check failed") none
  | .error e => withdrawResult plan "error" s!"Enclave error: {e}" none

/-- How collecting the signatures and submitting ends. -/
inductive MultisigOutcome where
  | noClient (error : String)
  | insufficient (collected quorum : Nat)
  | failed (error : String)
  | submitted (hash : String)

def afterMultisig (plan : Plan) : MultisigOutcome → Stage
  | .noClient error => .returned (.error error)
  | .insufficient collected quorum =>
      withdrawResult plan "error"
        s!"only {collected} of {quorum} required signatures collected" none
  | .failed e =>
      withdrawResult plan "signed_but_not_submitted"
        s!"Signatures collected but XRPL submission failed: {e}. Balance already deducted." none
  | .submitted hash => .submitted hash

/-- Where a sweep stands in its copy of the journal. -/
inductive Sweep where
  | walking (rest : List PendingWithdrawal)
  | calling (entry : PendingWithdrawal) (stage : ReconcileStage) (rest : List PendingWithdrawal)

/-- The entries a sweep still has in hand. -/
def Sweep.entries : Sweep → List PendingWithdrawal
  | .walking rest => rest
  | .calling entry _ rest => entry :: rest

/-- One node: its journal, its enclave, and every withdrawal and sweep in flight. The slots
whose finalize or rollback the enclave has confirmed are kept for reference.
-/
structure Node where
  journal : Journal
  enclave : Enclave
  runs : List Run
  sweeps : List Sweep
  confirmed : List Slot

def Node.fresh : Node where
  journal := ⟨[]⟩
  enclave := ⟨[], []⟩
  runs := []
  sweeps := []
  confirmed := []

inductive Event where
  | request (escrow : String) (request : WithdrawRequest)
    (accountInfo serverInfo : Except String Json)
  | giveUp (run : Nat) (error : String)
  | withdraw (run : Nat) (answer : EnclaveAnswer)
  | record (run : Nat) (nowMs : UInt64)
  | submit (run : Nat) (outcome : MultisigOutcome)
  | refresh (run : Nat) (nowMs : UInt64)
  | snapshot
  | look (sweep : Nat) (answers : XrplAnswers)
  | call (sweep : Nat) (answer : EnclaveAnswer)
  | settle (sweep : Nat)

section Node

/- What is not in this code: how a text is read as drops, how a proof is built, and which
slot the enclave reads from a proof. -/
variable (crypto : Crypto) (dropsOf : String → UInt64)
  (buildDepositProof : Json → Nat → List (List UInt8) → Except String (List UInt8))
  (subject : List UInt8 → Slot)

/-- One step of a withdrawal. -/
def Node.stepRun (node : Node) (index : Nat) (run : Run) : Event → Node
  | .giveUp _ error =>
      match run.stage with
      | .planned =>
          { node with runs := node.runs.set index ⟨run.plan, .returned (.error error)⟩ }
      | _ => node
  | .withdraw _ answer =>
      match run.stage with
      | .planned =>
          let answer := answer.within (node.enclave.accepts run.plan.slot)
          { node with
            enclave :=
              if answer.effective then node.enclave.reserve run.plan.slot index
              else node.enclave
            runs := node.runs.set index ⟨run.plan, afterMargin run.plan answer.withdrawReply⟩ }
      | _ => node
  | .record _ nowMs =>
      match run.stage with
      | .reserved =>
          { node with
            journal := node.journal.upsert (mkJournalEntry run.plan none nowMs)
            runs := node.runs.set index ⟨run.plan, .journaled⟩ }
      | _ => node
  | .submit _ outcome =>
      match run.stage with
      | .journaled =>
          { node with
            runs := node.runs.set index ⟨run.plan, afterMultisig run.plan outcome⟩ }
      | _ => node
  | .refresh _ nowMs =>
      match run.stage with
      | .submitted hash =>
          { node with
            journal := node.journal.upsert (mkJournalEntry run.plan (some hash) nowMs)
            runs :=
              node.runs.set index
                ⟨run.plan,
                  withdrawResult run.plan "success" "multisig withdrawal submitted to XRPL"
                    (some hash)⟩ }
      | _ => node
  | _ => node

/-- One step of a sweep. -/
def Node.stepSweep (node : Node) (index : Nat) : Sweep → Event → Node
  | .walking (entry :: rest), .look _ answers =>
      { node with
        sweeps :=
          node.sweeps.set index
            (.calling entry (reconcileOne crypto buildDepositProof entry answers) rest) }
  | .calling entry stage rest, .call _ answer =>
      match stage.proof with
      | none => node
      | some proof =>
          { node with
            enclave :=
              if answer.effective then node.enclave.settle (subject proof) else node.enclave
            confirmed :=
              if answer = .accepted then node.confirmed ++ [subject proof] else node.confirmed
            sweeps :=
              node.sweeps.set index
                (.calling entry (stage.answered entry.sequence answer.reconcileReply) rest) }
  | .calling entry (.done outcome) rest, .settle _ =>
      { node with
        journal :=
          if outcome.isTerminal then (node.journal.remove entry.escrow entry.sequence).2
          else node.journal
        sweeps := node.sweeps.set index (.walking rest) }
  | _, _ => node

def Node.step (node : Node) (event : Event) : Node :=
  match event with
  | .request escrow request accountInfo serverInfo =>
      match planWithdrawal escrow request (dropsOf request.amount) accountInfo serverInfo with
      | .error _ => node
      | .ok plan => { node with runs := node.runs ++ [⟨plan, .planned⟩] }
  | .snapshot => { node with sweeps := node.sweeps ++ [.walking node.journal.entries] }
  | .giveUp index _ | .withdraw index _ | .record index _ | .submit index _
  | .refresh index _ =>
      match node.runs[index]? with
      | none => node
      | some run => node.stepRun index run event
  | .look index _ | .call index _ | .settle index =>
      match node.sweeps[index]? with
      | none => node
      | some sweep => node.stepSweep crypto buildDepositProof subject index sweep event

/-- Every slot the enclave holds for a withdrawal that has returned has an entry. -/
def Node.Visible (node : Node) : Prop :=
  ∀ slot index run result,
    (slot, index) ∈ node.enclave.held → node.runs[index]? = some run →
    run.stage = .returned result → slot ∈ node.journal.slots

/-- The step drops an entry only if the enclave has confirmed a finalize or rollback of its
slot.
-/
def Node.DropsConfirmed (node : Node) (event : Event) : Prop :=
  ∀ slot ∈ node.journal.slots,
    slot ∉ (node.step crypto dropsOf buildDepositProof subject event).journal.slots →
    slot ∈ node.confirmed

/-- No margin check takes effect while its answer is lost, and a proof the enclave accepts
for an entry is about the slot of that entry.
-/
def Node.Delivered (node : Node) : Event → Prop
  | .withdraw index answer =>
      ∀ run, node.runs[index]? = some run → run.stage = .planned →
        node.enclave.accepts run.plan.slot = true → ∀ error, answer ≠ .lost error
  | .call index answer =>
      ∀ entry stage rest proof, node.sweeps[index]? = some (.calling entry stage rest) →
        stage.proof = some proof → answer = .accepted → subject proof = entry.slot
  | _ => True

end Node

end Withdrawal

end PerpDex
