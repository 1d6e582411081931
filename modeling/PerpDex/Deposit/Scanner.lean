import PerpDex.EnclaveReply
import PerpDex.Lib.Run

/-! The SPV deposit scanner.
A pass reads one validated ledger, offers a proof of every payment to the escrow in it, and
moves the cursor on if the scan of the ledger ended without an error. Building a proof is a
parameter, and with it how a scan that does not come to its end fails.
-/

namespace PerpDex

namespace DepositSpv

/-- Does a transaction of the expanded answer pay the escrow? -/
def paysEscrow (escrow : String) (tx : Json) : Bool :=
  (tx.index "TransactionType").asStr = some "Payment"
  && (tx.index "Destination").asStr = some escrow

/-- Where the payments to the escrow stand among the transactions of a ledger. -/
def escrowPayments (escrow : String) (txs : List Json) : List Nat :=
  (txs.zipIdx.filter (fun entry => paysEscrow escrow entry.1)).map Prod.snd

def ledgerTransactions (result : Json) : Option (List Json) :=
  ((result.index "ledger").index "transactions").asArray

/-- An answer without a transactions array has no payments. -/
def findEscrowPayments (result : Json) (escrow : String) : List Nat :=
  match ledgerTransactions result with
  | none => []
  | some txs => escrowPayments escrow txs

inductive SubmitOutcome where
  | credited (reply : Json)
  | alreadySettled
  | permanentRefusal (rc : Int)
  | boundaryNotArmed
  | transient (message : String)

def classifySubmit (rc : Int) : SubmitOutcome :=
  if rc = -2 ∨ rc = -86 then .alreadySettled
  else if rc = -85 then .boundaryNotArmed
  else .permanentRefusal rc

/-- `deposit_spv::rc_from_error`, an `i32` behind the bare token. -/
def rcFromError (message : String) : Option Int := codeAfter "rc=" 32 message

def outcomeFromError (message : String) : SubmitOutcome :=
  match rcFromError message with
  | some rc => classifySubmit rc
  | none => .transient message

def outcomeOf : EnclaveReply → SubmitOutcome
  | .ok reply => .credited reply
  | .error message => outcomeFromError message

/-- Is the payment settled: credited, known already, or refused for good? -/
def SubmitOutcome.settles : SubmitOutcome → Bool
  | .credited _ | .alreadySettled | .permanentRefusal _ => true
  | _ => false

/-- What one pass of the loop meets: the endpoints asked for a sign of life, the answers of
the first one that gave it, the buffered validations, and the replies of the enclave.
-/
structure Pass where
  probes : List (Except String Json)
  validated : Except String Json
  ledger : Except String Json
  validations : String → Option (List (List UInt8))
  binary : Except String Json
  credit : Nat → List UInt8 → EnclaveReply

def fetchValidatedIndex (answer : Except String Json) : Except String UInt64 := do
  let v ← answer
  match ((v.index "result").index "ledger_index").asU64 with
  | some index => .ok index
  | none => .error "no validated ledger_index in the response"

/-- The validated index a pass works with. -/
def Pass.validatedIndex (pass : Pass) : Option Nat :=
  if pass.probes.any (fun probe => (fetchValidatedIndex probe).isOk) then
    (fetchValidatedIndex pass.validated).toOption.map UInt64.toNat
  else none

/-- Failures that a message can be reported as, and that can be told what was being done. -/
class Failure (ε : Type) where
  report : String → ε
  explain : String → ε → ε

/-- An error that is handed on is its message. -/
instance : Failure String where
  report message := message
  explain what message := s!"{what}: {message}"

/-- Offer the payments one after the other; an unarmed boundary ends the scan. -/
def offerAll {ε : Type} [Failure ε] (offer : Nat → Except ε SubmitOutcome)
    : List Nat → List (Nat × SubmitOutcome) × Except ε Unit
  | [] => ([], .ok ())
  | idx :: rest =>
      match offer idx with
      | .error e => ([], .error e)
      | .ok .boundaryNotArmed =>
          ([(idx, .boundaryNotArmed)],
            .error
              (Failure.report "the SPV-deposit boundary is not armed — no deposit can credit until an operator arms it"))
      | .ok outcome => ((idx, outcome) :: (offerAll offer rest).1, (offerAll offer rest).2)

section Scan

variable {ε : Type} [Failure ε]
  (buildDepositProof : Json → Nat → List (List UInt8) → Except ε (List UInt8))
  (escrow : String)

def offerDeposit (pass : Pass) (result : Json) (validations : List (List UInt8)) (index : Nat)
    (idx : Nat) : Except ε SubmitOutcome :=
  match buildDepositProof result idx validations with
  | .error e => .error (Failure.explain s!"build proof for tx {idx} of ledger {index}" e)
  | .ok proof => .ok (outcomeOf (pass.credit idx proof))

/-- What became of the payments that were offered, and how the scan ended. -/
def scanOneLedger (pass : Pass) (index : Nat)
    : List (Nat × SubmitOutcome) × Except ε Unit :=
  match pass.ledger with
  | .error e => ([], .error (Failure.report e))
  | .ok j =>
      let result := j.index "result"
      let hits := findEscrowPayments result escrow
      if hits = [] then ([], .ok ())
      else
        match (result.index "ledger_hash").asStr with
        | none => ([], .error (Failure.report "ledger response has no ledger_hash"))
        | some ledgerHash =>
            match pass.validations ledgerHash with
            | none =>
                ([],
                  .error
                    (Failure.report
                      s!"no buffered validations for ledger {index} ({ledgerHash}) —              {hits.length} escrow payment(s) in it cannot be proven and need reconciliation"))
            | some validations =>
                match pass.binary with
                | .error e => ([], .error (Failure.report e))
                | .ok jb =>
                    offerAll
                      (offerDeposit buildDepositProof pass (jb.index "result") validations index)
                      hits

/-- How a payment is offered, once everything a proof needs is there. -/
def Pass.offers (pass : Pass) (index : Nat) : Option (Nat → Except ε SubmitOutcome) := do
  let j ← pass.ledger.toOption
  let ledgerHash ← ((j.index "result").index "ledger_hash").asStr
  let validations ← pass.validations ledgerHash
  let jb ← pass.binary.toOption
  some (offerDeposit buildDepositProof pass (jb.index "result") validations index)

/-- The pass has to be repeated: the node did not answer, or something that a proof of a
listed payment needs is missing, or a payment meets an unarmed boundary.
-/
def Pass.Repeats (pass : Pass) (index : Nat) : Prop :=
  match pass.ledger with
  | .error _ => True
  | .ok j =>
      ∃ idx ∈ findEscrowPayments (j.index "result") escrow,
        ∀ offer, pass.offers buildDepositProof index = some offer →
          (∃ e, offer idx = .error e) ∨ offer idx = .ok .boundaryNotArmed

/-- The enclave's reply on a listed payment settles it. -/
def Pass.SettlesPayment (pass : Pass) (index idx : Nat) : Prop :=
  ∃ j txs offer outcome,
    pass.ledger = .ok j ∧ ledgerTransactions (j.index "result") = some txs
    ∧ pass.offers buildDepositProof index = some offer ∧ offer idx = .ok outcome
    ∧ outcome.settles = true

end Scan

section Scanner

variable (buildDepositProof : Json → Nat → List (List UInt8) → Except String (List UInt8))
  (escrow : String)

/-- The cursor. The ledgers it has moved past and the payments that were settled are kept
for reference.
-/
structure Scanner where
  nextLedger : Option Nat
  passed : List Nat
  settled : List (Nat × Nat)

def Scanner.start : Scanner where
  nextLedger := none
  passed := []
  settled := []

/-- One pass of `run_deposit_scanner`. -/
def Scanner.step (scanner : Scanner) (pass : Pass) : Scanner :=
  match pass.validatedIndex with
  | none => scanner
  | some validated =>
      let start := scanner.nextLedger.getD validated
      if validated < start then { scanner with nextLedger := some start }
      else
        let scan := scanOneLedger buildDepositProof escrow pass start
        let settled :=
          scanner.settled
          ++ (scan.1.filter (fun entry => entry.2.settles)).map (fun entry => (start, entry.1))
        match scan.2 with
        | .ok () => ⟨some (start + 1), scanner.passed ++ [start], settled⟩
        | .error _ => ⟨some start, scanner.passed, settled⟩

/-- Every payment in a ledger that the cursor has moved past is settled. -/
def Scanner.NoneLost (chain : Nat → List Json) (scanner : Scanner) : Prop :=
  ∀ ledger ∈ scanner.passed, ∀ idx ∈ escrowPayments escrow (chain ledger),
    (ledger, idx) ∈ scanner.settled

/-- An answer for a ledger lists its transactions or has no transactions array. -/
def Scanner.Answered (chain : Nat → List Json) (scanner : Scanner) (pass : Pass) : Prop :=
  ∀ validated j txs,
    pass.validatedIndex = some validated → pass.ledger = .ok j →
    ledgerTransactions (j.index "result") = some txs →
    txs = chain (scanner.nextLedger.getD validated)

/-- The pass is repeated, or every payment in its ledger has been settled before or is
listed and settled now.
-/
def Scanner.Settles (chain : Nat → List Json) (scanner : Scanner) (pass : Pass) : Prop :=
  ∀ validated,
    pass.validatedIndex = some validated → scanner.nextLedger.getD validated ≤ validated →
    pass.Repeats buildDepositProof escrow (scanner.nextLedger.getD validated)
    ∨ ∀ idx ∈ escrowPayments escrow (chain (scanner.nextLedger.getD validated)),
        (scanner.nextLedger.getD validated, idx) ∈ scanner.settled
        ∨ pass.SettlesPayment buildDepositProof (scanner.nextLedger.getD validated) idx

end Scanner

/-- A round of offers ends without an error exactly if no offer ends it. -/
theorem offerAll_ok_iff {ε : Type} [Failure ε] (offer : Nat → Except ε SubmitOutcome)
    (hits : List Nat)
    : (offerAll offer hits).2 = .ok ()
      ↔ ∀ idx ∈ hits, ¬ ((∃ e, offer idx = .error e) ∨ offer idx = .ok .boundaryNotArmed) := by
  induction hits with
  | nil => simp [offerAll]
  | cons idx rest ih =>
      cases offered : offer idx with
      | error e => simp [offerAll, offered]
      | ok outcome =>
          cases outcome with
          | boundaryNotArmed => simp [offerAll, offered]
          | _ => simpa [offerAll, offered] using ih

/-- A completed round has offered everything. -/
theorem mem_offerAll {ε : Type} [Failure ε] {offer : Nat → Except ε SubmitOutcome}
    {hits : List Nat}
    (completed : (offerAll offer hits).2 = .ok ()) {idx : Nat} {outcome : SubmitOutcome}
    : (idx, outcome) ∈ (offerAll offer hits).1 ↔ idx ∈ hits ∧ offer idx = .ok outcome := by
  induction hits with
  | nil => simp [offerAll]
  | cons first rest ih =>
      cases offered : offer first with
      | error e => simp [offerAll, offered] at completed
      | ok result =>
          have stays : result ≠ .boundaryNotArmed := by
            intro unarmed
            rw [unarmed] at offered
            simp [offerAll, offered] at completed
          have unfolded : offerAll offer (first :: rest)
              = ((first, result) :: (offerAll offer rest).1, (offerAll offer rest).2) := by
            cases result with
            | boundaryNotArmed => exact absurd rfl stays
            | _ => simp [offerAll, offered]
          rw [unfolded] at completed ⊢
          rw [List.mem_cons, List.mem_cons, ih completed]
          constructor
          · intro given
            rcases given with same | ⟨later, offeredLater⟩
            · obtain ⟨rfl, rfl⟩ := Prod.mk.inj same
              exact ⟨Or.inl rfl, offered⟩
            · exact ⟨Or.inr later, offeredLater⟩
          · intro given
            rcases given with ⟨rfl | later, offeredIdx⟩
            · rw [offered] at offeredIdx
              exact Or.inl (by rw [Except.ok.inj offeredIdx])
            · exact Or.inr ⟨later, offeredIdx⟩

section Scan

variable {ε : Type} [Failure ε]
  {buildDepositProof : Json → Nat → List (List UInt8) → Except ε (List UInt8)}
  {escrow : String} {pass : Pass} {index : Nat}

/-- Everything a scan can do: end early with a report, find nothing, or offer all payments it
found.
-/
theorem scanOneLedger_cases
    : (∃ e, scanOneLedger buildDepositProof escrow pass index = ([], .error (Failure.report e))
        ∧ pass.Repeats buildDepositProof escrow index)
      ∨ ∃ j, pass.ledger = .ok j
          ∧ ((findEscrowPayments (j.index "result") escrow = []
              ∧ scanOneLedger buildDepositProof escrow pass index = ([], .ok ()))
            ∨ ∃ offer, pass.offers buildDepositProof index = some offer
                ∧ scanOneLedger buildDepositProof escrow pass index
                  = offerAll offer (findEscrowPayments (j.index "result") escrow)) := by
  cases answered : pass.ledger with
  | error e =>
      refine Or.inl ⟨e, ?_, ?_⟩
      · simp [scanOneLedger, answered]
      · simp [Pass.Repeats, answered]
  | ok j =>
      by_cases none : findEscrowPayments (j.index "result") escrow = []
      · exact Or.inr ⟨j, rfl, Or.inl ⟨none, by simp [scanOneLedger, answered, none]⟩⟩
      · obtain ⟨first, listed⟩ := List.exists_mem_of_ne_nil _ none
        have missing : pass.offers buildDepositProof index = Option.none
            → pass.Repeats buildDepositProof escrow index := by
          intro unready
          simp only [Pass.Repeats, answered, unready]
          exact ⟨first, listed, fun offer given => by cases given⟩
        cases hashed : ((j.index "result").index "ledger_hash").asStr with
        | none =>
            refine Or.inl ⟨_, by simp [scanOneLedger, answered, none, hashed]; rfl, missing ?_⟩
            simp [Pass.offers, answered, hashed, Except.toOption]
        | some ledgerHash =>
            cases buffered : pass.validations ledgerHash with
            | none =>
                refine Or.inl
                  ⟨_, by simp [scanOneLedger, answered, none, hashed, buffered]; rfl, missing ?_⟩
                simp [Pass.offers, answered, hashed, buffered, Except.toOption]
            | some validations =>
                cases fetched : pass.binary with
                | error e =>
                    refine Or.inl
                      ⟨e, by simp [scanOneLedger, answered, none, hashed, buffered, fetched],
                        missing ?_⟩
                    simp [Pass.offers, answered, fetched, Except.toOption]
                | ok jb =>
                    refine Or.inr ⟨j, rfl, Or.inr ⟨offerDeposit buildDepositProof pass
                      (jb.index "result") validations index, ?_, ?_⟩⟩
                    · simp [Pass.offers, answered, hashed, buffered, fetched, Except.toOption]
                    · simp [scanOneLedger, answered, none, hashed, buffered, fetched]

/-- A ledger that was scanned to the end: the pass is not one to repeat, and a payment found
in it was settled exactly if the reply on it settles it.
-/
theorem scanOneLedger_completed
    (completed : (scanOneLedger buildDepositProof escrow pass index).2 = .ok ())
    : ¬ pass.Repeats buildDepositProof escrow index
      ∧ ∀ j, pass.ledger = .ok j →
          ∀ idx,
            (∃ outcome,
              (idx, outcome) ∈ (scanOneLedger buildDepositProof escrow pass index).1
              ∧ outcome.settles = true)
            ↔ idx ∈ findEscrowPayments (j.index "result") escrow
              ∧ pass.SettlesPayment buildDepositProof index idx := by
  rcases @scanOneLedger_cases ε _ buildDepositProof escrow pass index with
    ⟨e, ended, _⟩ | ⟨j, answered, quiet | busy⟩
  · rw [ended] at completed
    cases completed
  · obtain ⟨nothing, ended⟩ := quiet
    refine ⟨?_, ?_⟩
    · simp [Pass.Repeats, answered, nothing]
    · intro other answeredOther idx
      obtain rfl := Except.ok.inj (answered.symm.trans answeredOther)
      simp [ended, nothing]
  · obtain ⟨offer, ready, ended⟩ := busy
    rw [ended] at completed ⊢
    have goesOn := (offerAll_ok_iff offer _).mp completed
    refine ⟨?_, ?_⟩
    · intro repeats
      simp only [Pass.Repeats, answered] at repeats
      obtain ⟨idx, listed, stops⟩ := repeats
      exact goesOn idx listed (stops offer ready)
    · intro other answeredOther idx
      obtain rfl := Except.ok.inj (answered.symm.trans answeredOther)
      constructor
      · intro given
        rcases given with ⟨outcome, logged, settles⟩
        obtain ⟨listed, offered⟩ := (mem_offerAll completed).mp logged
        cases transactions : ledgerTransactions (j.index "result") with
        | none => simp [findEscrowPayments, transactions] at listed
        | some txs =>
            exact ⟨listed, j, txs, offer, outcome, answered, transactions, ready, offered,
              settles⟩
      · intro given
        rcases given with ⟨listed, _, _, offer', outcome, _, _, ready', offered, settles⟩
        obtain rfl := Option.some.inj (ready.symm.trans ready')
        exact ⟨outcome, (mem_offerAll completed).mpr ⟨listed, offered⟩, settles⟩

/-- A ledger that was not scanned to the end is one to repeat. -/
theorem repeats_of_error {e : ε}
    (ended : (scanOneLedger buildDepositProof escrow pass index).2 = .error e)
    : pass.Repeats buildDepositProof escrow index := by
  rcases @scanOneLedger_cases ε _ buildDepositProof escrow pass index with
    ⟨_, _, repeats⟩ | ⟨j, answered, ⟨_, quiet⟩ | ⟨offer, ready, busy⟩⟩
  · exact repeats
  · rw [quiet] at ended
    cases ended
  · have stopped := mt (offerAll_ok_iff offer _).mpr
      (by rw [← busy, ended]; exact fun ok => (by cases ok))
    simp only [not_forall, not_not] at stopped
    obtain ⟨idx, listed, stops⟩ := stopped
    simp only [Pass.Repeats, answered]
    refine ⟨idx, listed, fun other readyOther => ?_⟩
    rw [← Option.some.inj (ready.symm.trans readyOther)]
    exact stops

/-- After a ledger was scanned to the end against a truthful answer, its payments that are
noted as settled are those that the pass settles.
-/
theorem mem_settled_iff {txs : List Json}
    (completed : (scanOneLedger buildDepositProof escrow pass index).2 = .ok ())
    (truth
      : ∀ j listed, pass.ledger = .ok j →
          ledgerTransactions (j.index "result") = some listed → listed = txs)
    {idx : Nat} (paid : idx ∈ escrowPayments escrow txs)
    : (index, idx)
          ∈ ((scanOneLedger buildDepositProof escrow pass index).1.filter
            (fun entry => entry.2.settles)).map (fun entry => (index, entry.1))
      ↔ pass.SettlesPayment buildDepositProof index idx := by
  have inLog : (index, idx)
        ∈ ((scanOneLedger buildDepositProof escrow pass index).1.filter
          (fun entry => entry.2.settles)).map (fun entry => (index, entry.1))
      ↔ ∃ outcome,
          (idx, outcome) ∈ (scanOneLedger buildDepositProof escrow pass index).1
          ∧ outcome.settles = true := by
    simp [List.mem_map, List.mem_filter]
  rw [inLog]
  cases answered : pass.ledger with
  | error e => simp [scanOneLedger, answered] at completed
  | ok j =>
      rw [(scanOneLedger_completed completed).2 j answered idx]
      refine and_iff_right_of_imp (fun settles => ?_)
      obtain ⟨other, listed, _, _, same, transactions, _⟩ := settles
      obtain rfl := Except.ok.inj (answered.symm.trans same)
      simp only [findEscrowPayments, transactions]
      rw [truth j listed answered transactions]
      exact paid

end Scan

section Passed

variable {buildDepositProof : Json → Nat → List (List UInt8) → Except String (List UInt8)}
  {escrow : String} {pass : Pass} {chain : Nat → List Json} {scanner : Scanner}

/-- Once the cursor moves past a ledger, only that ledger's payments are left to be settled. -/
theorem Scanner.NoneLost.passed_iff (kept : scanner.NoneLost escrow chain) {start : Nat}
    {next : Scanner} (moved : next.passed = scanner.passed ++ [start])
    (grows : scanner.settled ⊆ next.settled)
    : next.NoneLost escrow chain
      ↔ ∀ idx ∈ escrowPayments escrow (chain start), (start, idx) ∈ next.settled := by
  rw [Scanner.NoneLost, moved]
  constructor
  · exact fun lost => lost start (List.mem_append_right _ (List.mem_singleton_self _))
  · intro settles ledger passed idx paid
    rcases List.mem_append.mp passed with old | new
    · exact grows (kept ledger old idx paid)
    · obtain rfl := List.mem_singleton.mp new
      exact settles idx paid

/-- A pass loses no payment exactly if it is repeated or settles what it passes. -/
theorem Scanner.NoneLost.step_iff (answered : scanner.Answered chain pass)
    (kept : scanner.NoneLost escrow chain)
    : (scanner.step buildDepositProof escrow pass).NoneLost escrow chain
      ↔ scanner.Settles buildDepositProof escrow chain pass := by
  cases indexed : pass.validatedIndex with
  | none =>
      simp only [Scanner.step, Scanner.Settles, indexed]
      exact ⟨fun _ _ given => (by cases given), fun _ => kept⟩
  | some validated =>
      generalize startDef : scanner.nextLedger.getD validated = start
      have settlesIff : scanner.Settles buildDepositProof escrow chain pass
          ↔ (start ≤ validated →
              pass.Repeats buildDepositProof escrow start
              ∨ ∀ idx ∈ escrowPayments escrow (chain start),
                  (start, idx) ∈ scanner.settled
                  ∨ pass.SettlesPayment buildDepositProof start idx) := by
        simp only [Scanner.Settles, indexed, Option.some.injEq, forall_eq', startDef]
      rw [settlesIff]
      by_cases ahead : validated < start
      · simp only [Scanner.step, indexed, startDef, if_pos ahead]
        exact ⟨fun _ behind => absurd behind (by omega), fun _ => kept⟩
      · have behind : start ≤ validated := by omega
        simp only [Scanner.step, indexed, startDef, if_neg ahead, behind, forall_const]
        cases ended : (scanOneLedger buildDepositProof escrow pass start).2 with
        | error e =>
            refine ⟨fun _ => Or.inl (repeats_of_error ended), fun _ ledger passed idx listed => ?_⟩
            exact List.mem_append_left _ (kept ledger passed idx listed)
        | ok _ =>
            rw [or_iff_right (scanOneLedger_completed ended).1]
            have truth
                : ∀ j txs, pass.ledger = .ok j →
                    ledgerTransactions (j.index "result") = some txs →
                    txs = chain start := by
              intro j txs answeredJ transactions
              rw [← startDef]
              exact answered validated j txs indexed answeredJ transactions
            rw [kept.passed_iff rfl (List.subset_append_left _ _)]
            refine forall₂_congr (fun idx paid => ?_)
            rw [List.mem_append]
            exact or_congr_right (mem_settled_iff ended truth paid)

end Passed

/-- In every run against answers that list the transactions of a ledger or nothing, the
cursor has moved only past ledgers whose payments are settled, exactly if every pass is
repeated or settles the payments of its ledger that were not settled before.
-/
theorem scanner_loses_none_iff
    (buildDepositProof : Json → Nat → List (List UInt8) → Except String (List UInt8))
    (escrow : String) (chain : Nat → List Json) {passes : List Pass}
    (answered
      : Along (Scanner.step buildDepositProof escrow) (Scanner.Answered chain) Scanner.start
          passes)
    : (∀ front, front <+: passes →
        (front.foldl (Scanner.step buildDepositProof escrow) Scanner.start).NoneLost escrow
          chain)
      ↔ Along (Scanner.step buildDepositProof escrow)
          (Scanner.Settles buildDepositProof escrow chain) Scanner.start passes := by
  have initial : Scanner.start.NoneLost escrow chain :=
    fun ledger passed => absurd passed List.not_mem_nil
  exact Along.states_iff_under
    (fun _ _ answeredPass kept => Scanner.NoneLost.step_iff answeredPass kept) initial answered

/-- A payment of one XRP to the escrow. -/
def samplePayment : Json :=
  .object
    [("TransactionType", .string "Payment"), ("Destination", .string "rEscrow"),
      ("Amount", .string "1000000")]

/-- The payment is in ledger 100, and no other ledger has a transaction. -/
def sampleChain (ledger : Nat) : List Json := if ledger = 100 then [samplePayment] else []

def validatedAnswer (index : UInt64) : Except String Json :=
  .ok (.object [("result", .object [("ledger_index", .number (.posInt index))])])

/-- A pass over ledger 100 in which the enclave gives the reply. -/
def samplePass (reply : EnclaveReply) : Pass where
  probes := [validatedAnswer 100]
  validated := validatedAnswer 100
  ledger :=
    .ok (.object [("result", .object
      [("ledger_hash", .string "AB"),
        ("ledger", .object [("transactions", .array [samplePayment])])])])
  validations := fun _ => some [[1]]
  binary := .ok (.object [("result", .object [])])
  credit := fun _ _ => reply

theorem samplePass_answered (reply : EnclaveReply)
    : Along (Scanner.step (fun _ _ _ => .ok [0]) "rEscrow") (Scanner.Answered sampleChain)
        Scanner.start [samplePass reply] := by
  refine ⟨?_, trivial⟩
  intro validated j txs indexed given transactions
  have isIndex : validated = 100 := (Option.some.inj indexed).symm
  rw [← Except.ok.inj given] at transactions
  rw [isIndex]
  exact (Option.some.inj transactions).symm

/-- A credited payment lets the cursor move on. -/
theorem scanner_loses_none_credited
    : ([samplePass (.ok .null)].foldl (Scanner.step (fun _ _ _ => .ok [0]) "rEscrow")
        Scanner.start).NoneLost "rEscrow" sampleChain := by
  refine (scanner_loses_none_iff (fun _ _ _ => .ok [0]) "rEscrow" sampleChain
    (samplePass_answered _)).mpr ⟨?_, trivial⟩ _ (List.prefix_refl _)
  intro validated indexed _
  have isIndex : validated = 100 := (Option.some.inj indexed).symm
  subst isIndex
  refine Or.inr (fun idx paid => Or.inr ?_)
  exact ⟨_, _, _, _, rfl, rfl, rfl, rfl, rfl⟩

/-- A connection that breaks while the payment is offered loses it: the scan still ends
without an error and the cursor moves past the ledger.
-/
theorem transient_reply_loses_payment
    : Along (Scanner.step (fun _ _ _ => .ok [0]) "rEscrow") (Scanner.Answered sampleChain)
        Scanner.start [samplePass (.error "connection reset by peer")]
      ∧ ¬ ([samplePass (.error "connection reset by peer")].foldl
          (Scanner.step (fun _ _ _ => .ok [0]) "rEscrow") Scanner.start).NoneLost "rEscrow"
          sampleChain := by
  refine ⟨samplePass_answered _, fun kept => ?_⟩
  have settled := kept 100 (by decide +kernel) 0 (by decide +kernel)
  exact absurd settled (by decide +kernel)

end DepositSpv

end PerpDex
