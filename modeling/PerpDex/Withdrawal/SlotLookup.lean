import PerpDex.Withdrawal.Reconcile

/-! Which transaction a consumed slot is attributed to.
The node lists every transaction that affects the escrow, newest first. The lookup takes the
first one with the sequence number, whoever sent it, from a single page.
-/

namespace PerpDex

/-- A validated transaction that affects the escrow. -/
structure HistoryTx where
  account : String
  sequence : UInt32
  hash : String
  ledgerIndex : UInt32
deriving DecidableEq

/-- The `limit` of the request. -/
def accountTxLimit : Nat := 50

/-- An entry of the answer renders the transaction, in one of the shapes the lookup reads. -/
structure Renders (tx : HistoryTx) (entry : Json) : Prop where
  validated : (entry.index "validated").asBool = some true
  account : ((txObject entry).index "Account").asStr = some tx.account
  sequence : ((txObject entry).index "Sequence").asU64 = some tx.sequence.toUInt64
  hash : ((entry.index "hash").asStr <|> ((txObject entry).index "hash").asStr) = some tx.hash
  ledgerIndex
    : ((entry.index "ledger_index").asU64 <|> ((txObject entry).index "ledger_index").asU64
        <|> ((txObject entry).index "inLedger").asU64)
      = some tx.ledgerIndex.toUInt64

/-- The node answers with a page of the history: its newest transactions, at most as many
as were asked for.
-/
structure AnswersPage (history page : List HistoryTx) (answer : Except String Json) : Prop where
  newest : page <+: history
  limited : page.length ≤ accountTxLimit
  listed
    : ∃ r entries,
        answer = .ok r
        ∧ ((r.index "result").index "transactions").asArray = some entries
        ∧ List.Forall₂ Renders page entries

/-- The slot was consumed by this transaction of the escrow and by no other of its own. -/
structure ConsumedBy (history : List HistoryTx) (escrow : String) (s : UInt32)
    (tx : HistoryTx) : Prop where
  validated : tx ∈ history
  own : tx.account = escrow
  atSlot : tx.sequence = s
  once : ∀ other ∈ history, other.account = escrow → other.sequence = s → other = tx
  identified : (history.map HistoryTx.hash).Nodup

/-- The transaction is on the page and no newer one on it carries the sequence number. -/
def LeadsPage (page : List HistoryTx) (s : UInt32) (tx : HistoryTx) : Prop :=
  ∃ newer older, page = newer ++ tx :: older ∧ ∀ other ∈ newer, other.sequence ≠ s

/-- An entry is picked exactly if it renders a transaction with the sequence number. -/
theorem Renders.txAtSequence {tx : HistoryTx} {entry : Json} (renders : Renders tx entry)
    (s : UInt32)
    : txAtSequence s entry = if tx.sequence = s then some (tx.hash, tx.ledgerIndex) else none := by
  have sameNumber : tx.sequence.toUInt64 = s.toUInt64 ↔ tx.sequence = s := by
    rw [← UInt64.toNat_inj, UInt32.toNat_toUInt64, UInt32.toNat_toUInt64, UInt32.toNat_inj]
  simp only [PerpDex.txAtSequence, renders.validated, renders.sequence, renders.hash,
    renders.ledgerIndex, ne_eq, not_true_eq_false, if_false, Option.some.injEq, sameNumber]
  split_ifs with same
  · simp
  · rfl

/-- The lookup over a rendered page. -/
theorem findSome?_renders {page : List HistoryTx} {entries : List Json}
    (renders : List.Forall₂ Renders page entries) (s : UInt32)
    : entries.findSome? (txAtSequence s)
      = (page.find? (fun tx => tx.sequence = s)).map
          (fun tx => (tx.hash, tx.ledgerIndex)) := by
  induction renders with
  | nil => rfl
  | @cons tx entry page entries rendered _ ih =>
      rw [List.findSome?_cons, rendered.txAtSequence s, List.find?_cons]
      by_cases same : tx.sequence = s
      · simp [same]
      · simp [same, ih]

/-- The first of a list with a property. -/
theorem find?_sequence_iff {page : List HistoryTx} {s : UInt32} {tx : HistoryTx}
    (atSlot : tx.sequence = s)
    : page.find? (fun tx => tx.sequence = s) = some tx ↔ LeadsPage page s tx := by
  rw [List.find?_eq_some_iff_append]
  constructor
  · intro given
    rcases given with ⟨_, newer, older, split, others⟩
    exact ⟨newer, older, split, fun other member => by simpa using others other member⟩
  · intro given
    rcases given with ⟨newer, older, split, others⟩
    exact ⟨by simpa using atSlot, newer, older, split,
      fun other member => by simpa using others other member⟩

section Lookup

variable (crypto : Crypto)
  (buildDepositProof : Json → Nat → List (List UInt8) → Except String (List UInt8))

/-- The pass over an entry, or what follows its first reply, submits the proof. -/
def Submits (sequence : UInt32) (stage : ReconcileStage) (proof : List UInt8) : Prop :=
  stage.proof = some proof ∨ ∃ reply, (stage.answered sequence reply).proof = some proof

/-- The proof was built for the transaction of a fetched ledger whose id is the hash. -/
def ProvesTx (hash : String) (proof : List UInt8) : Prop :=
  ∃ target ledger txs index entry validations,
    decodeTxId hash = some target
    ∧ ((Json.index ledger "ledger").index "transactions").asArray = some txs
    ∧ txs[index]? = some entry
    ∧ hasTxId crypto target entry = true
    ∧ buildDepositProof ledger index validations = .ok proof

/-- A consumed slot submits proofs of the transaction the lookup found only. -/
theorem reconcileConsumedSlot_proves {entry : PendingWithdrawal} {answers : XrplAnswers}
    {hash : String} {ledgerIndex : UInt32} {proof : List UInt8}
    (found
      : findValidatedTxAtSequence answers.accountTx entry.sequence
        = .ok (some (hash, ledgerIndex)))
    (carries
      : (reconcileConsumedSlot crypto buildDepositProof entry answers).proof = some proof)
    : ProvesTx crypto buildDepositProof hash proof := by
  simp only [reconcileConsumedSlot, found] at carries
  cases decoded : decodeTxId hash with
  | none => simp [decoded, ReconcileStage.proof] at carries
  | some target =>
      simp only [decoded] at carries
      cases fetched : fetchFullLedger (answers.ledger ledgerIndex) with
      | error e => simp [fetched, ReconcileStage.proof] at carries
      | ok ledger =>
          simp only [fetched] at carries
          cases located : findTargetIndex crypto ledger target with
          | none => simp [located, ReconcileStage.proof] at carries
          | some index =>
              simp only [located] at carries
              split at carries
              · simp [ReconcileStage.proof] at carries
              · split at carries
                · simp [ReconcileStage.proof] at carries
                · rename_i validations _
                  split at carries
                  · simp [ReconcileStage.proof] at carries
                  · rename_i built
                    obtain ⟨txs, listed, position⟩ := Option.bind_eq_some_iff.mp located
                    obtain ⟨inside, same, _⟩ := List.findIdx?_eq_some_iff_getElem.mp position
                    rw [← Option.some.inj carries]
                    exact ⟨target, ledger, txs, index, _, validations, decoded, listed,
                      List.getElem?_eq_getElem inside, same, built⟩

/-- The lookup attributes the slot to the transaction that consumed it, and the reconcile
pass submits proofs of that transaction only, exactly if the transaction is on the answered
page and no newer one there has the same sequence number.
-/
theorem slot_attribution_iff {history page : List HistoryTx} {escrow : String} {s : UInt32}
    {tx : HistoryTx} {answer : Except String Json} (faithful : AnswersPage history page answer)
    (consumed : ConsumedBy history escrow s tx)
    : (findValidatedTxAtSequence answer s = .ok (some (tx.hash, tx.ledgerIndex))
        ∧ ∀ entry answers proof,
            entry.escrow = escrow → entry.sequence = s → answers.accountTx = answer →
            Submits s (reconcileConsumedSlot crypto buildDepositProof entry answers) proof →
            ProvesTx crypto buildDepositProof tx.hash proof)
      ↔ LeadsPage page s tx := by
  obtain ⟨r, entries, rfl, listed, renders⟩ := faithful.listed
  have lookup : findValidatedTxAtSequence (.ok r) s
      = .ok ((page.find? (fun tx => tx.sequence = s)).map
          (fun tx => (tx.hash, tx.ledgerIndex))) := by
    rw [← findSome?_renders renders]
    simp only [findValidatedTxAtSequence, listed, bind, Except.bind]
  rw [← find?_sequence_iff consumed.atSlot]
  constructor
  · intro attributed
    rw [lookup] at attributed
    obtain ⟨found, first, sameHash⟩ :=
      Option.map_eq_some_iff.mp (Except.ok.inj attributed.1)
    rw [first]
    have onPage : found ∈ page := List.mem_of_find?_eq_some first
    have inHistory : found ∈ history := faithful.newest.subset onPage
    exact congrArg some (List.inj_on_of_nodup_map consumed.identified inHistory
      consumed.validated (Prod.mk.inj sameHash).1)
  · intro first
    have found : findValidatedTxAtSequence (.ok r) s
        = .ok (some (tx.hash, tx.ledgerIndex)) := by
      rw [lookup, first]
      rfl
    refine ⟨found, ?_⟩
    intro entry answers proof _ sameSlot sameAnswer submits
    have foundHere : findValidatedTxAtSequence answers.accountTx entry.sequence
        = .ok (some (tx.hash, tx.ledgerIndex)) := by
      rw [sameAnswer, sameSlot]
      exact found
    refine reconcileConsumedSlot_proves crypto buildDepositProof foundHere ?_
    rcases submits with direct | ⟨reply, later⟩
    · exact direct
    · exact ReconcileStage.answered_proof later

end Lookup

/-- A transaction as `account_tx` lists it. -/
def historyEntry (tx : HistoryTx) : Json :=
  .object
    [("validated", .bool true), ("hash", .string tx.hash),
      ("ledger_index", .number (.posInt tx.ledgerIndex.toUInt64)),
      ("tx", .object
        [("Account", .string tx.account), ("Sequence", .number (.posInt tx.sequence.toUInt64))])]

def historyAnswer (page : List HistoryTx) : Except String Json :=
  .ok (.object [("result", .object [("transactions", .array (page.map historyEntry))])])

theorem historyAnswer_page {history page : List HistoryTx} (newest : page <+: history)
    (limited : page.length ≤ accountTxLimit)
    : AnswersPage history page (historyAnswer page) := by
  refine ⟨newest, limited, _, _, rfl, rfl, ?_⟩
  rw [List.forall₂_map_right_iff, List.forall₂_same]
  exact fun tx _ => ⟨rfl, rfl, rfl, rfl, rfl⟩

/-- The escrow's payment with sequence 7, and a depositor's payment to the escrow that has
the same sequence number in another account.
-/
def escrowPayment : HistoryTx :=
  ⟨"rEscrow", 7, "11A6E9B34573D15BD0A0E8E2DB5B3BC7B2F1E5D1C5B9C7E0A6E4F3D2C1B0A99E", 110⟩

def depositorPayment : HistoryTx :=
  ⟨"rDepositor", 7, "22B7FAC45684E26CE1B1F9F3EC6C4CD8C3A2F6E2D6CAD8F1B7F5A4E3D2C1BAAF", 120⟩

/-- Without a newer transaction in the way the slot is attributed to the escrow's payment. -/
theorem slot_attribution_alone
    : findValidatedTxAtSequence (historyAnswer [escrowPayment]) 7
      = .ok (some (escrowPayment.hash, escrowPayment.ledgerIndex)) := by
  have consumed : ConsumedBy [escrowPayment] "rEscrow" 7 escrowPayment :=
    ⟨by simp, rfl, rfl, by simp, by simp⟩
  have faithful := historyAnswer_page (List.prefix_refl [escrowPayment]) (by decide)
  have leads : LeadsPage [escrowPayment] 7 escrowPayment := ⟨[], [], rfl, by simp⟩
  exact ((slot_attribution_iff sampleCrypto (fun _ _ _ => .error "no ledger") faithful
    consumed).mpr leads).1

/-- A later deposit with the same sequence number takes its place. -/
theorem foreign_sequence_takes_slot
    : AnswersPage [depositorPayment, escrowPayment] [depositorPayment, escrowPayment]
        (historyAnswer [depositorPayment, escrowPayment])
      ∧ ConsumedBy [depositorPayment, escrowPayment] "rEscrow" 7 escrowPayment
      ∧ findValidatedTxAtSequence (historyAnswer [depositorPayment, escrowPayment]) 7
        = .ok (some (depositorPayment.hash, depositorPayment.ledgerIndex)) := by
  refine ⟨historyAnswer_page (List.prefix_refl _) (by decide), ?_, by decide +kernel⟩
  refine ⟨by simp, rfl, rfl, ?_, by decide⟩
  intro other member own _
  rcases List.mem_cons.mp member with rfl | later
  · exact absurd own (by decide)
  · exact List.mem_singleton.mp later

end PerpDex
