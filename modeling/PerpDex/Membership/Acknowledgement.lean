import PerpDex.Membership.Ceremony

/-! The statuses an apply-broadcast is summed up in, and what they say about the cluster.
Acknowledgements are counted by the name they carry; nothing ties a name to its publisher.
-/

namespace PerpDex

namespace Membership

/-- `LibP2PMembershipApplier::new`: the nodes a broadcast waits for. -/
def expectedNodes (clusterSize : Nat) : Nat := max clusterSize 1

/-- The successes among the acknowledgements of a window. -/
def okCount (expected : Nat) (window : List SigningMessage) : Nat :=
  ((collectAcks expected [] window).filter NodeSealResult.ok).length

structure NodeConfirmResult where
  node : String
  ok : Bool
  error : Option String
deriving DecidableEq

/-- `apply_confirmation`: the results of recording a projection. -/
def confirmResults (expected : Nat) (window : List SigningMessage) : List NodeConfirmResult :=
  let acks := (collectAcks expected [] window).map
    (fun ack => (⟨ack.node, ack.ok, ack.error⟩ : NodeConfirmResult))
  match shortfallError expected (okCount expected window) with
  | some text => acks ++ [⟨"<cluster>", false, some text⟩]
  | none => acks

structure ProjectionOutcome where
  txHash : Digest
  ledgerIndex : UInt64
  nodeResults : List NodeConfirmResult
deriving DecidableEq

/-- Every node is reported to have recorded the confirmation. -/
def ProjectionOutcome.allRecorded (outcome : ProjectionOutcome) : Bool :=
  !outcome.nodeResults.isEmpty && outcome.nodeResults.all NodeConfirmResult.ok

structure GovernanceOutcome where
  op : UInt8
  mrenclave : Digest
  allowlistEpoch : UInt64
  reproSigners : Nat
  nodeResults : List NodeSealResult
deriving DecidableEq

/-- Every node is reported to have applied the allowlist operation. -/
def GovernanceOutcome.allApplied (outcome : GovernanceOutcome) : Bool :=
  !outcome.nodeResults.isEmpty && outcome.nodeResults.all NodeSealResult.ok

/-- What `apply_unl_policy` returns. -/
structure UnlPolicyApplied where
  applied : Nat
  expected : Nat
  failures : List String
deriving DecidableEq

def applyUnlPolicy (expected : Nat) (window : List SigningMessage) : UnlPolicyApplied :=
  let acks := collectAcks expected [] window
  { applied := (acks.filter NodeSealResult.ok).length
    expected
    failures :=
      (acks.filter (fun ack => !ack.ok)).map (fun ack => ack.node ++ ": " ++ ack.error.getD "") }

/-- The reason why a policy is not on the whole cluster. -/
def applyShortfall (result : UnlPolicyApplied) : Option String :=
  if result.expected ≤ result.applied then none
  else
    let silent := result.expected - (result.applied + result.failures.length)
    some
      (s!"UNL policy applied on {result.applied}/{result.expected} nodes - the cluster is now "
        ++ "SPLIT and the policy chains will not rejoin. Refused: ["
        ++ "; ".intercalate result.failures ++ s!"]. Silent (no ack): {silent}. Retry: the "
        ++ "enclave's epoch chaining makes re-running safe and idempotent.")

-----------------------------------------------------------------------------------------
-- What a status says
-----------------------------------------------------------------------------------------

/-- No status that can be read off a window overstates the broadcast: success is reported
only where every node of the roster has applied the payload.
-/
structure StatusTruthful (roster : Finset String) (applied : String → Prop)
    (window : List SigningMessage) : Prop where
  sealed
    : ∀ outcome : MembershipChangeOutcome,
        outcome.nodeResults = sealResults (expectedNodes roster.card) window
        → outcome.allSealed = true → ∀ node ∈ roster, applied node
  recorded
    : ∀ outcome : ProjectionOutcome,
        outcome.nodeResults = confirmResults (expectedNodes roster.card) window
        → outcome.allRecorded = true → ∀ node ∈ roster, applied node
  governed
    : ∀ outcome : GovernanceOutcome,
        outcome.nodeResults = sealResults (expectedNodes roster.card) window
        → outcome.allApplied = true → ∀ node ∈ roster, applied node
  policy
    : applyShortfall (applyUnlPolicy (expectedNodes roster.card) window) = none
      → ∀ node ∈ roster, applied node

/-- The error of an answer that is given under a name. -/
def answerAs (name : String) : SigningMessage → Option (Option String)
  | .response signerXrplAddress _ _ error =>
      if ackName signerXrplAddress = name then some error else none
  | .other => none

/-- The name of an answer. -/
def answeringName : SigningMessage → Option String
  | .response signerXrplAddress _ _ _ => some (ackName signerXrplAddress)
  | .other => none

/-- The names under which the first answer is a success. -/
def acknowledged (window : List SigningMessage) : Finset String :=
  (window.filterMap answeringName).toFinset.filter
    (fun name => window.findSome? (answerAs name) = some none)

/-- A success is published only by a node of the roster that applied the payload, under its
own name.
-/
def Genuine (roster : Finset String) (applied : String → Prop) : SigningMessage → Prop
  | .response signerXrplAddress _ _ none =>
      ackName signerXrplAddress ∈ roster ∧ applied (ackName signerXrplAddress)
  | _ => True

theorem mem_acknowledged {window : List SigningMessage} {name : String}
    : name ∈ acknowledged window ↔ window.findSome? (answerAs name) = some none := by
  rw [acknowledged, Finset.mem_filter, List.mem_toFinset]
  refine ⟨And.right, fun first => ⟨?_, first⟩⟩
  obtain ⟨message, member, answer⟩ := List.exists_of_findSome?_eq_some first
  refine List.mem_filterMap.mpr ⟨message, member, ?_⟩
  cases message with
  | other => cases answer
  | response signerXrplAddress derSignature compressedPubkey error =>
      rw [answerAs] at answer
      by_cases same : ackName signerXrplAddress = name
      · exact congrArg some same
      · rw [if_neg same] at answer
        cases answer

/-- Under another name than that of the first answer, the first answer comes later. -/
theorem mem_acknowledged_cons {window : List SigningMessage} {message : SigningMessage}
    {name : String} (otherwise : answerAs name message = none)
    : name ∈ acknowledged (message :: window) ↔ name ∈ acknowledged window := by
  rw [mem_acknowledged, mem_acknowledged, List.findSome?_cons, otherwise]

/-- The name of the first answer succeeds if that answer does. -/
theorem mem_acknowledged_head {window : List SigningMessage} {message : SigningMessage}
    {name : String} {error : Option String} (answer : answerAs name message = some error)
    : name ∈ acknowledged (message :: window) ↔ error = none := by
  rw [mem_acknowledged, List.findSome?_cons, answer]
  exact Option.some_inj

/-- The names of a list of acknowledgements. -/
def listed (acks : List NodeSealResult) : Finset String :=
  (acks.map NodeSealResult.node).toFinset

/-- The names that succeed after an answer under a new name. -/
theorem acknowledged_cons_sdiff (signerXrplAddress : String)
    (derSignature compressedPubkey error : Option String) (window : List SigningMessage)
    {known : Finset String} (unlisted : ackName signerXrplAddress ∉ known)
    : (acknowledged
          (.response signerXrplAddress derSignature compressedPubkey error :: window)
          \ known).card
      = (if error = none then 1 else 0)
        + (acknowledged window \ insert (ackName signerXrplAddress) known).card := by
  have answer : ∀ name, name ≠ ackName signerXrplAddress
      → answerAs name
          (.response signerXrplAddress derSignature compressedPubkey error) = none :=
    fun name other => if_neg other.symm
  have first : answerAs (ackName signerXrplAddress)
      (.response signerXrplAddress derSignature compressedPubkey error) = some error :=
    if_pos rfl
  have later : ackName signerXrplAddress
      ∉ acknowledged window \ insert (ackName signerXrplAddress) known := by
    simp
  by_cases success : error = none
  · rw [if_pos success, Nat.add_comm, ← Finset.card_insert_of_notMem later]
    refine congrArg Finset.card (Finset.ext fun name => ?_)
    by_cases same : name = ackName signerXrplAddress
    · subst same
      have head : ackName signerXrplAddress ∈ acknowledged
          (.response signerXrplAddress derSignature compressedPubkey error :: window) :=
        (mem_acknowledged_head first).mpr success
      exact iff_of_true (Finset.mem_sdiff.mpr ⟨head, unlisted⟩) (Finset.mem_insert_self _ _)
    · simp [mem_acknowledged_cons (answer name same), same]
  · rw [if_neg success, Nat.zero_add]
    refine congrArg Finset.card (Finset.ext fun name => ?_)
    by_cases same : name = ackName signerXrplAddress
    · subst same
      simp [mem_acknowledged_head first, success]
    · simp [mem_acknowledged_cons (answer name same), same]

/-- Enough successes are counted exactly if enough names answer first with a success.
Witness: induction on the window; a name that is listed already counts no more.
-/
theorem le_collectAcks_iff (expected : Nat) (acks : List NodeSealResult)
    (window : List SigningMessage)
    : expected ≤ ((collectAcks expected acks window).filter NodeSealResult.ok).length
      ↔ expected
        ≤ (acks.filter NodeSealResult.ok).length + (acknowledged window \ listed acks).card := by
  induction window generalizing acks with
  | nil => simp [collectAcks, acknowledged]
  | cons message rest ih =>
      by_cases enough : expected ≤ (acks.filter NodeSealResult.ok).length
      · have stopped : collectAcks expected acks (message :: rest) = acks := by
          cases message <;> rw [collectAcks, if_pos enough]
        rw [stopped]
        exact iff_of_true enough (enough.trans (Nat.le_add_right _ _))
      · cases message with
        | other =>
            have same : acknowledged (.other :: rest) = acknowledged rest :=
              Finset.ext fun name => mem_acknowledged_cons rfl
            rw [collectAcks, if_neg enough, same]
            exact ih acks
        | response signerXrplAddress derSignature compressedPubkey error =>
            rw [collectAcks, if_neg enough]
            dsimp only
            by_cases known : ackName signerXrplAddress ∈ listed acks
            · have repeated
                  : acks.any (fun ack => ack.node = ackName signerXrplAddress) = true := by
                simpa [listed] using known
              rw [if_pos repeated, ih acks]
              refine iff_of_eq (congrArg (fun names : Finset String => expected ≤ _ + names.card)
                (Finset.ext fun name => ?_))
              by_cases same : name = ackName signerXrplAddress
              · subst same
                simp [known]
              · have otherwise : answerAs name
                    (.response signerXrplAddress derSignature compressedPubkey error) = none :=
                  if_neg (Ne.symm same)
                simp [mem_acknowledged_cons otherwise]
            · have fresh
                  : ¬ acks.any (fun ack => ack.node = ackName signerXrplAddress) = true := by
                simpa [listed] using known
              have names : listed (acks ++ [⟨ackName signerXrplAddress, error.isNone, error⟩])
                  = insert (ackName signerXrplAddress) (listed acks) := by
                rw [listed, List.map_append, List.toFinset_append, Finset.union_comm]
                rfl
              rw [if_neg fresh, ih, names, acknowledged_cons_sdiff _ _ _ _ _ known]
              cases error with
              | none => simp [Nat.add_assoc]
              | some reason => simp

/-- The count of a whole window. -/
theorem le_okCount_iff (expected : Nat) (window : List SigningMessage)
    : expected ≤ okCount expected window ↔ expected ≤ (acknowledged window).card := by
  rw [okCount, le_collectAcks_iff]
  simp [listed]

/-- The policy broadcast is reported complete exactly if enough names succeed. -/
theorem applyShortfall_eq_none_iff (expected : Nat) (window : List SigningMessage)
    : applyShortfall (applyUnlPolicy expected window) = none
      ↔ expected ≤ (acknowledged window).card := by
  rw [← le_okCount_iff]
  by_cases enough : expected ≤ okCount expected window
  · exact iff_of_true (if_pos enough) enough
  · refine iff_of_false ?_ enough
    have short : ¬ (applyUnlPolicy expected window).expected
        ≤ (applyUnlPolicy expected window).applied := enough
    rw [applyShortfall, if_neg short]
    simp

/-- Results without a failed entry need enough names that succeed. -/
theorem le_acknowledged_of_sealResults {expected : Nat} {window : List SigningMessage}
    (allOk : (sealResults expected window).all NodeSealResult.ok = true)
    : expected ≤ (acknowledged window).card := by
  rw [← le_okCount_iff]
  by_contra short
  have text : shortfallError expected (okCount expected window) ≠ none := by
    rw [shortfallError, if_pos (Nat.not_le.mp short)]
    simp
  obtain ⟨text, isText⟩ := Option.ne_none_iff_exists'.mp text
  rw [okCount] at isText
  simp [sealResults, isText] at allOk

/-- A confirmation is counted like a seal. -/
theorem confirmResults_all_ok (expected : Nat) (window : List SigningMessage)
    : (confirmResults expected window).all NodeConfirmResult.ok
      = (sealResults expected window).all NodeSealResult.ok := by
  rw [confirmResults, sealResults, okCount]
  cases shortfallError expected
      ((collectAcks expected [] window).filter NodeSealResult.ok).length with
  | none => simp [List.all_map, Function.comp_def]
  | some text => simp [List.all_map]

/-- Success is reported of a window exactly if enough names answer first with a success. -/
theorem statusTruthful_iff_count (roster : Finset String) (applied : String → Prop)
    (window : List SigningMessage)
    : StatusTruthful roster applied window
      ↔ (expectedNodes roster.card ≤ (acknowledged window).card
        → ∀ node ∈ roster, applied node) := by
  constructor
  · intro truthful enough
    exact truthful.policy ((applyShortfall_eq_none_iff _ window).mpr enough)
  · intro sound
    refine ⟨?_, ?_, ?_, ?_⟩
    · intro outcome results success
      rw [MembershipChangeOutcome.allSealed, results, Bool.and_eq_true] at success
      exact sound (le_acknowledged_of_sealResults success.2)
    · intro outcome results success
      rw [ProjectionOutcome.allRecorded, results, Bool.and_eq_true] at success
      exact sound (le_acknowledged_of_sealResults (confirmResults_all_ok _ window ▸ success.2))
    · intro outcome results success
      rw [GovernanceOutcome.allApplied, results, Bool.and_eq_true] at success
      exact sound (le_acknowledged_of_sealResults success.2)
    · intro complete
      exact sound ((applyShortfall_eq_none_iff _ window).mp complete)

/-- With genuine answers only nodes that applied are acknowledged. -/
theorem applied_of_mem_acknowledged {roster : Finset String} {applied : String → Prop}
    {window : List SigningMessage} (genuine : ∀ message ∈ window, Genuine roster applied message)
    {name : String} (success : name ∈ acknowledged window)
    : name ∈ roster ∧ applied name := by
  obtain ⟨message, member, answer⟩ :=
    List.exists_of_findSome?_eq_some (mem_acknowledged.mp success)
  have shown := genuine message member
  cases message with
  | other => cases answer
  | response signerXrplAddress derSignature compressedPubkey error =>
      rw [answerAs] at answer
      by_cases same : ackName signerXrplAddress = name
      · rw [if_pos same] at answer
        rw [Option.some_inj.mp answer, Genuine, same] at shown
        exact shown
      · rw [if_neg same] at answer
        cases answer

/-- No status overstates a broadcast exactly if every node applied, or fewer names than
nodes are expected answer first with a success. Where every success is genuine none does.
-/
theorem statusTruthful_iff (roster : Finset String) (applied : String → Prop)
    (window : List SigningMessage)
    : (StatusTruthful roster applied window
        ↔ (∀ node ∈ roster, applied node)
          ∨ (acknowledged window).card < expectedNodes roster.card)
      ∧ ((∀ message ∈ window, Genuine roster applied message)
        → StatusTruthful roster applied window) := by
  rw [statusTruthful_iff_count]
  refine ⟨?_, ?_⟩
  · rw [← Nat.not_le]
    constructor
    · intro sound
      by_cases enough : expectedNodes roster.card ≤ (acknowledged window).card
      · exact .inl (sound enough)
      · exact .inr enough
    · rintro (all | short) enough
      · exact all
      · exact absurd enough short
  · intro genuine enough node member
    have inRoster : acknowledged window ⊆ roster :=
      fun name success => (applied_of_mem_acknowledged genuine success).1
    have whole : acknowledged window = roster :=
      Finset.eq_of_subset_of_card_le inRoster ((Nat.le_max_left _ _).trans enough)
    rw [← whole] at member
    exact (applied_of_mem_acknowledged genuine member).2

/-- A success published under a name. -/
def successAs (name : String) : SigningMessage := .response name none none none

/-- Two answers that anyone may have published stand for a cluster of which no node applied
the payload.
-/
theorem statusTruthful_forged
    : ¬ StatusTruthful {"rAaa", "rBbb"} (fun _ => False) [successAs "rAaa", successAs "rX"] := by
  intro truthful
  refine truthful.sealed ⟨0, List.Vector.replicate 32 0, _, ""⟩ rfl ?_ "rAaa" (by simp)
  decide +kernel

end Membership

end PerpDex
