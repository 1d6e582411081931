import PerpDex.Lib.Except
import PerpDex.Lib.StableSort
import PerpDex.Membership.Statement

/-! One round of FROST signing: nonces are gathered and make up the signer set, partial
signatures are gathered over that set, and both are handed to the aggregator.
The set is in canonical order, whatever order the answers come in. The partial signatures are
only counted, sorted and looked up in the set, so they line up with it as long as no signer's
is there twice.
-/

namespace PerpDex.Frost

open PerpDex.Membership StableSort

-----------------------------------------------------------------------------------------
-- Signer sets
-----------------------------------------------------------------------------------------

/-- A contribution and the signer it belongs to. -/
structure Contribution (size : Nat) where
  signerId : UInt32
  bytes : Bytes size
deriving DecidableEq

/-- A serialized public nonce. -/
abbrev Nonce := Contribution 66

/-- A serialized partial signature. -/
abbrev Partial := Contribution 32

def maxSignersPerRound : Nat := 16

/-- The ids of contributions, as they are listed. -/
def ids {size : Nat} (contributions : List (Contribution size)) : List UInt32 :=
  contributions.map Contribution.signerId

/-- A signer set in canonical order. -/
structure SignerSet where
  nonces : List Nonce
  nonempty : nonces ≠ []
  bounded : nonces.length ≤ maxSignersPerRound
  ordered : nonces.Pairwise (fun first second => first.signerId < second.signerId)

/-- Two neighbours with one id. -/
def hasDuplicate (nonces : List Nonce) : Bool :=
  (nonces.zip nonces.tail).any (fun window => window.1.signerId == window.2.signerId)

/-- Sorted ids without equal neighbours increase. -/
theorem pairwise_lt_of_not_hasDuplicate {nonces : List Nonce}
    (sorted : nonces.Pairwise (fun first second => first.signerId ≤ second.signerId))
    (distinct : hasDuplicate nonces = false)
    : nonces.Pairwise (fun first second => first.signerId < second.signerId) := by
  induction nonces with
  | nil => exact .nil
  | cons first rest ih =>
      obtain ⟨least, later⟩ := List.pairwise_cons.mp sorted
      cases rest with
      | nil => exact List.pairwise_singleton _ first
      | cons second others =>
          obtain ⟨differ, distinct⟩ := Bool.or_eq_false_iff.mp distinct
          have increasing := ih later distinct
          have below : first.signerId < second.signerId :=
            Std.lt_of_le_of_ne (least second List.mem_cons_self) (by simpa using differ)
          refine .cons (fun other member => ?_) increasing
          rcases List.mem_cons.mp member with rfl | member
          · exact below
          · exact Std.lt_trans below ((List.pairwise_cons.mp increasing).1 other member)

theorem sorted_ne_nil {nonces : List Nonce} (nonempty : nonces ≠ [])
    : sortBy Contribution.signerId nonces ≠ [] := by
  intro nothing
  have perm := sortBy_perm Contribution.signerId nonces
  rw [nothing] at perm
  exact nonempty perm.nil_eq.symm

theorem length_sorted_le {nonces : List Nonce}
    (few : ¬ maxSignersPerRound < nonces.length)
    : (sortBy Contribution.signerId nonces).length ≤ maxSignersPerRound := by
  rw [(sortBy_perm Contribution.signerId nonces).length_eq]
  exact Nat.not_lt.mp few

namespace SignerSet

/-- Checks and sorts. -/
def new (nonces : List Nonce) : Except String SignerSet :=
  if nothing : nonces = [] then .error "FROST signer set is empty"
  else if many : maxSignersPerRound < nonces.length then
    .error (s!"FROST signer set has {nonces.length} signers, above the enclave request-body "
      ++ s!"ceiling of {maxSignersPerRound}")
  else if repeated : hasDuplicate (sortBy Contribution.signerId nonces) = true then
    .error "FROST signer set contains a duplicate signer_id"
  else .ok {
    nonces := sortBy Contribution.signerId nonces
    nonempty := sorted_ne_nil nothing
    bounded := length_sorted_le many
    ordered := pairwise_lt_of_not_hasDuplicate (sortBy_pairwise Contribution.signerId nonces)
      (Bool.eq_false_iff.mpr repeated)
  }

def len (set : SignerSet) : Nat := set.nonces.length

def signerIds (set : SignerSet) : List UInt32 := ids set.nonces

def contains (set : SignerSet) (signerId : UInt32) : Bool :=
  set.nonces.any (fun nonce => nonce.signerId == signerId)

end SignerSet

-----------------------------------------------------------------------------------------
-- A round
-----------------------------------------------------------------------------------------

/-- What gathers contributions, as its answers. -/
structure FrostGatherer where
  gatherNonces : Bytes 32 → Except String (List Nonce)
  gatherPartials : Bytes 32 → SignerSet → Except String (List Partial)
  expectedParticipants : Nat

/-- The arguments of `sig_agg`. -/
structure AggCall where
  msg32 : Bytes 32
  set : SignerSet
  partials : List Partial

structure FrostRoundOutcome where
  signature : Bytes 64
  signerIds : List UInt32
  verified : Bool

/-- What a round does: whether it calls `sig_agg` and with what, and how it ends. -/
structure Round where
  aggregated : Option AggCall
  outcome : Except String FrostRoundOutcome

/-- The first partial signature of a signer outside the set. -/
def stray (set : SignerSet) (partials : List Partial) : Option Partial :=
  partials.find? (fun answer => !set.contains answer.signerId)

/-- The round up to the call of `sig_agg`. -/
def gather (inFlight : Bool) (gatherer : FrostGatherer) (msg32 : Bytes 32) (threshold : Nat)
    : Except String AggCall :=
  if inFlight then
    .error ("a FROST round is already in flight; refusing to start a second one (a concurrent "
      ++ "round would overwrite this signer's live nonce and silently invalidate both rounds)")
  else if gatherer.expectedParticipants < threshold then
    .error (s!"FROST round needs at least the threshold of {threshold} participants, and the "
      ++ s!"gatherer intends to ask only {gatherer.expectedParticipants}")
  else do
    let nonces ← (gatherer.gatherNonces msg32).mapError
      (fun cause => s!"FROST pass 1 (nonces) failed: {cause}")
    let set ← SignerSet.new nonces
    if set.len < threshold then
      .error s!"FROST round gathered {set.len} nonces, below the threshold of {threshold}"
    else
      let partials ← (gatherer.gatherPartials msg32 set).mapError
        (fun cause => s!"FROST pass 2 (partial signatures) failed: {cause}")
      match stray set partials with
      | some answer =>
          .error (s!"signer {answer.signerId} produced a partial signature but is not in the "
            ++ "signer set")
      | none =>
          if partials.length ≠ set.len then
            .error (s!"FROST round gathered {partials.length} partial signatures for a set of "
              ++ s!"{set.len}")
          else .ok { msg32, set, partials := sortBy Contribution.signerId partials }

/-- The round. The aggregator and the independent verification are parameters. -/
def runRound (sigAgg : AggCall → Except String (Bytes 64))
    (verifyBip340 : Bytes 32 → Bytes 64 → Bytes 32 → Bool) (inFlight : Bool)
    (gatherer : FrostGatherer) (msg32 : Bytes 32) (threshold : Nat) (groupPubkeyXonly : Bytes 32)
    : Round :=
  match gather inFlight gatherer msg32 threshold with
  | .error message => { aggregated := none, outcome := .error message }
  | .ok call => {
      aggregated := some call
      outcome := do
        let signature ← (sigAgg call).mapError (fun cause => s!"FROST sig_agg failed: {cause}")
        .ok {
          signature
          signerIds := call.set.signerIds
          verified := verifyBip340 msg32 signature groupPubkeyXonly
        }
    }

-----------------------------------------------------------------------------------------
-- Alignment
-----------------------------------------------------------------------------------------

/-- Two answers that differ in the order of their items at most. -/
inductive Relisted {α : Type} : Except String (List α) → Except String (List α) → Prop where
  | failed (message : String) : Relisted (.error message) (.error message)
  | listed {left right : List α} (perm : left.Perm right) : Relisted (.ok left) (.ok right)

/-- The same answers in any order. -/
structure FrostGatherer.Relists (gatherer other : FrostGatherer) : Prop where
  nonces : ∀ msg32, Relisted (gatherer.gatherNonces msg32) (other.gatherNonces msg32)
  partials : ∀ msg32 set,
    Relisted (gatherer.gatherPartials msg32 set) (other.gatherPartials msg32 set)
  expected : gatherer.expectedParticipants = other.expectedParticipants

/-- A call with enough signers whose partial signatures are those of the signers, one by one,
and which hands on only what the gatherer answered.
-/
structure Aligned (gatherer : FrostGatherer) (msg32 : Bytes 32) (threshold : Nat)
    (call : AggCall) : Prop where
  message : call.msg32 = msg32
  quorum : threshold ≤ call.set.len
  aligned : ids call.partials = call.set.signerIds
  nonces : ∃ answer, gatherer.gatherNonces msg32 = .ok answer
    ∧ ∀ nonce ∈ call.set.nonces, nonce ∈ answer
  partials : ∃ answer, gatherer.gatherPartials msg32 call.set = .ok answer
    ∧ ∀ partialSig ∈ call.partials, partialSig ∈ answer

/-- The round gets as far as `sig_agg` with a signer set and these answers to the second pass. -/
structure Reaches (inFlight : Bool) (gatherer : FrostGatherer) (msg32 : Bytes 32)
    (threshold : Nat) (set : SignerSet) (partials : List Partial) : Prop where
  free : inFlight = false
  expected : threshold ≤ gatherer.expectedParticipants
  nonces : ∃ nonces, gatherer.gatherNonces msg32 = .ok nonces ∧ SignerSet.new nonces = .ok set
  quorum : threshold ≤ set.len
  answered : gatherer.gatherPartials msg32 set = .ok partials
  known : ∀ answer ∈ partials, answer.signerId ∈ set.signerIds
  complete : partials.length = set.len

-----------------------------------------------------------------------------------------
-- The signer set
-----------------------------------------------------------------------------------------

theorem SignerSet.nodup_ids (set : SignerSet) : set.signerIds.Nodup := by
  refine List.pairwise_map.mpr (set.ordered.imp ?_)
  intro first second below same
  rw [same] at below
  exact Std.lt_irrefl below

theorem SignerSet.sorted (set : SignerSet)
    : set.nonces.Pairwise (fun first second => first.signerId ≤ second.signerId) :=
  set.ordered.imp (fun below => Std.le_of_lt below)

theorem SignerSet.contains_iff (set : SignerSet) (signerId : UInt32)
    : set.contains signerId = true ↔ signerId ∈ set.signerIds := by
  rw [SignerSet.contains, List.any_eq_true, SignerSet.signerIds, ids, List.mem_map]
  exact exists_congr (fun nonce => and_congr_right' beq_iff_eq)

/-- A set is the sorted nonces. -/
theorem SignerSet.nonces_of_new {nonces : List Nonce} {set : SignerSet}
    (checked : SignerSet.new nonces = .ok set)
    : set.nonces = sortBy Contribution.signerId nonces := by
  unfold SignerSet.new at checked
  split_ifs at checked with nothing many repeated
  cases checked
  rfl

theorem SignerSet.nodup_of_new {nonces : List Nonce} {set : SignerSet}
    (checked : SignerSet.new nonces = .ok set)
    : (ids nonces).Nodup := by
  have distinct := set.nodup_ids
  rw [SignerSet.signerIds, SignerSet.nonces_of_new checked] at distinct
  exact ((sortBy_perm Contribution.signerId nonces).map _).nodup_iff.mp distinct

/-- The order of the nonces does not matter. -/
theorem SignerSet.new_of_perm {left right : List Nonce} (perm : left.Perm right)
    {set : SignerSet} (checked : SignerSet.new left = .ok set)
    : SignerSet.new right = .ok set := by
  have sorted := sortBy_eq_of_perm Contribution.signerId perm (SignerSet.nodup_of_new checked)
  unfold SignerSet.new at checked ⊢
  split_ifs at checked with nothing many repeated
  have nonempty : right ≠ [] := by
    rintro rfl
    exact nothing perm.eq_nil
  have few : ¬ maxSignersPerRound < right.length := by
    rw [← perm.length_eq]
    exact many
  rw [dif_neg nonempty, dif_neg few, dif_neg (sorted ▸ repeated), ← checked]
  exact congrArg Except.ok (SignerSet.mk.injEq .. ▸ sorted.symm)

-----------------------------------------------------------------------------------------
-- The call of sig_agg
-----------------------------------------------------------------------------------------

theorem stray_eq_none_iff {set : SignerSet} {partials : List Partial}
    : stray set partials = none ↔ ∀ answer ∈ partials, answer.signerId ∈ set.signerIds := by
  rw [stray, List.find?_eq_none]
  refine forall₂_congr (fun answer _ => ?_)
  rw [← set.contains_iff]
  simp

/-- A round that gets as far as `sig_agg` hands it the set and the sorted answers. -/
theorem gather_eq_ok_iff {inFlight : Bool} {gatherer : FrostGatherer} {msg32 : Bytes 32}
    {threshold : Nat} {call : AggCall}
    : gather inFlight gatherer msg32 threshold = .ok call
      ↔ ∃ set partials, Reaches inFlight gatherer msg32 threshold set partials
        ∧ call = { msg32, set, partials := sortBy Contribution.signerId partials } := by
  unfold gather
  constructor
  · intro gathered
    split_ifs at gathered with busy few
    obtain ⟨nonces, isNonces, gathered⟩ := Except.bind_eq_ok_iff.mp gathered
    obtain ⟨set, checked, gathered⟩ := Except.bind_eq_ok_iff.mp gathered
    split_ifs at gathered with short
    obtain ⟨partials, isPartials, gathered⟩ := Except.bind_eq_ok_iff.mp gathered
    split at gathered
    case h_1 => cases gathered
    case h_2 none =>
      split_ifs at gathered with uneven
      cases gathered
      refine ⟨set, partials, ?_, rfl⟩
      exact {
        free := Bool.eq_false_iff.mpr busy
        expected := Nat.not_lt.mp few
        nonces := ⟨nonces, Except.mapError_eq_ok_iff.mp isNonces, checked⟩
        quorum := Nat.not_lt.mp short
        answered := Except.mapError_eq_ok_iff.mp isPartials
        known := stray_eq_none_iff.mp none
        complete := not_not.mp uneven
      }
  · rintro ⟨set, partials, reaches, rfl⟩
    obtain ⟨nonces, isNonces, checked⟩ := reaches.nonces
    have free := Bool.eq_false_iff.mp reaches.free
    rw [if_neg free, if_neg (Nat.not_lt.mpr reaches.expected)]
    refine Except.bind_eq_ok_iff.mpr ⟨nonces, Except.mapError_eq_ok_iff.mpr isNonces, ?_⟩
    refine Except.bind_eq_ok_iff.mpr ⟨set, checked, ?_⟩
    rw [if_neg (Nat.not_lt.mpr reaches.quorum)]
    refine Except.bind_eq_ok_iff.mpr
      ⟨partials, Except.mapError_eq_ok_iff.mpr reaches.answered, ?_⟩
    rw [stray_eq_none_iff.mpr reaches.known]
    exact if_neg (not_not.mpr reaches.complete)

theorem aggregated_eq_some_iff {sigAgg : AggCall → Except String (Bytes 64)}
    {verifyBip340 : Bytes 32 → Bytes 64 → Bytes 32 → Bool} {inFlight : Bool}
    {gatherer : FrostGatherer} {msg32 : Bytes 32} {threshold : Nat} {pubkey : Bytes 32}
    {call : AggCall}
    : (runRound sigAgg verifyBip340 inFlight gatherer msg32 threshold pubkey).aggregated
        = some call
      ↔ gather inFlight gatherer msg32 threshold = .ok call := by
  unfold runRound
  cases gather inFlight gatherer msg32 threshold with
  | error message => exact ⟨fun same => (by cases same), fun same => (by cases same)⟩
  | ok made =>
      exact ⟨fun same => congrArg _ (Option.some.inj same),
        fun same => congrArg _ (Except.ok.inj same)⟩

/-- Distinct ids, all of the set and as many as it has, are those of the set. -/
theorem ids_sorted_eq {set : SignerSet} {partials : List Partial}
    (known : ∀ answer ∈ partials, answer.signerId ∈ set.signerIds)
    (complete : partials.length = set.len) (distinct : (ids partials).Nodup)
    : ids (sortBy Contribution.signerId partials) = set.signerIds := by
  have within : ids partials ⊆ set.signerIds := by
    intro id member
    obtain ⟨answer, inside, rfl⟩ := List.mem_map.mp member
    exact known answer inside
  have counted : set.signerIds.length ≤ (ids partials).length := by
    rw [SignerSet.signerIds, ids, ids, List.length_map, List.length_map]
    exact complete.ge
  have perm : (ids partials).Perm set.signerIds :=
    (List.subperm_of_subset distinct within).perm_of_length_le counted
  refine keys_eq_of_perm Contribution.signerId (sortBy_pairwise Contribution.signerId partials)
    set.sorted ?_
  exact ((sortBy_perm Contribution.signerId partials).map _).trans perm

/-- A round over the same answers in another order reaches `sig_agg` with the same set. -/
theorem Reaches.relisted {inFlight : Bool} {gatherer other : FrostGatherer} {msg32 : Bytes 32}
    {threshold : Nat} {set : SignerSet} {partials : List Partial}
    (reaches : Reaches inFlight gatherer msg32 threshold set partials)
    (relists : gatherer.Relists other)
    : ∃ listed, partials.Perm listed
        ∧ Reaches inFlight other msg32 threshold set listed := by
  obtain ⟨nonces, isNonces, checked⟩ := reaches.nonces
  have sameNonces := relists.nonces msg32
  have samePartials := relists.partials msg32 set
  rw [isNonces] at sameNonces
  rw [reaches.answered] at samePartials
  generalize firstPass : other.gatherNonces msg32 = first at sameNonces
  generalize secondPass : other.gatherPartials msg32 set = second at samePartials
  cases sameNonces with
  | listed noncesPerm =>
      cases samePartials with
      | @listed _ listed perm =>
          refine ⟨listed, perm, ?_⟩
          exact {
            free := reaches.free
            expected := relists.expected ▸ reaches.expected
            nonces := ⟨_, firstPass, SignerSet.new_of_perm noncesPerm checked⟩
            quorum := reaches.quorum
            answered := secondPass
            known := fun answer member => reaches.known answer (perm.mem_iff.mpr member)
            complete := perm.length_eq.symm.trans reaches.complete
          }

section Rounds

variable (sigAgg : AggCall → Except String (Bytes 64))
  (verifyBip340 : Bytes 32 → Bytes 64 → Bytes 32 → Bool)

/-- Whatever `sig_agg` is called with is aligned and does not depend on the order of the
answers.
-/
def LinesUp (inFlight : Bool) (gatherer : FrostGatherer) (msg32 : Bytes 32) (threshold : Nat)
    (pubkey : Bytes 32) : Prop :=
  ∀ call,
    (runRound sigAgg verifyBip340 inFlight gatherer msg32 threshold pubkey).aggregated = some call →
      Aligned gatherer msg32 threshold call
      ∧ ∀ other, gatherer.Relists other →
        (runRound sigAgg verifyBip340 inFlight other msg32 threshold pubkey).aggregated = some call

variable {sigAgg verifyBip340} in
/-- Where the partial signatures line up, they are of distinct signers. -/
theorem LinesUp.distinct {inFlight : Bool} {gatherer : FrostGatherer} {msg32 : Bytes 32}
    {threshold : Nat} {pubkey : Bytes 32} {set : SignerSet} {partials : List Partial}
    (linesUp : LinesUp sigAgg verifyBip340 inFlight gatherer msg32 threshold pubkey)
    (reaches : Reaches inFlight gatherer msg32 threshold set partials)
    : (ids partials).Nodup := by
  have gathered := gather_eq_ok_iff.mpr ⟨set, partials, reaches, rfl⟩
  have aligned := (linesUp _ (aggregated_eq_some_iff.mpr gathered)).1.aligned
  have distinct := set.nodup_ids
  rw [← aligned] at distinct
  exact ((sortBy_perm Contribution.signerId partials).map _).nodup_iff.mp distinct

/-- The partial signatures line up with the signer set exactly if the answers to the second
pass, where the round gets as far as `sig_agg`, are of distinct signers.
-/
theorem lines_up_iff (inFlight : Bool) (gatherer : FrostGatherer) (msg32 : Bytes 32)
    (threshold : Nat) (pubkey : Bytes 32)
    : LinesUp sigAgg verifyBip340 inFlight gatherer msg32 threshold pubkey
      ↔ ∀ set partials, Reaches inFlight gatherer msg32 threshold set partials →
          (ids partials).Nodup := by
  constructor
  · intro linesUp set partials reaches
    exact linesUp.distinct reaches
  · intro distinct call called
    obtain ⟨set, partials, reaches, rfl⟩ := gather_eq_ok_iff.mp (aggregated_eq_some_iff.mp called)
    obtain ⟨nonces, isNonces, checked⟩ := reaches.nonces
    have once := distinct set partials reaches
    refine ⟨?_, fun other relists => ?_⟩
    · refine {
        message := rfl
        quorum := reaches.quorum
        aligned := ids_sorted_eq reaches.known reaches.complete once
        nonces := ⟨nonces, isNonces, fun nonce member => ?_⟩
        partials := ⟨partials, reaches.answered, fun answer member => ?_⟩
      }
      · rw [SignerSet.nonces_of_new checked] at member
        exact (sortBy_perm Contribution.signerId nonces).mem_iff.mp member
      · exact (sortBy_perm Contribution.signerId partials).mem_iff.mp member
    · obtain ⟨listed, perm, again⟩ := reaches.relisted relists
      refine aggregated_eq_some_iff.mpr (gather_eq_ok_iff.mpr ⟨set, listed, again, ?_⟩)
      rw [sortBy_eq_of_perm Contribution.signerId perm once]

end Rounds

/-- Signers 1 and 2. -/
def pair : SignerSet where
  nonces := [
    { signerId := 1, bytes := List.Vector.replicate 66 0 },
    { signerId := 2, bytes := List.Vector.replicate 66 0 }
  ]
  nonempty := by decide
  bounded := by decide
  ordered := by decide

/-- Signers 1 and 2 answer the first pass, and signer 1 answers the second one twice. -/
def repeatedAnswer : FrostGatherer where
  gatherNonces := fun _ => .ok pair.nonces
  gatherPartials := fun _ _ => .ok [
    { signerId := 1, bytes := List.Vector.replicate 32 0 },
    { signerId := 1, bytes := List.Vector.replicate 32 0 }
  ]
  expectedParticipants := 2

/-- The partial signature of signer 1 is aggregated in the place of that of signer 2. -/
theorem repeatedAnswer_out_of_line
    : ¬ LinesUp (fun _ => .error "") (fun _ _ _ => false) false repeatedAnswer
        (List.Vector.replicate 32 0) 2 (List.Vector.replicate 32 0) := by
  intro linesUp
  have reaches : Reaches false repeatedAnswer (List.Vector.replicate 32 0) 2 pair [
      { signerId := 1, bytes := List.Vector.replicate 32 0 },
      { signerId := 1, bytes := List.Vector.replicate 32 0 }
    ] := {
    free := rfl
    expected := by decide
    nonces := ⟨pair.nonces, rfl, rfl⟩
    quorum := by decide
    answered := rfl
    known := by decide
    complete := rfl
  }
  exact absurd (linesUp.distinct reaches) (by decide)

end PerpDex.Frost
