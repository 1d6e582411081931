import PerpDex.Lib.StableSort
import PerpDex.Safe.Rederivation

/-! Carrying out owner management on the Safe.
The signatures of the owners are put in the order the contract asks for, by the address each one
recovers to. The contract itself is not in this code: it is met through what is documented of it.
-/

namespace PerpDex.SafeProjection

open Wire

-----------------------------------------------------------------------------------------
-- Ordering the signatures
-----------------------------------------------------------------------------------------

/-- `r ‖ s ‖ v`. -/
abbrev OwnerSignature := Bytes 65

/-- The owners' address bytes are what they are ordered by. -/
def EvmAddress.key (address : EvmAddress) : List UInt8 := address.toList

section Signatures

/- How the point of a key is recovered from a signature. -/
variable (keccak256 : List UInt8 → Digest)
  (recoverPoint : Digest → List UInt8 → UInt8 → Except String (List UInt8))

/-- Only the plain form of a signature is read. -/
def recoverOwner (hash : Digest) (sig : OwnerSignature) : Except String EvmAddress :=
  let v := sig.get 64
  if v ≠ 27 ∧ v ≠ 28 then
    .error s!"unexpected signature v={v}: expected the plain ECDSA form (27 or 28)"
  else do
    let point ← recoverPoint hash (sig.toList.take 64) (v - 27)
    .ok ⟨(keccak256 point).toList.drop 12, by simp⟩

/-- The signatures in ascending order of their owners, one after the other. -/
def orderSignatures (hash : Digest) (sigs : List OwnerSignature) : Except String (List UInt8) :=
  if sigs.isEmpty then .error "no owner signatures to order"
  else do
    let withOwner ← sigs.mapM
      (fun sig => (recoverOwner keccak256 recoverPoint hash sig).map (fun owner => (owner, sig)))
    let sorted := StableSort.sortBy (fun item => item.1.key) withOwner
    if (sorted.zip sorted.tail).any (fun pair => pair.1.1 = pair.2.1) then
      .error "the same owner signed twice — Safe counts distinct owners, not signatures"
    else .ok (sorted.flatMap (fun item => item.2.toList))

-----------------------------------------------------------------------------------------
-- The endpoint
-----------------------------------------------------------------------------------------

structure SafeExecRequest where
  safeTxHash : String
  signatures : List String
  data : String

/-- A self-call that is submitted, and the owners that are reported for it. -/
structure SafeExecSubmission where
  data : List UInt8
  signatures : List UInt8
  ownersInOrder : List String

/-- Bytes in hexadecimal, of a fixed number. -/
def decodeSized (size : Nat) (notHex wrongSize : String) (text : String)
    : Except String (Bytes size) := do
  let bytes ← okOr (Hex.decodeChars (Hex.trimStart0x text.toList)) notHex
  if sized : bytes.length = size then .ok ⟨bytes, sized⟩ else .error wrongSize

/-- `chunks_exact` of 65 bytes. -/
def chunksExact : (count : Nat) → List UInt8 → List OwnerSignature
  | 0, _ => []
  | count + 1, bytes =>
      if full : (bytes.take 65).length = 65 then
        ⟨bytes.take 65, full⟩ :: chunksExact count (bytes.drop 65)
      else []

/-- `handle_safe_exec` up to the submission. -/
def handleSafeExec (req : SafeExecRequest) : Except String SafeExecSubmission := do
  let hash ← decodeSized 32 "safe_tx_hash is not hex" "safe_tx_hash must be 32 bytes"
    req.safeTxHash
  let data ← okOr (Hex.decodeChars (Hex.trimStart0x req.data.toList)) "data is not hex"
  if data.isEmpty then .error "data is empty"
  else
    let sigs ← req.signatures.mapM
      (decodeSized 65 "signature is not hex" "each signature must be 65 bytes")
    let ordered ← orderSignatures keccak256 recoverPoint hash sigs
    let owners ← (chunksExact (ordered.length / 65) ordered).mapM
      (recoverOwner keccak256 recoverPoint hash)
    .ok
      { data
        signatures := ordered
        ownersInOrder := owners.map (fun owner => "0x" ++ Hex.encode owner.toList) }

/-- The first four bytes of a call. -/
def selector (signature : String) : List UInt8 := (keccak256 (utf8 signature)).toList.take 4

end Signatures

-----------------------------------------------------------------------------------------
-- Calls are told apart
-----------------------------------------------------------------------------------------

section Calls

variable {keccak256 : List UInt8 → Digest}

/-- The four functions have different selectors. -/
def SelectorsDistinct (keccak256 : List UInt8 → Digest) : Prop :=
  ["addOwnerWithThreshold(address,uint256)", "removeOwner(address,address,uint256)",
    "swapOwner(address,address,address)", "changeThreshold(uint256)"].map
      (selector keccak256) |>.Nodup

/-- The threshold of a call is a `u64`. -/
def SafeOp.Fits : SafeOp → Prop
  | .addOwner _ threshold | .removeOwner _ _ threshold | .changeThreshold threshold =>
      threshold < 2 ^ 64
  | .swapOwner _ _ _ => True

theorem length_wordAddr (address : EvmAddress) : (wordAddr address).length = 32 := by
  rw [wordAddr, List.length_append, List.length_replicate, address.toList_length]

/-- A word starts with an address and only with that one. -/
theorem wordAddr_append_inj {left right : EvmAddress} {more others : List UInt8}
    (same : wordAddr left ++ more = wordAddr right ++ others)
    : left = right ∧ more = others := by
  obtain ⟨words, rest⟩ :=
    List.append_inj same ((length_wordAddr left).trans (length_wordAddr right).symm)
  exact ⟨List.Vector.toList_injective (List.append_cancel_left words), rest⟩

theorem wordU64_inj {left right : Nat} (leftFits : left < 2 ^ 64) (rightFits : right < 2 ^ 64)
    (same : wordU64 left = wordU64 right)
    : left = right := by
  have values := congrArg beValue (List.append_cancel_left same)
  rw [beValue_beBytes, beValue_beBytes] at values
  rwa [Nat.mod_eq_of_lt (by simpa using leftFits), Nat.mod_eq_of_lt (by simpa using rightFits)]
    at values

theorem length_selector (signature : String) : (selector keccak256 signature).length = 4 := by
  rw [selector, List.length_take, (keccak256 (utf8 signature)).toList_length]
  rfl

/-- The arguments of a call as words. -/
def SafeOp.words : SafeOp → List (List UInt8)
  | .addOwner owner threshold => [wordAddr owner, wordU64 threshold]
  | .removeOwner prevOwner owner threshold =>
      [wordAddr prevOwner, wordAddr owner, wordU64 threshold]
  | .swapOwner prevOwner oldOwner newOwner =>
      [wordAddr prevOwner, wordAddr oldOwner, wordAddr newOwner]
  | .changeThreshold threshold => [wordU64 threshold]

theorem SafeOp.calldata_eq (op : SafeOp)
    : op.calldata keccak256 = selector keccak256 op.signature ++ op.words.flatten := by
  cases op <;> simp [SafeOp.calldata, SafeOp.words, selector]

/-- The bytes of a call fix its function. -/
theorem SafeOp.signature_of_calldata (selectors : SelectorsDistinct keccak256)
    {left right : SafeOp} (same : left.calldata keccak256 = right.calldata keccak256)
    : left.signature = right.signature := by
  have front : ∀ op : SafeOp, (op.calldata keccak256).take 4 = selector keccak256 op.signature :=
    fun op => by rw [op.calldata_eq, List.take_left' (length_selector _)]
  have fronts : selector keccak256 left.signature = selector keccak256 right.signature := by
    rw [← front left, same, front right]
  refine List.inj_on_of_nodup_map selectors ?_ ?_ fronts
  · cases left <;> simp [SafeOp.signature]
  · cases right <;> simp [SafeOp.signature]

/-- The bytes of a call fix the call, by cases on its function. -/
theorem SafeOp.calldata_inj (selectors : SelectorsDistinct keccak256) {left right : SafeOp}
    (leftFits : left.Fits) (rightFits : right.Fits)
    (same : left.calldata keccak256 = right.calldata keccak256)
    : left = right := by
  have named := SafeOp.signature_of_calldata selectors same
  rw [left.calldata_eq, right.calldata_eq, named] at same
  have words := List.append_cancel_left same
  cases left with
  | addOwner owner threshold =>
      cases right with
      | addOwner other count =>
          obtain ⟨rfl, counts⟩ := wordAddr_append_inj words
          rw [wordU64_inj leftFits rightFits (List.append_cancel_right counts)]
      | removeOwner | swapOwner | changeThreshold => simp [SafeOp.signature] at named
  | removeOwner prevOwner owner threshold =>
      cases right with
      | removeOwner prevOther other count =>
          obtain ⟨rfl, rest⟩ := wordAddr_append_inj words
          obtain ⟨rfl, counts⟩ := wordAddr_append_inj rest
          rw [wordU64_inj leftFits rightFits (List.append_cancel_right counts)]
      | addOwner | swapOwner | changeThreshold => simp [SafeOp.signature] at named
  | swapOwner prevOwner oldOwner newOwner =>
      cases right with
      | swapOwner prevOther oldOther newOther =>
          obtain ⟨rfl, rest⟩ := wordAddr_append_inj words
          obtain ⟨rfl, last⟩ := wordAddr_append_inj rest
          rw [(wordAddr_append_inj last).1]
      | addOwner | removeOwner | changeThreshold => simp [SafeOp.signature] at named
  | changeThreshold threshold =>
      cases right with
      | changeThreshold count =>
          rw [wordU64_inj leftFits rightFits (List.append_cancel_right words)]
      | addOwner | removeOwner | swapOwner => simp [SafeOp.signature] at named

end Calls

-----------------------------------------------------------------------------------------
-- The order of the signatures
-----------------------------------------------------------------------------------------

section Ordering

variable {keccak256 : List UInt8 → Digest}
  {recoverPoint : Digest → List UInt8 → UInt8 → Except String (List UInt8)} {hash : Digest}

/-- The bytes of some signatures. -/
def blobOf (sigs : List OwnerSignature) : List UInt8 := sigs.flatMap List.Vector.toList

def Below (left right : EvmAddress) : Prop := left.key < right.key

/-- The owner of a signature that recovers. -/
def ownerOf (keccak256 : List UInt8 → Digest)
    (recoverPoint : Digest → List UInt8 → UInt8 → Except String (List UInt8)) (hash : Digest)
    (sig : OwnerSignature) : EvmAddress :=
  match recoverOwner keccak256 recoverPoint hash sig with
  | .ok owner => owner
  | .error _ => zeroAddress

theorem ownerOf_eq {sig : OwnerSignature} {owner : EvmAddress}
    (recovered : recoverOwner keccak256 recoverPoint hash sig = .ok owner)
    : ownerOf keccak256 recoverPoint hash sig = owner := by
  rw [ownerOf, recovered]

/-- The signatures in ascending order of their owners. -/
def ascending (keccak256 : List UInt8 → Digest)
    (recoverPoint : Digest → List UInt8 → UInt8 → Except String (List UInt8)) (hash : Digest)
    (sigs : List OwnerSignature) : List OwnerSignature :=
  StableSort.sortBy (fun sig => (ownerOf keccak256 recoverPoint hash sig).key) sigs

theorem key_injective : Function.Injective EvmAddress.key := List.Vector.toList_injective

theorem withOwner_eq_ok_iff {sigs : List OwnerSignature}
    {withOwner : List (EvmAddress × OwnerSignature)}
    : sigs.mapM (fun sig =>
          (recoverOwner keccak256 recoverPoint hash sig).map (fun owner => (owner, sig)))
        = .ok withOwner
      ↔ (∀ sig ∈ sigs, ∃ owner, recoverOwner keccak256 recoverPoint hash sig = .ok owner)
        ∧ withOwner = sigs.map (fun sig => (ownerOf keccak256 recoverPoint hash sig, sig)) := by
  rw [Except.mapM_eq_ok_iff]
  induction sigs generalizing withOwner with
  | nil => simp
  | cons sig rest ih =>
      rw [List.forall₂_cons_left_iff, List.forall_mem_cons, List.map_cons]
      constructor
      · rintro ⟨item, others, paired, each, rfl⟩
        obtain ⟨owner, recovered, rfl⟩ := Except.map_eq_ok_iff.mp paired
        obtain ⟨all, rfl⟩ := ih.mp each
        exact ⟨⟨⟨owner, recovered⟩, all⟩, by rw [ownerOf_eq recovered]⟩
      · rintro ⟨⟨⟨owner, recovered⟩, all⟩, rfl⟩
        rw [ownerOf_eq recovered]
        exact ⟨_, _, Except.map_eq_ok_iff.mpr ⟨owner, recovered, rfl⟩, ih.mpr ⟨all, rfl⟩, rfl⟩

/-- Sorting the pairs is sorting the signatures. -/
theorem sortBy_withOwner (sigs : List OwnerSignature)
    : StableSort.sortBy (fun item : EvmAddress × OwnerSignature => item.1.key)
        (sigs.map (fun sig => (ownerOf keccak256 recoverPoint hash sig, sig)))
      = (ascending keccak256 recoverPoint hash sigs).map
          (fun sig => (ownerOf keccak256 recoverPoint hash sig, sig)) := by
  refine (List.map_insertionSort _ _ _ _ ?_).symm
  exact fun _ _ _ _ => Iff.rfl

theorem ascending_perm (sigs : List OwnerSignature)
    : (ascending keccak256 recoverPoint hash sigs).Perm sigs :=
  StableSort.sortBy_perm _ sigs

/-- Two neighbours have one owner exactly if some owner has signed twice. -/
theorem signedTwice_iff {sigs : List OwnerSignature}
    {sorted : List (EvmAddress × OwnerSignature)}
    (isSorted : sorted = (ascending keccak256 recoverPoint hash sigs).map
      (fun sig => (ownerOf keccak256 recoverPoint hash sig, sig)))
    : (sorted.zip sorted.tail).any (fun pair => pair.1.1 = pair.2.1) = true
      ↔ ¬ (sigs.map (ownerOf keccak256 recoverPoint hash)).Nodup := by
  have byKey : (fun pair : (EvmAddress × OwnerSignature) × EvmAddress × OwnerSignature =>
      decide (pair.1.1 = pair.2.1)) = fun pair => decide (pair.1.1.key = pair.2.1.key) :=
    funext (fun pair => decide_eq_decide.mpr key_injective.eq_iff.symm)
  have inOrder : sorted.Pairwise (fun left right => left.1.key ≤ right.1.key) := by
    rw [isSorted, List.pairwise_map]
    exact StableSort.sortBy_pairwise _ sigs
  have keys : sorted.map (fun item => item.1.key)
      = ((ascending keccak256 recoverPoint hash sigs).map
          (ownerOf keccak256 recoverPoint hash)).map EvmAddress.key := by
    rw [isSorted, List.map_map, List.map_map]
    rfl
  have distinct := StableSort.nodup_iff_any_adjacent
    (fun item : EvmAddress × OwnerSignature => item.1.key) inOrder
  rw [keys, List.nodup_map_iff key_injective,
    ((ascending_perm sigs).map (ownerOf keccak256 recoverPoint hash)).nodup_iff] at distinct
  rw [byKey, ← distinct, Bool.not_eq_false]

/-- The signatures are ordered exactly if there are some, all of them recover, and no owner has
signed twice.
-/
theorem orderSignatures_ok_iff {sigs : List OwnerSignature} {blob : List UInt8}
    : orderSignatures keccak256 recoverPoint hash sigs = .ok blob
      ↔ sigs ≠ []
        ∧ (∀ sig ∈ sigs, ∃ owner, recoverOwner keccak256 recoverPoint hash sig = .ok owner)
        ∧ (sigs.map (ownerOf keccak256 recoverPoint hash)).Nodup
        ∧ blob = blobOf (ascending keccak256 recoverPoint hash sigs) := by
  rw [orderSignatures]
  cases sigs with
  | nil => exact ⟨fun failed => (by cases failed), fun given => absurd rfl given.1⟩
  | cons sig rest =>
      rw [if_neg (by simp), Except.bind_eq_ok_iff]
      simp only [withOwner_eq_ok_iff]
      constructor
      · rintro ⟨withOwner, ⟨each, rfl⟩, ordered⟩
        split_ifs at ordered with twice
        rw [signedTwice_iff (sortBy_withOwner (sig :: rest)), not_not] at twice
        refine ⟨List.cons_ne_nil _ _, each, twice, ?_⟩
        rw [← Except.ok.inj ordered, sortBy_withOwner, List.flatMap_map]
        rfl
      · rintro ⟨_, each, distinct, rfl⟩
        refine ⟨_, ⟨each, rfl⟩, ?_⟩
        rw [if_neg (by rw [signedTwice_iff (sortBy_withOwner _), not_not]; exact distinct),
          sortBy_withOwner, List.flatMap_map]
        rfl

theorem below_trans {first second third : EvmAddress} (left : Below first second)
    (right : Below second third)
    : Below first third :=
  List.lt_trans left right

/-- Signatures whose owners go up are in the order they are put in. -/
theorem ascending_of_pairwise {sigs perm : List OwnerSignature} (reordered : perm.Perm sigs)
    (goesUp : (perm.map (ownerOf keccak256 recoverPoint hash)).Pairwise Below)
    : ascending keccak256 recoverPoint hash sigs = perm := by
  have below : perm.Pairwise (fun left right =>
      (ownerOf keccak256 recoverPoint hash left).key
        < (ownerOf keccak256 recoverPoint hash right).key) := by
    have given := List.pairwise_map.mp goesUp
    exact given
  have distinct : (perm.map (fun sig => (ownerOf keccak256 recoverPoint hash sig).key)).Nodup :=
    List.pairwise_map.mpr (below.imp (fun less => Std.ne_of_lt less))
  rw [ascending, ← StableSort.sortBy_eq_of_perm _ reordered distinct]
  exact (below.imp Std.le_of_lt).insertionSort_eq

/-- A signature of the plain form. -/
def OwnerSignature.Plain (sig : OwnerSignature) : Prop := sig.get 64 = 27 ∨ sig.get 64 = 28

/-- What recovers is a plain signature. -/
theorem plain_of_recoverOwner {sig : OwnerSignature} {owner : EvmAddress}
    (recovered : recoverOwner keccak256 recoverPoint hash sig = .ok owner)
    : sig.Plain := by
  rw [recoverOwner] at recovered
  split_ifs at recovered with other
  rcases not_and_or.mp other with isPlain | isPlain
  · exact .inl (not_not.mp isPlain)
  · exact .inr (not_not.mp isPlain)

/-- Whatever order they are in, signatures that all recover are plain. -/
theorem plain_of_recovers {sigs perm : List OwnerSignature} (reordered : perm.Perm sigs)
    (recovers : ∀ sig ∈ sigs, ∃ owner, recoverOwner keccak256 recoverPoint hash sig = .ok owner)
    : ∀ sig ∈ perm, sig.Plain := by
  intro sig isIn
  obtain ⟨owner, recovered⟩ := recovers sig (reordered.mem_iff.mp isIn)
  exact plain_of_recoverOwner recovered

end Ordering

-----------------------------------------------------------------------------------------
-- The contract
-----------------------------------------------------------------------------------------

/-- A Safe as the endpoint meets it: where it stands, what its states say, the signer the chain
recovers from a signature, the check of the first signatures, and a self-call; `none` is a revert.
-/
structure SafeContract (σ : Type) where
  address : EvmAddress
  chainId : Nat
  safe : σ → Safe
  nonce : σ → Nat
  ecrecover : Digest → OwnerSignature → EvmAddress
  checkNSignatures : σ → Digest → (signatures : List UInt8) → (required : Nat) → Bool
  execTransaction : σ → (data signatures : List UInt8) → Option σ

section Contract

variable {σ : Type} (contract : SafeContract σ) (keccak256 : List UInt8 → Digest)
  (recoverPoint : Digest → List UInt8 → UInt8 → Except String (List UInt8))

/-- The hash the contract checks the signatures of a call against. -/
def SafeContract.hashOf (nonce : Nat) (op : SafeOp) : Digest :=
  safeTxHash keccak256 contract.address contract.chainId contract.address (op.calldata keccak256)
    nonce

/-- The first signatures are by owners that go up from the zero address. -/
structure SignedBy (ecrecover : Digest → OwnerSignature → EvmAddress) (owners : List EvmAddress)
    (hash : Digest) (sigs : List OwnerSignature) (required : Nat) : Prop where
  enough : required ≤ sigs.length
  goesUp : List.IsChain Below (zeroAddress :: (sigs.take required).map (ecrecover hash))
  owners
    : ∀ sig ∈ sigs.take required, ecrecover hash sig ∈ owners ∧ ecrecover hash sig ≠ sentinelOwners

/-- What is documented of a Safe and of the chain, as far as plain signatures and owner management
go: a signature that recovers here recovers to the same signer there; the check asks for strictly
ascending owners; a self-call is carried out exactly if as many signatures as the threshold asks
for pass the check and the call does not revert, and it then counts one nonce.
-/
structure SafeContract.Documented : Prop where
  recovers
    : ∀ hash sig owner, recoverOwner keccak256 recoverPoint hash sig = .ok owner →
        contract.ecrecover hash sig = owner
  checks_iff
    : ∀ state hash sigs required, (∀ sig ∈ sigs, OwnerSignature.Plain sig) → 0 < required →
        (contract.checkNSignatures state hash (blobOf sigs) required = true
          ↔ SignedBy contract.ecrecover (contract.safe state).owners hash sigs required)
  carriesOut
    : ∀ state op sigs, SafeOp.Fits op → (∀ sig ∈ sigs, OwnerSignature.Plain sig) →
        contract.nonce state < 2 ^ 64 →
        contract.checkNSignatures state (contract.hashOf keccak256 (contract.nonce state) op)
            (blobOf sigs) (contract.safe state).threshold
          = true →
        ∀ safe, (contract.safe state).exec op = some safe →
          ∃ next, contract.execTransaction state (op.calldata keccak256) (blobOf sigs) = some next
            ∧ contract.safe next = safe ∧ contract.nonce next = contract.nonce state + 1
  reverts
    : ∀ state op sigs, SafeOp.Fits op → (∀ sig ∈ sigs, OwnerSignature.Plain sig) →
        contract.nonce state < 2 ^ 64 →
        contract.checkNSignatures state (contract.hashOf keccak256 (contract.nonce state) op)
            (blobOf sigs) (contract.safe state).threshold
          = false
        ∨ (contract.safe state).exec op = none →
        contract.execTransaction state (op.calldata keccak256) (blobOf sigs) = none

variable {contract keccak256 recoverPoint}

/-- What recovers to some owners here recovers to them on the chain. -/
theorem SafeContract.Documented.map_ecrecover
    (documented : contract.Documented keccak256 recoverPoint) {hash : Digest}
    {sigs : List OwnerSignature}
    (recovers : ∀ sig ∈ sigs, ∃ owner, recoverOwner keccak256 recoverPoint hash sig = .ok owner)
    : sigs.map (contract.ecrecover hash) = sigs.map (ownerOf keccak256 recoverPoint hash) := by
  refine List.map_congr_left (fun sig isIn => ?_)
  obtain ⟨owner, recovered⟩ := recovers sig isIn
  rw [documented.recovers hash sig owner recovered, ownerOf_eq recovered]

/-- The ordered signatures are accepted in full exactly if some order of them is, and then they are
in that order. Witness: strictly ascending signers admit one order only.
-/
theorem order_signatures_finds_order {σ : Type} (contract : SafeContract σ)
    (keccak256 : List UInt8 → Digest)
    (recoverPoint : Digest → List UInt8 → UInt8 → Except String (List UInt8))
    (documented : contract.Documented keccak256 recoverPoint) (state : σ) (hash : Digest)
    (sigs : List OwnerSignature)
    (recovers : ∀ sig ∈ sigs, ∃ owner, recoverOwner keccak256 recoverPoint hash sig = .ok owner)
    (blob : List UInt8)
    : orderSignatures keccak256 recoverPoint hash sigs = .ok blob
          ∧ contract.checkNSignatures state hash blob sigs.length = true
      ↔ sigs ≠ [] ∧ ∃ perm, perm.Perm sigs ∧ blob = blobOf perm
          ∧ contract.checkNSignatures state hash blob sigs.length = true := by
  rw [orderSignatures_ok_iff]
  constructor
  · rintro ⟨⟨nonempty, _, _, rfl⟩, accepted⟩
    exact ⟨nonempty, _, ascending_perm sigs, rfl, accepted⟩
  · rintro ⟨nonempty, perm, reordered, rfl, accepted⟩
    have each : ∀ sig ∈ perm, ∃ owner,
        recoverOwner keccak256 recoverPoint hash sig = .ok owner :=
      fun sig isIn => recovers sig (reordered.mem_iff.mp isIn)
    have plain := plain_of_recovers reordered recovers
    have signed := (documented.checks_iff state hash perm sigs.length plain
      (List.length_pos_iff.mpr nonempty)).mp accepted
    have chain := signed.goesUp
    rw [← reordered.length_eq, List.take_length, documented.map_ecrecover each] at chain
    have goesUp : (perm.map (ownerOf keccak256 recoverPoint hash)).Pairwise Below := by
      have : Trans Below Below Below := ⟨below_trans⟩
      exact (List.pairwise_cons.mp (List.isChain_iff_pairwise.mp chain)).2
    refine ⟨⟨nonempty, recovers, ?_, ?_⟩, accepted⟩
    · refine (reordered.map _).nodup_iff.mp (goesUp.imp (fun less same => ?_))
      rw [same] at less
      exact List.lt_irrefl _ less
    · rw [ascending_of_pairwise reordered goesUp]

end Contract

-----------------------------------------------------------------------------------------
-- Steps served one after the other
-----------------------------------------------------------------------------------------

section Serving

variable {σ : Type} (contract : SafeContract σ) (keccak256 : List UInt8 → Digest)
  (recoverPoint : Digest → List UInt8 → UInt8 → Except String (List UInt8))

/-- What a request leads to on the chain. -/
def SafeContract.serve (state : σ) (req : SafeExecRequest) : Option σ :=
  match handleSafeExec keccak256 recoverPoint req with
  | .error _ => none
  | .ok submission => contract.execTransaction state submission.data submission.signatures

variable {contract keccak256 recoverPoint}

theorem chunksExact_blobOf (sigs : List OwnerSignature)
    : chunksExact ((blobOf sigs).length / 65) (blobOf sigs) = sigs := by
  have sized : (blobOf sigs).length / 65 = sigs.length := by
    have each : ∀ sig ∈ sigs, List.length (List.Vector.toList sig) = 65 :=
      fun sig _ => sig.toList_length
    rw [blobOf, List.length_flatMap, List.map_congr_left each, List.map_const',
      List.sum_replicate, smul_eq_mul, Nat.mul_div_cancel _ (by decide)]
  rw [sized]
  induction sigs with
  | nil => rfl
  | cons sig rest ih =>
      have front : (blobOf (sig :: rest)).take 65 = sig.toList := List.take_left' sig.toList_length
      have back : (blobOf (sig :: rest)).drop 65 = blobOf rest := List.drop_left' sig.toList_length
      have full : ((blobOf (sig :: rest)).take 65).length = 65 := by
        rw [front, sig.toList_length]
      have sizedRest : (blobOf rest).length / 65 = rest.length := by
        have longer : (blobOf (sig :: rest)).length = 65 + (blobOf rest).length := by
          rw [blobOf, List.flatMap_cons, List.length_append, sig.toList_length]
          rfl
        rw [longer, List.length_cons] at sized
        omega
      rw [List.length_cons, chunksExact, dif_pos full, back, ih sizedRest]
      exact congrArg (· :: rest) (List.Vector.toList_injective front)

theorem zero_le_key {bytes : List UInt8} : List.replicate bytes.length 0 ≤ bytes := by
  induction bytes with
  | nil => exact List.le_refl _
  | cons byte rest ih =>
      rw [List.length_cons, List.replicate_succ, List.cons_le_cons_iff]
      rcases Nat.eq_zero_or_pos byte.toNat with isZero | positive
      · exact .inr ⟨(UInt8.toNat_inj.mp isZero).symm, ih⟩
      · exact .inl (UInt8.lt_iff_toNat_lt.mpr positive)

/-- Every address but the zero address stands above it. -/
theorem zeroAddress_below {owner : EvmAddress} (notZero : owner ≠ zeroAddress)
    : Below zeroAddress owner := by
  have least : zeroAddress.key ≤ owner.key := by
    have given := @zero_le_key owner.key
    rw [EvmAddress.key, owner.toList_length] at given
    exact given
  exact Std.lt_of_le_of_ne least (fun same => notZero (key_injective same.symm))

variable {state : σ} {op : SafeOp} {sigs : List OwnerSignature}

end Serving

-----------------------------------------------------------------------------------------
-- A contract that is as documented
-----------------------------------------------------------------------------------------

section Sample

variable (keccak256 : List UInt8 → Digest)
  (recoverPoint : Digest → List UInt8 → UInt8 → Except String (List UInt8))

open Classical in
/-- The check of the first signatures, on what is written of them. -/
noncomputable def idealCheck (safe : Safe) (hash : Digest) (signatures : List UInt8)
    (required : Nat) : Bool :=
  decide
    (SignedBy (ownerOf keccak256 recoverPoint) safe.owners hash
      (chunksExact (signatures.length / 65) signatures) required)

open Classical in
/-- The call that some bytes are. -/
noncomputable def idealDispatch (data : List UInt8) : Option SafeOp :=
  if known : ∃ op : SafeOp, op.Fits ∧ op.calldata keccak256 = data then some known.choose else none

/-- A contract that does with plain signatures and owner management what a Safe does. -/
noncomputable def idealContract (address : EvmAddress) (chainId : Nat)
    : SafeContract (Safe × Nat) where
  address
  chainId
  safe := Prod.fst
  nonce := Prod.snd
  ecrecover := ownerOf keccak256 recoverPoint
  checkNSignatures := fun state => idealCheck keccak256 recoverPoint state.1
  execTransaction := fun state data signatures =>
    (idealDispatch keccak256 data).bind (fun op =>
      if idealCheck keccak256 recoverPoint state.1
          (safeTxHash keccak256 address chainId address data state.2) signatures
          state.1.threshold then
        (state.1.exec op).map (fun safe => (safe, state.2 + 1))
      else none)

variable {keccak256 recoverPoint}

/-- The bytes of a call fix it. -/
theorem idealDispatch_calldata (selectors : SelectorsDistinct keccak256) {op : SafeOp}
    (fits : op.Fits)
    : idealDispatch keccak256 (op.calldata keccak256) = some op := by
  have known : ∃ other : SafeOp, other.Fits ∧ other.calldata keccak256 = op.calldata keccak256 :=
    ⟨op, fits, rfl⟩
  rw [idealDispatch, dif_pos known]
  exact congrArg some
    (SafeOp.calldata_inj selectors known.choose_spec.1 fits known.choose_spec.2)

/-- What the ideal contract does with a call it is sent. -/
theorem idealContract_execTransaction (selectors : SelectorsDistinct keccak256)
    {address : EvmAddress} {chainId : Nat} (state : Safe × Nat) {op : SafeOp} (fits : op.Fits)
    (sigs : List OwnerSignature)
    : (idealContract keccak256 recoverPoint address chainId).execTransaction state
          (op.calldata keccak256) (blobOf sigs)
      = if (idealContract keccak256 recoverPoint address chainId).checkNSignatures state
            ((idealContract keccak256 recoverPoint address chainId).hashOf keccak256 state.2 op)
            (blobOf sigs) state.1.threshold = true then
          (state.1.exec op).map (fun safe => (safe, state.2 + 1))
        else none := by
  show (idealDispatch keccak256 (op.calldata keccak256)).bind _ = _
  rw [idealDispatch_calldata selectors fits]
  rfl

/-- The ideal contract is as documented. -/
theorem idealContract_documented (selectors : SelectorsDistinct keccak256) (address : EvmAddress)
    (chainId : Nat)
    : (idealContract keccak256 recoverPoint address chainId).Documented keccak256 recoverPoint where
  recovers _ _ _ recovered := ownerOf_eq recovered
  checks_iff state hash sigs required _ _ := by
    show idealCheck keccak256 recoverPoint state.1 hash (blobOf sigs) required = true ↔ _
    classical
    rw [idealCheck, decide_eq_true_eq, chunksExact_blobOf]
    rfl
  carriesOut state op sigs fits _ _ checked safe executed := by
    refine ⟨(safe, state.2 + 1), ?_, rfl, rfl⟩
    have isSafe : state.1.exec op = some safe := executed
    rw [idealContract_execTransaction selectors state fits, isSafe]
    exact if_pos checked
  reverts state op sigs fits _ _ reason := by
    rw [idealContract_execTransaction selectors state fits]
    rcases reason with failed | executed
    · exact if_neg (by rw [Bool.not_eq_true]; exact failed)
    · have isNone : state.1.exec op = none := executed
      rw [isNone, Option.map_none, ite_self]

end Sample

/-- A value as the 32 bytes of a digest. -/
def digestOf (value : Nat) : Digest := ⟨beBytes 32 value, length_beBytes 32 value⟩

/-- The digests of the inputs of one call on the Safe at address 7 of chain 1; they differ in
length, the two owners' points in their first byte.
-/
def sampleKeccak256 (bytes : List UInt8) : Digest :=
  match bytes.length with
  | 38 => digestOf 0x0d582f13d757778d349075a68bf5d92ef44d17aa3b3ca38da8eb82cb56c41c90
  | 36 =>
      if bytes.take 4 = [0x69, 0x4e, 0x80, 0xc3] then
        digestOf 0x26668d1ca545089e52a981ef4b7a500e988d67fd607ef8a5bd5f751fa602a5d8
      else digestOf 0xf8dc5dd91c83c64a09d4878e686963ef56fde408d6dfdfe8047e612cc3e3702b
  | 34 => digestOf 0xe318b52b9bee2870ac7ee0af86866eb2e8f9569b34de6028eb487e7983ba6df8
  | 24 => digestOf 0x694e80c37192d74d6099f3d3b41506932ab644a24442ee51857cfeb9eb01ac2f
  | 55 => digestOf 0x47e79534a245952e8b16893a336b85a3d9ea9fa8c573f3d803afb92a79469218
  | 164 => digestOf 0xbb8310d486368db6bd6f849402fdd73ad53d316b5a4b2644ad6efe0f941286d8
  | 96 => digestOf 0xa9b1b769da05ec922d64908b23c910740cd864b71a1904a2838c1cc2ddd8a9ca
  | 352 => digestOf 0xce56ab95ab17892787699f90971a0f3b19b914c1edd606216c895300386699ed
  | 66 => digestOf 0xeb993201b2b1229ff810f6e2539e1d94894f9f1aff32d89e1549337a33231151
  | _ =>
      if bytes.take 1 = [0x79] then
        digestOf 0xc0a6c424ac7157ae408398df7e5f4552091a69125d5dfcb7b8c2659029395bdf
      else digestOf 0xeedf1a9c68b3f4a8b1a1032b2b5ad5c4795c026514f8317c7a215e218dccd6cf

/-- The points the two signatures below recover to. -/
def sampleRecoverPoint (_ : Digest) (rs : List UInt8) (_ : UInt8) : Except String (List UInt8) :=
  if rs.take 1 = [0x89] then
    .ok
      (beBytes 32 0x79be667ef9dcbbac55a06295ce870b07029bfcdb2dce28d959f2815b16f81798
        ++ beBytes 32 0x483ada7726a3c4655da4fbfc0e1108a8fd17b448a68554199c47d08ffb10d4b8)
  else
    .ok
      (beBytes 32 0xc6047f9441ed7d6d3045406e95c07cd85c778e4b8cef3ca7abac09b95c709ee5
        ++ beBytes 32 0x1ae168fea63dc339a3c58419466ceaeef7f632653266d0e1236431a950cfe52a)

def higherOwner : EvmAddress :=
  ⟨beBytes 20 0x7e5f4552091a69125d5dfcb7b8c2659029395bdf, length_beBytes 20 _⟩

def lowerOwner : EvmAddress :=
  ⟨beBytes 20 0x2b5ad5c4795c026514f8317c7a215e218dccd6cf, length_beBytes 20 _⟩

/-- Two owners who must both sign. -/
def sampleSafe : Safe where
  owners := [higherOwner, lowerOwner]
  threshold := 2
  nodup := by decide +kernel
  thresholdPos := by decide
  thresholdLe := by decide

def ownerSignature (r s : Nat) (v : UInt8) : OwnerSignature :=
  ⟨beBytes 32 r ++ beBytes 32 s ++ [v], by simp [length_beBytes]⟩

/-- The signatures of both owners of a call; the owner with the higher address comes first. -/
def sampleSigs : List OwnerSignature :=
  [ownerSignature 0x89b6bd7a7c385383ff466db721729e2f4ab4c650bb72e2dedfafd6ff61277a55
      0x744bb2dd8c6011b820c3423ddcb83115880c70a4ed13eca01dca118fc3f98b4a 27,
    ownerSignature 0x5906b1439b994465c9f3d4fdf7f09a4ab9ae0864262b0140def210148b097533
      0x1e886bc9461eaf0719838e24a2449e4ef8dc6e1e02b4a12cf07dffae5dc07342 28]

noncomputable def sampleContract : SafeContract (Safe × Nat) :=
  idealContract sampleKeccak256 sampleRecoverPoint (lowAddress 7) 1

theorem sampleContract_documented
    : sampleContract.Documented sampleKeccak256 sampleRecoverPoint := by
  have selectors : SelectorsDistinct sampleKeccak256 := by
    unfold SelectorsDistinct
    decide +kernel
  exact idealContract_documented selectors _ _

/-- The hash of the call after which one owner is enough. -/
def sampleHash : Digest :=
  safeTxHash sampleKeccak256 (lowAddress 7) 1 (lowAddress 7)
    ((SafeOp.changeThreshold 1).calldata sampleKeccak256) 0

theorem sampleSigs_recover
    : ∀ sig ∈ sampleSigs, ∃ owner,
        recoverOwner sampleKeccak256 sampleRecoverPoint sampleHash sig = .ok owner := by
  have recovered : sampleSigs.all (fun sig =>
      (recoverOwner sampleKeccak256 sampleRecoverPoint sampleHash sig).isOk) = true := by
    decide +kernel
  intro sig isIn
  have isOk := List.all_eq_true.mp recovered sig isIn
  cases readOwner : recoverOwner sampleKeccak256 sampleRecoverPoint sampleHash sig with
  | ok owner => exact ⟨owner, rfl⟩
  | error reason =>
      rw [readOwner] at isOk
      cases isOk

theorem sampleSigs_owners
    : sampleSigs.map (ownerOf sampleKeccak256 sampleRecoverPoint sampleHash)
      = [higherOwner, lowerOwner] := by
  decide +kernel

/-- The other way round the signatures are in order. -/
theorem sampleSigs_goesUp
    : (sampleSigs.reverse.map (ownerOf sampleKeccak256 sampleRecoverPoint sampleHash)).Pairwise
        Below := by
  rw [List.map_reverse, sampleSigs_owners]
  refine List.pairwise_pair.mpr ?_
  show lowerOwner.key < higherOwner.key
  decide +kernel

theorem sampleSigs_ofOwners
    : ∀ sig ∈ sampleSigs,
        ownerOf sampleKeccak256 sampleRecoverPoint sampleHash sig ∈ sampleSafe.owners := by
  intro sig isIn
  show ownerOf sampleKeccak256 sampleRecoverPoint sampleHash sig ∈ [higherOwner, lowerOwner]
  rw [← sampleSigs_owners]
  exact List.mem_map_of_mem isIn

theorem sampleSafe_proper : ProperTarget sampleSafe.owners := by
  constructor <;> decide +kernel

/-- Witness: `order_signatures_finds_order` for two owners, the higher one first. -/
theorem order_signatures_finds_order_swapped
    : orderSignatures sampleKeccak256 sampleRecoverPoint sampleHash sampleSigs
          = .ok (blobOf sampleSigs.reverse)
        ∧ sampleContract.checkNSignatures (sampleSafe, 0) sampleHash (blobOf sampleSigs.reverse)
            sampleSigs.length
          = true := by
  have plain : ∀ sig ∈ sampleSigs.reverse, OwnerSignature.Plain sig := by
    intro sig isIn
    obtain ⟨owner, recovered⟩ := sampleSigs_recover sig (List.mem_reverse.mp isIn)
    exact plain_of_recoverOwner recovered
  have accepted : sampleContract.checkNSignatures (sampleSafe, 0) sampleHash
      (blobOf sampleSigs.reverse) sampleSigs.length = true := by
    refine (sampleContract_documented.checks_iff _ _ _ _ plain (by decide)).mpr ⟨by decide, ?_, ?_⟩
    · have : Trans Below Below Below := ⟨below_trans⟩
      refine List.isChain_iff_pairwise.mpr (List.pairwise_cons.mpr ⟨fun signer isIn => ?_, ?_⟩)
      · obtain ⟨sig, isSig, rfl⟩ := List.mem_map.mp isIn
        have isOwner := sampleSigs_ofOwners sig (List.mem_reverse.mp (List.mem_of_mem_take isSig))
        exact zeroAddress_below (sampleSafe_proper.ne isOwner).1
      · exact sampleSigs_goesUp
    · intro sig isIn
      have isOwner := sampleSigs_ofOwners sig (List.mem_reverse.mp (List.mem_of_mem_take isIn))
      exact ⟨isOwner, (sampleSafe_proper.ne isOwner).2⟩
  exact (order_signatures_finds_order sampleContract sampleKeccak256 sampleRecoverPoint
    sampleContract_documented (sampleSafe, 0) sampleHash sampleSigs sampleSigs_recover _).mpr
      ⟨by decide, _, List.reverse_perm sampleSigs, rfl, accepted⟩

end PerpDex.SafeProjection
