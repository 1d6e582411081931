import PerpDex.Lib.Checked
import PerpDex.Deposit.DepositProof
import PerpDex.Spv.StateProof

/-! The host's check of a path that a node serves, with every access to bytes made by index.
Only the depth of the path can carry an access out of its range: the check reads one half byte
of the index for each inner node, from the deepest up.
-/

namespace PerpDex.SpvProof

open Checked FixedWidth
open DepositSpv (doing)
open TxShamap (nibble branchOf hpInner maxDepth)

-----------------------------------------------------------------------------------------
-- Accesses by index
-----------------------------------------------------------------------------------------

namespace Indexed

/-- One digest of a compressed node, and the branch behind it. -/
def placeChunk (out : Bytes 512) (chunk : List UInt8) : Run String (Bytes 512) := do
  let last ← index chunk 32
  let branch := last.toNat
  if branch < 16 then
    let digest ← subslice chunk 0 32
    overwrite out (branch * 32) (branch * 32 + 32) digest
  else throw s!"compressed inner branch {branch} out of range"

def wireInnerTo512 (wire : List UInt8) : Run String (Bytes 512) :=
  if wire = [] then throw "empty inner wire node"
  else do
    let tag ← index wire (wire.length - 1)
    let body ← subslice wire 0 (wire.length - 1)
    if tag = wireInner then
      if body.length = 512 then copyFromSlice 512 body
      else throw s!"full inner must be 512+1 bytes, got {wire.length}"
    else if tag = wireCompressedInner then
      if body.length % 33 ≠ 0 then
        throw s!"compressed inner body must be a multiple of 33, got {body.length}"
      else (pieces 33 (body.length / 33) body).foldlM placeChunk (List.Vector.replicate 512 0)
    else throw s!"not an inner wire node (tag {tag})"

def wireLeafSplit (wire : List UInt8) : Run String (List UInt8 × Bytes 32) :=
  if wire.length < 33 then throw "not an account-state leaf wire node"
  else do
    let tag ← index wire (wire.length - 1)
    if tag ≠ wireAccountState then throw "not an account-state leaf wire node"
    else do
      let n := wire.length
      let keyBytes ← subslice wire (n - 33) (n - 1)
      let key ← copyFromSlice 32 keyBytes
      let item ← subslice wire 0 (n - 33)
      pure (item, key)

def proofFromGetproofpath (proofPath : List (List UInt8)) (kind : UInt8)
    : Run String XspvProof :=
  if proofPath.length < 2 then throw s!"proof_path too short ({proofPath.length})"
  else do
    let first ← index proofPath 0
    let (leafData, leafIndex) ← doing "leaf node" (wireLeafSplit first)
    let inner ← subslice proofPath 1 proofPath.length
    let innerRootToLeaf ← inner.reverse.mapM (fun w => doing "inner node" (wireInnerTo512 w))
    pure { kind, leafIndex, leafData, innerRootToLeaf }

section Hashes

variable (sha512half : List UInt8 → Bytes 32)

/-- The loop over the depths below `d`, from the deepest on. -/
def verifyFrom (proof : XspvProof) (accountHash : Bytes 32) : Nat → Bytes 32 → Run String Bool
  | 0, running => pure (decide (running = accountHash))
  | d + 1, running => do
      let node ← index proof.innerRootToLeaf d
      let byte ← index proof.leafIndex.toList (d / 2)
      let nib := if d % 2 = 0 then byte.toNat / 16 else byte.toNat % 16
      let branch ← subslice node.toList (nib * 32) (nib * 32 + 32)
      if branch ≠ running.toList then pure false
      else verifyFrom proof accountHash d (sha512half (hpInner ++ node.toList))

def verifyInclusion (proof : XspvProof) (accountHash : Bytes 32) : Run String Bool :=
  verifyFrom sha512half proof accountHash proof.innerRootToLeaf.length
    (sha512half (hpLeaf ++ (proof.leafData ++ proof.leafIndex.toList)))

end Hashes

end Indexed

/-- A path made into a proof, and the proof checked. -/
def checkProofPath (sha512half : List UInt8 → Bytes 32) (proofPath : List (List UInt8))
    (kind : UInt8) (accountHash : Bytes 32) : Run String Bool := do
  let proof ← Indexed.proofFromGetproofpath proofPath kind
  Indexed.verifyInclusion sha512half proof accountHash

/-- A node that ends as an account state and has room for a key. -/
def IsLeafNode (wire : List UInt8) : Prop :=
  33 ≤ wire.length ∧ wire.getLast? = some wireAccountState

/-- An inner node in full, or as digests with their branches. -/
def IsInnerNode (wire : List UInt8) : Prop :=
  (∃ body, wire = body ++ [wireInner] ∧ body.length = 512)
  ∨ ∃ chunks : List (List UInt8), wire = chunks.flatten ++ [wireCompressedInner]
    ∧ ∀ chunk ∈ chunks, ∃ (digest : List UInt8) (branch : UInt8),
      chunk = digest ++ [branch] ∧ digest.length = 32 ∧ branch.toNat < 16

-----------------------------------------------------------------------------------------
-- Nodes
-----------------------------------------------------------------------------------------

/-- Setting a branch overwrites its 32 bytes. -/
theorem overwrite_branch (node : Bytes 512) (branch : Fin 16) {digest : List UInt8}
    (sized : digest.length = 32)
    : (overwrite node (branch.val * 32) (branch.val * 32 + 32) digest : Run String (Bytes 512))
      = settled (.ok (setBranch node branch
          (List.Vector.ofFn (fun index : Fin 32 => digest.getD index 0)))) := by
  have fits : branch.val * 32 ≤ branch.val * 32 + 32 ∧ branch.val * 32 + 32 ≤ 512
      ∧ digest.length = branch.val * 32 + 32 - branch.val * 32 := by omega
  have nodeSized := node.toList_length
  rw [overwrite, dif_pos fits]
  refine congrArg (fun out => settled (.ok out)) (List.Vector.ext (fun place => ?_))
  rw [setBranch, List.Vector.get_ofFn]
  have covered : place.val < (node.toList.take (branch.val * 32) ++ digest
      ++ node.toList.drop (branch.val * 32 + 32)).length :=
    place.isLt.trans_eq (length_overwritten node fits).symm
  show (node.toList.take (branch.val * 32) ++ digest
    ++ node.toList.drop (branch.val * 32 + 32))[place.val] = _
  have bound := place.isLt
  have before : (List.take (branch.val * 32) node.toList).length = branch.val * 32 := by
    rw [List.length_take]
    omega
  by_cases front : place.val < branch.val * 32
  · have elsewhere : place.val / 32 ≠ branch.val := by omega
    rw [if_neg elsewhere, List.getElem_append_left (by rw [List.length_append, before]; omega),
      List.getElem_append_left (by rw [before]; exact front), List.getElem_take,
      List.Vector.get_eq_get_toList, List.get_eq_getElem]
    rfl
  · by_cases inside : place.val < branch.val * 32 + 32
    · have here : place.val / 32 = branch.val := by omega
      have offset : place.val - branch.val * 32 = place.val % 32 := by omega
      rw [if_pos here,
        List.getElem_append_left (by rw [List.length_append, before, sized]; exact inside),
        List.getElem_append_right (by rw [before]; omega), List.Vector.get_ofFn,
        List.getD_eq_getElem _ _ (by omega)]
      simp only [before, offset]
    · have elsewhere : place.val / 32 ≠ branch.val := by omega
      have skipped : (List.take (branch.val * 32) node.toList ++ digest).length
          = branch.val * 32 + 32 := by
        rw [List.length_append, before, sized]
      rw [if_neg elsewhere, List.getElem_append_right (by rw [skipped]; omega), List.getElem_drop,
        List.Vector.get_eq_get_toList, List.get_eq_getElem]
      refine getElem_congr_idx ?_
      show branch.val * 32 + 32 + (place.val - _) = place.val
      rw [skipped]
      omega

theorem placeChunk_settled (node : Bytes 512) {chunk : List UInt8} (sized : chunk.length = 33)
    : Indexed.placeChunk node chunk = settled (placeChunk node chunk) := by
  have last : chunk[32]? = some (chunk.getD 32 0) := by
    rw [List.getD_eq_getElem _ _ (by omega), List.getElem?_eq_getElem (by omega)]
  rw [Indexed.placeChunk, index_eq last, settled_ok_bind, placeChunk]
  by_cases inRange : (chunk.getD 32 0).toNat < 16
  · have width : ((chunk.take 32).drop 0).length = 32 := by
      rw [List.drop_zero, List.length_take]
      omega
    rw [if_pos inRange, dif_pos inRange, subslice_eq (by omega) (by omega), settled_ok_bind]
    have written := overwrite_branch node ⟨(chunk.getD 32 0).toNat, inRange⟩ width
    refine written.trans (congrArg (fun digest => settled (.ok (setBranch node _ digest))) ?_)
    refine List.Vector.ext (fun place => ?_)
    have bound := place.isLt
    rw [List.Vector.get_ofFn, List.Vector.get_ofFn, List.drop_zero,
      List.getD_eq_getElem _ _ (by rw [List.length_take]; omega),
      List.getD_eq_getElem _ _ (by omega), List.getElem_take]
  · rw [if_neg inRange, dif_neg inRange]
    rfl

theorem wireInnerTo512_settled (wire : List UInt8)
    : Indexed.wireInnerTo512 wire = settled (wireInnerTo512 wire) := by
  rcases List.eq_nil_or_concat wire with rfl | ⟨body, tag, rfl⟩
  · rfl
  rw [List.concat_eq_append]
  have nonempty : body ++ [tag] ≠ [] := by simp
  have length : (body ++ [tag]).length - 1 = body.length := by simp
  have isTag : (body ++ [tag])[(body ++ [tag]).length - 1]? = some tag := by
    rw [length, List.getElem?_concat_length]
  have isBody : ((body ++ [tag]).take ((body ++ [tag]).length - 1)).drop 0 = body := by
    rw [length, List.take_left' rfl, List.drop_zero]
  rw [Indexed.wireInnerTo512, if_neg nonempty, index_eq isTag, settled_ok_bind,
    subslice_eq (by omega) (by omega), settled_ok_bind, isBody, wireInnerTo512]
  simp only [List.getLast?_concat, List.dropLast_concat]
  by_cases full : tag = wireInner
  · rw [if_pos full, if_pos full]
    by_cases sized : body.length = 512
    · rw [if_pos sized, dif_pos sized, copyFromSlice, dif_pos sized]
      rfl
    · rw [if_neg sized, dif_neg sized]
      rfl
  · rw [if_neg full, if_neg full]
    by_cases compressed : tag = wireCompressedInner
    · rw [if_pos compressed, if_pos compressed]
      by_cases ragged : body.length % 33 ≠ 0
      · rw [if_pos ragged, if_pos ragged]
        rfl
      · rw [if_neg ragged, if_neg ragged]
        have whole : body.length = body.length / 33 * 33 := by omega
        exact foldlM_settled (fun node chunk member =>
          placeChunk_settled node (sized_of_mem_pieces whole member)) _
    · rw [if_neg compressed, if_neg compressed]
      rfl

theorem wireLeafSplit_settled (wire : List UInt8)
    : Indexed.wireLeafSplit wire = settled (wireLeafSplit wire) := by
  rw [Indexed.wireLeafSplit, wireLeafSplit]
  by_cases short : wire.length < 33
  · rw [if_pos short, if_pos (.inl short)]
    rfl
  · rw [if_neg short]
    rcases List.eq_nil_or_concat wire with rfl | ⟨body, tag, rfl⟩
    · exact absurd (by decide) short
    rw [List.concat_eq_append] at short ⊢
    have length : (body ++ [tag]).length = body.length + 1 := by simp
    have isTag : (body ++ [tag])[(body ++ [tag]).length - 1]? = some tag := by
      rw [length, Nat.add_sub_cancel, List.getElem?_concat_length]
    rw [index_eq isTag, settled_ok_bind, List.getLast?_concat]
    by_cases other : tag ≠ wireAccountState
    · rw [if_pos other, if_pos (.inr (fun same => other (Option.some.inj same)))]
      rfl
    · have isLeaf : ¬ ((body ++ [tag]).length < 33 ∨ some tag ≠ some wireAccountState) := by
        rintro (tooShort | wrong)
        · exact short tooShort
        · exact other (fun same => wrong (congrArg some same))
      have keySized : (((body ++ [tag]).take ((body ++ [tag]).length - 1)).drop
          ((body ++ [tag]).length - 33)).length = 32 := by
        rw [List.length_drop, List.length_take]
        omega
      rw [if_neg other, if_neg isLeaf]
      dsimp only
      rw [subslice_eq (by omega) (by omega), settled_ok_bind, copyFromSlice, dif_pos keySized]
      show (subslice _ 0 _ >>= _) = _
      rw [subslice_eq (by omega) (by omega), settled_ok_bind]
      refine congrArg settled (congrArg Except.ok (Prod.ext rfl (List.Vector.ext fun place => ?_)))
      have bound := place.isLt
      rw [List.Vector.get_ofFn, List.Vector.get_eq_get_toList, List.get_eq_getElem,
        List.getD_eq_getElem _ _ (by rw [List.length_take, List.length_drop]; omega),
        List.getElem_take, List.getElem_drop]
      exact (List.getElem_drop ..).trans (List.getElem_take ..)

-----------------------------------------------------------------------------------------
-- Paths
-----------------------------------------------------------------------------------------

theorem doing_settled {α : Type} (what : String) (outcome : Except String α)
    : doing what (settled outcome)
      = settled (outcome.mapError (fun cause => s!"{what}: {cause}")) :=
  rfl

/-- A path is made into a proof without an access out of range. -/
theorem proofFromGetproofpath_settled (proofPath : List (List UInt8)) (kind : UInt8)
    : Indexed.proofFromGetproofpath proofPath kind
      = settled (proofFromGetproofpath proofPath kind) := by
  rw [Indexed.proofFromGetproofpath, proofFromGetproofpath]
  by_cases short : proofPath.length < 2
  · rw [if_pos short, if_pos short]
    rfl
  rw [if_neg short, if_neg short]
  cases proofPath with
  | nil => exact absurd (by decide) short
  | cons first rest =>
      have isRest : ((first :: rest).take (first :: rest).length).drop 1 = rest := by
        rw [List.take_length]
        rfl
      have inner : rest.reverse.mapM (fun w => doing "inner node" (Indexed.wireInnerTo512 w))
          = settled (rest.reverse.mapM (fun wire =>
            (wireInnerTo512 wire).mapError (fun cause => s!"inner node: {cause}"))) := by
        refine mapM_settled (fun wire _ => ?_)
        rw [wireInnerTo512_settled, doing_settled]
        exact congrArg (fun text => settled ((wireInnerTo512 wire).mapError text))
          (funext fun _ => rfl)
      rw [index_eq (List.getElem?_cons_zero), settled_ok_bind, wireLeafSplit_settled, doing_settled,
        subslice_eq (by simp) (le_refl _), isRest, List.headD_cons, List.tail_cons, ← settled_bind]
      refine congrArg (settled _ >>= ·) (funext fun leaf => ?_)
      dsimp only
      rw [settled_ok_bind, inner, ← settled_bind]
      rfl

theorem placeChunk_ok_iff (node : Bytes 512) (chunk : List UInt8)
    : (∃ next, placeChunk node chunk = .ok next) ↔ (chunk.getD 32 0).toNat < 16 := by
  unfold placeChunk
  by_cases inRange : (chunk.getD 32 0).toNat < 16
  · simp only [dif_pos inRange]
    exact ⟨fun _ => inRange, fun _ => ⟨_, rfl⟩⟩
  · simp only [dif_neg inRange]
    refine ⟨fun placed => ?_, fun given => absurd given inRange⟩
    obtain ⟨_, placed⟩ := placed
    cases placed

theorem foldlM_placeChunk_ok_iff (chunks : List (List UInt8))
    : ∀ node, (∃ filled, chunks.foldlM placeChunk node = .ok filled)
        ↔ ∀ chunk ∈ chunks, (chunk.getD 32 0).toNat < 16 := by
  induction chunks with
  | nil =>
      exact fun node => ⟨fun _ _ member => absurd member List.not_mem_nil, fun _ => ⟨node, rfl⟩⟩
  | cons chunk rest ih =>
      intro node
      rw [List.forall_mem_cons, ← placeChunk_ok_iff node]
      constructor
      · intro folded
        obtain ⟨filled, folded⟩ := folded
        obtain ⟨next, first, later⟩ := Except.bind_eq_ok_iff.mp folded
        exact ⟨⟨next, first⟩, (ih next).mp ⟨filled, later⟩⟩
      · intro each
        obtain ⟨⟨next, first⟩, later⟩ := each
        obtain ⟨filled, folded⟩ := (ih next).mpr later
        exact ⟨filled, Except.bind_eq_ok_iff.mpr ⟨next, first, folded⟩⟩

/-- A chunk is a digest and its branch. -/
theorem chunk_iff {chunk : List UInt8} (sized : chunk.length = 33)
    : (chunk.getD 32 0).toNat < 16
      ↔ ∃ (digest : List UInt8) (branch : UInt8),
          chunk = digest ++ [branch] ∧ digest.length = 32 ∧ branch.toNat < 16 := by
  constructor
  · intro small
    have split : chunk = chunk.take 32 ++ [chunk.getD 32 0] := by
      rw [List.getD_eq_getElem _ _ (by omega)]
      refine ((List.take_append_getElem (by omega)).trans ?_).symm
      exact List.take_of_length_le (by omega)
    exact ⟨_, _, split, by rw [List.length_take]; omega, small⟩
  · rintro ⟨digest, branch, rfl, length, small⟩
    rw [List.getD_append_right _ _ _ _ (by omega), length]
    exact small

/-- The nodes that are read are those in one of the two forms. -/
theorem wireInnerTo512_ok_iff (wire : List UInt8)
    : (∃ node, wireInnerTo512 wire = .ok node) ↔ IsInnerNode wire := by
  have differ : wireInner ≠ wireCompressedInner := by decide
  rcases List.eq_nil_or_concat wire with rfl | ⟨body, tag, rfl⟩
  · refine ⟨fun read => ?_, fun isNode => ?_⟩
    · obtain ⟨_, read⟩ := read
      cases read
    · rcases isNode with ⟨_, same, _⟩ | ⟨_, same, _⟩
      · exact absurd same.symm (by simp)
      · exact absurd same.symm (by simp)
  rw [List.concat_eq_append]
  constructor
  · intro read
    obtain ⟨node, read⟩ := read
    simp only [wireInnerTo512, List.getLast?_concat, List.dropLast_concat] at read
    split_ifs at read with full sized compressed ragged
    · exact .inl ⟨body, by rw [full], sized⟩
    · have whole : body.length = body.length / 33 * 33 := by omega
      have small := (foldlM_placeChunk_ok_iff _ _).mp ⟨node, read⟩
      refine .inr ⟨pieces 33 (body.length / 33) body, ?_, fun chunk member => ?_⟩
      · rw [flatten_pieces whole, compressed]
      · exact (chunk_iff (sized_of_mem_pieces whole member)).mp (small chunk member)
  · intro isNode
    rcases isNode with ⟨other, same, sized⟩ | ⟨chunks, same, each⟩
    · obtain ⟨rfl, last⟩ := List.append_inj' same rfl
      cases last
      exact ⟨_, wireInnerTo512_full sized⟩
    · obtain ⟨rfl, last⟩ := List.append_inj' same rfl
      cases last
      have sized : ∀ chunk ∈ chunks, chunk.length = 33 := by
        intro chunk member
        obtain ⟨digest, branch, rfl, length, _⟩ := each chunk member
        rw [List.length_append, length]
        rfl
      rw [wireInnerTo512_compressed (length_flatten_of_sized sized), pieces_flatten sized]
      exact (foldlM_placeChunk_ok_iff chunks _).mpr (fun chunk member =>
        (chunk_iff (sized chunk member)).mpr (each chunk member))

theorem wireLeafSplit_ok_iff (wire : List UInt8)
    : (∃ leaf, wireLeafSplit wire = .ok leaf) ↔ IsLeafNode wire := by
  unfold wireLeafSplit IsLeafNode
  split
  case isTrue refused =>
    refine ⟨fun read => ?_, fun isLeaf => ?_⟩
    · obtain ⟨_, read⟩ := read
      cases read
    · rcases refused with short | other
      · exact absurd isLeaf.1 (Nat.not_le.mpr short)
      · exact absurd isLeaf.2 other
  case isFalse accepted =>
    obtain ⟨long, tag⟩ := not_or.mp accepted
    exact ⟨fun _ => ⟨Nat.not_lt.mp long, not_not.mp tag⟩, fun _ => ⟨_, rfl⟩⟩

/-- A proof has the inner nodes of its path. -/
theorem length_of_proofFromGetproofpath {proofPath : List (List UInt8)} {kind : UInt8}
    {proof : XspvProof} (made : proofFromGetproofpath proofPath kind = .ok proof)
    : proof.innerRootToLeaf.length = proofPath.length - 1 := by
  unfold proofFromGetproofpath at made
  split at made
  case isTrue => cases made
  case isFalse =>
    obtain ⟨leaf, _, made⟩ := Except.bind_eq_ok_iff.mp made
    obtain ⟨nodes, read, made⟩ := Except.bind_eq_ok_iff.mp made
    cases made
    rw [← (Except.mapM_eq_ok_iff.mp read).length_eq, List.length_reverse, List.length_tail]

/-- A proof is made of every path of a leaf and inner nodes. -/
theorem proofFromGetproofpath_ok_iff (proofPath : List (List UInt8)) (kind : UInt8)
    : (∃ proof, proofFromGetproofpath proofPath kind = .ok proof)
      ↔ 2 ≤ proofPath.length ∧ IsLeafNode (proofPath.headD [])
        ∧ ∀ wire ∈ proofPath.tail, IsInnerNode wire := by
  unfold proofFromGetproofpath
  split
  case isTrue short =>
    refine ⟨fun made => ?_, fun given => absurd given.1 (Nat.not_le.mpr short)⟩
    obtain ⟨_, made⟩ := made
    cases made
  case isFalse long =>
    constructor
    · intro made
      obtain ⟨proof, made⟩ := made
      obtain ⟨leaf, isLeaf, made⟩ := Except.bind_eq_ok_iff.mp made
      obtain ⟨nodes, read, made⟩ := Except.bind_eq_ok_iff.mp made
      refine ⟨Nat.not_lt.mp long,
        (wireLeafSplit_ok_iff _).mp ⟨leaf, Except.mapError_eq_ok_iff.mp isLeaf⟩,
        fun wire member => ?_⟩
      obtain ⟨node, isNode⟩ :=
        Except.exists_mapM_eq_ok_iff.mp ⟨nodes, read⟩ wire (List.mem_reverse.mpr member)
      exact (wireInnerTo512_ok_iff wire).mp ⟨node, Except.mapError_eq_ok_iff.mp isNode⟩
    · intro given
      obtain ⟨_, first, inner⟩ := given
      obtain ⟨leaf, isLeaf⟩ := (wireLeafSplit_ok_iff _).mpr first
      obtain ⟨nodes, read⟩ : ∃ nodes, proofPath.tail.reverse.mapM (fun wire =>
          (wireInnerTo512 wire).mapError (fun cause => s!"inner node: {cause}")) = .ok nodes := by
        refine Except.exists_mapM_eq_ok_iff.mpr (fun wire member => ?_)
        obtain ⟨node, isNode⟩ :=
          (wireInnerTo512_ok_iff wire).mpr (inner wire (List.mem_reverse.mp member))
        exact ⟨node, Except.mapError_eq_ok_iff.mpr isNode⟩
      exact ⟨_, Except.bind_eq_ok_iff.mpr ⟨leaf, Except.mapError_eq_ok_iff.mpr isLeaf,
        Except.bind_eq_ok_iff.mpr ⟨nodes, read, rfl⟩⟩⟩

section Check

variable {sha512half : List UInt8 → Bytes 32}

theorem branchOf_toList (node : Bytes 512) (branch : Fin 16)
    : (branchOf node branch).toList
      = (node.toList.take (branch.val * 32 + 32)).drop (branch.val * 32) := by
  have sized := node.toList_length
  have length : ((node.toList.take (branch.val * 32 + 32)).drop (branch.val * 32)).length = 32 := by
    rw [List.length_drop, List.length_take]
    omega
  refine List.ext_getElem (by rw [List.Vector.toList_length, length]) (fun place inside _ => ?_)
  rw [List.Vector.toList_length] at inside
  have read := List.Vector.get_eq_get_toList (branchOf node branch) ⟨place, inside⟩
  rw [List.get_eq_getElem] at read
  refine read.symm.trans ?_
  rw [branchOf, List.Vector.get_ofFn, List.Vector.get_eq_get_toList, List.get_eq_getElem,
    List.getElem_drop, List.getElem_take]
  rfl

/-- Within the 64 half bytes of an index the loop is the climb along the nodes above it. -/
theorem verifyFrom_eq (proof : XspvProof) (accountHash : Bytes 32) {d : Nat}
    (shallow : d ≤ maxDepth) (within : d ≤ proof.innerRootToLeaf.length) (running : Bytes 32)
    : Indexed.verifyFrom sha512half proof accountHash d running
      = settled (.ok (decide (((stateScheme sha512half).climb stateNibble proof.leafIndex 0
          (proof.innerRootToLeaf.take d) running).toOption = some accountHash))) := by
  induction d generalizing running with
  | zero =>
      rw [Indexed.verifyFrom, List.take_zero]
      refine congrArg (fun answer => settled (.ok answer)) (decide_eq_decide.mpr ?_)
      exact ⟨congrArg some, Option.some.inj⟩
  | succ d ih =>
      have keySized := proof.leafIndex.toList_length
      have half : d / 2 < proof.leafIndex.toList.length := by
        have bound : d < 64 := shallow
        omega
      have found := List.getElem?_eq_getElem (show d < proof.innerRootToLeaf.length from within)
      have byteAt := List.getElem?_eq_getElem half
      have nodeSized := (proof.innerRootToLeaf[d]).toList_length
      have isNibble : (nibble proof.leafIndex d).val
          = if d % 2 = 0 then proof.leafIndex.toList[d / 2].toNat / 16
            else proof.leafIndex.toList[d / 2].toNat % 16 := by
        have small := (proof.leafIndex.toList[d / 2]).toNat_lt
        rw [nibble, List.getD_eq_getElem _ _ half]
        split
        · exact Nat.mod_eq_of_lt (by omega)
        · exact Nat.mod_eq_of_lt (by omega)
      have bound := (nibble proof.leafIndex d).isLt
      rw [Indexed.verifyFrom, index_eq found, settled_ok_bind, index_eq byteAt, settled_ok_bind]
      dsimp only
      rw [← isNibble, subslice_eq (by omega) (by omega), settled_ok_bind, ← branchOf_toList,
        List.take_add_one, found, Option.toList_some, Merkle.climb_concat, List.length_take,
        Nat.min_eq_left (Nat.le_of_succ_le within), Nat.zero_add]
      by_cases same : branchOf proof.innerRootToLeaf[d] (nibble proof.leafIndex d) = running
      · have sameBytes : ¬ (branchOf proof.innerRootToLeaf[d]
            (nibble proof.leafIndex d)).toList ≠ running.toList :=
          fun different => different (congrArg _ same)
        rw [if_neg sameBytes, ih (Nat.le_of_succ_le shallow) (Nat.le_of_succ_le within)]
        exact congrArg (fun climbed : Except Nat (Bytes 32) =>
          settled (.ok (decide (climbed.toOption = some accountHash)))) (if_pos same).symm
      · have different : (branchOf proof.innerRootToLeaf[d]
            (nibble proof.leafIndex d)).toList ≠ running.toList :=
          fun equal => same (List.Vector.eq _ _ equal)
        have noRoot : (pure false : Run String Bool) = settled (.ok (decide
            ((Except.error d : Except Nat (Bytes 32)).toOption = some accountHash))) := rfl
        rw [if_pos different, noRoot]
        exact (congrArg (fun climbed : Except Nat (Bytes 32) =>
          settled (.ok (decide (climbed.toOption = some accountHash)))) (if_neg same)).symm

/-- The check by index is the check of the model, whose `none` is an access out of range. -/
theorem verifyInclusion_indexed (proof : XspvProof) (accountHash : Bytes 32)
    : Indexed.verifyInclusion sha512half proof accountHash
      = (verifyInclusion sha512half proof accountHash).elim crash (fun answer =>
        settled (.ok answer)) := by
  rw [Indexed.verifyInclusion, verifyInclusion]
  by_cases deep : maxDepth < proof.innerRootToLeaf.length
  · rw [if_pos deep]
    obtain ⟨d, length⟩ := Nat.exists_eq_add_one_of_ne_zero (Nat.ne_of_gt (Nat.zero_lt_of_lt deep))
    have keySized := proof.leafIndex.toList_length
    have beyond : proof.leafIndex.toList.length ≤ d / 2 := by
      have bound : 64 < proof.innerRootToLeaf.length := deep
      omega
    have found := List.getElem?_eq_getElem (show d < proof.innerRootToLeaf.length by omega)
    rw [length, Indexed.verifyFrom, index_eq found, settled_ok_bind, index_eq_crash beyond]
    rfl
  · rw [if_neg deep, verifyFrom_eq proof accountHash (Nat.not_lt.mp deep) (le_refl _),
      List.take_length]
    show settled (.ok (decide (Except.toOption ((stateScheme sha512half).climb stateNibble
      proof.leafIndex 0 proof.innerRootToLeaf
      ((stateScheme sha512half).leaf proof.leafIndex proof.leafData)) = some accountHash))) = _
    cases (stateScheme sha512half).climb stateNibble proof.leafIndex 0 proof.innerRootToLeaf
        ((stateScheme sha512half).leaf proof.leafIndex proof.leafData) with
    | error depth => rfl
    | ok running =>
        refine congrArg (fun answer => settled (.ok answer)) (decide_eq_decide.mpr ?_)
        exact ⟨Option.some.inj, congrArg some⟩

/-- What becomes of a path: its error, or an access out of range when it has more inner nodes
than an index has half bytes, or the answer of the check.
-/
theorem checkProofPath_eq (proofPath : List (List UInt8)) (kind : UInt8)
    (accountHash : Bytes 32)
    : checkProofPath sha512half proofPath kind accountHash
      = settled (proofFromGetproofpath proofPath kind) >>= fun proof =>
        (verifyInclusion sha512half proof accountHash).elim crash (fun answer =>
          settled (.ok answer)) := by
  rw [checkProofPath, proofFromGetproofpath_settled]
  exact congrArg (settled (proofFromGetproofpath proofPath kind) >>= ·)
    (funext fun proof => verifyInclusion_indexed proof accountHash)

theorem verifyInclusion_eq_none_iff (proof : XspvProof) (accountHash : Bytes 32)
    : verifyInclusion sha512half proof accountHash = none
      ↔ maxDepth < proof.innerRootToLeaf.length := by
  unfold verifyInclusion
  split
  case isTrue deep => exact ⟨fun _ => deep, fun _ => rfl⟩
  case isFalse shallow =>
    refine ⟨fun stopped => ?_, fun deep => absurd deep shallow⟩
    split at stopped <;> cases stopped

/-- The check stops exactly on a path of a leaf and more than 64 inner nodes. -/
theorem run_checkProofPath_eq_none_iff (proofPath : List (List UInt8)) (kind : UInt8)
    (accountHash : Bytes 32)
    : (checkProofPath sha512half proofPath kind accountHash).run = none
      ↔ 65 < proofPath.length ∧ IsLeafNode (proofPath.headD [])
        ∧ ∀ wire ∈ proofPath.tail, IsInnerNode wire := by
  have readable := proofFromGetproofpath_ok_iff proofPath kind
  rw [checkProofPath_eq]
  cases made : proofFromGetproofpath proofPath kind with
  | error message =>
      refine ⟨fun stopped => (by cases stopped), fun given => ?_⟩
      obtain ⟨proof, other⟩ := readable.mpr ⟨by omega, given.2⟩
      cases made.symm.trans other
  | ok proof =>
      have isPath := readable.mp ⟨proof, made⟩
      have length := length_of_proofFromGetproofpath made
      have deep : verifyInclusion sha512half proof accountHash = none
          ↔ maxDepth < proof.innerRootToLeaf.length :=
        verifyInclusion_eq_none_iff proof accountHash
      rw [settled_ok_bind]
      have stops : ((verifyInclusion sha512half proof accountHash).elim crash (fun answer =>
          settled (.ok answer)) : Run String Bool).run = none
            ↔ verifyInclusion sha512half proof accountHash = none := by
        cases verifyInclusion sha512half proof accountHash with
        | none => exact ⟨fun _ => rfl, fun _ => rfl⟩
        | some answer =>
            exact ⟨fun stopped => (by cases stopped), fun stopped => (by cases stopped)⟩
      rw [stops, deep, length]
      constructor
      · intro many
        have bound : 64 < proofPath.length - 1 := many
        exact ⟨by omega, isPath.2⟩
      · intro given
        show 64 < proofPath.length - 1
        omega

/-- The check of a path ends, and accepts none of more than 64 inner nodes, exactly if the path
has no more than that or some node of it cannot be read.
-/
theorem check_never_stops_iff (proofPath : List (List UInt8)) (kind : UInt8)
    (accountHash : Bytes 32)
    : ((checkProofPath sha512half proofPath kind accountHash).run ≠ none
        ∧ ((checkProofPath sha512half proofPath kind accountHash).run = some (.ok true) →
          proofPath.length - 1 ≤ 64))
      ↔ proofPath.length ≤ 65 ∨ ¬ IsLeafNode (proofPath.headD [])
        ∨ ∃ wire ∈ proofPath.tail, ¬ IsInnerNode wire := by
  have stops : (checkProofPath sha512half proofPath kind accountHash).run = none
      ↔ 65 < proofPath.length ∧ IsLeafNode (proofPath.headD [])
        ∧ ∀ wire ∈ proofPath.tail, IsInnerNode wire :=
    run_checkProofPath_eq_none_iff proofPath kind accountHash
  constructor
  · intro ends
    by_contra none
    rw [not_or, not_or, not_le, not_not] at none
    obtain ⟨long, isLeaf, readable⟩ := none
    refine ends.1 (stops.mpr ⟨long, isLeaf, fun wire member => ?_⟩)
    by_contra foreign
    exact readable ⟨wire, member, foreign⟩
  · intro given
    refine ⟨fun stopped => ?_, fun accepted => ?_⟩
    · obtain ⟨long, isLeaf, readable⟩ := stops.mp stopped
      rcases given with short | foreign | ⟨wire, member, foreign⟩
      · omega
      · exact foreign isLeaf
      · exact foreign (readable wire member)
    · -- what was accepted has been read, and it did not stop
      rw [checkProofPath_eq] at accepted
      cases made : proofFromGetproofpath proofPath kind with
      | error message =>
          rw [made] at accepted
          cases accepted
      | ok proof =>
          rw [made, settled_ok_bind] at accepted
          have length := length_of_proofFromGetproofpath made
          have deep : verifyInclusion sha512half proof accountHash = none
          ↔ maxDepth < proof.innerRootToLeaf.length :=
        verifyInclusion_eq_none_iff proof accountHash
          by_contra long
          rw [deep.mpr (show 64 < proof.innerRootToLeaf.length by omega)] at accepted
          cases accepted

/-- A leaf with 65 compressed nodes of no branches. -/
def deepPath : List (List UInt8) :=
  (List.replicate 32 0 ++ [wireAccountState]) :: List.replicate 65 [wireCompressedInner]

/-- The check of the deep path reads the half byte of a 65th node. -/
theorem deep_path_stops
    : ¬ ((checkProofPath (fun _ => List.Vector.replicate 32 0) deepPath 0
          (List.Vector.replicate 32 0)).run ≠ none
        ∧ ((checkProofPath (fun _ => List.Vector.replicate 32 0) deepPath 0
            (List.Vector.replicate 32 0)).run = some (.ok true) →
          deepPath.length - 1 ≤ 64)) := by
  intro ends
  exact ends.1 (by decide +kernel)

end Check

end PerpDex.SpvProof
