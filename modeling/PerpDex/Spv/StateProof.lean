import PerpDex.Lib.FixedWidth
import PerpDex.Spv.StateShaMap

/-! Two ways to a state proof: read off the tree that is rebuilt from a dump, or converted from
the path a node serves. Nodes write an inner node in full or as its non-empty branches. Both
ways give the same proof, and it checks.
-/

namespace PerpDex.SpvProof

open FixedWidth
open TxShamap (nibble flatten branchOf branchOf_flatten hpInner maxDepth PathError bytes32)

-----------------------------------------------------------------------------------------
-- Nodes on the wire
-----------------------------------------------------------------------------------------

/-- A leaf of the account state. -/
def wireAccountState : UInt8 := 1

/-- An inner node with all sixteen branches. -/
def wireInner : UInt8 := 2

/-- An inner node as digests with their branches. -/
def wireCompressedInner : UInt8 := 3

/-- An offset into a branch. -/
theorem offset_lt (index : Fin 512) : index.val % 32 < 32 := Nat.mod_lt _ (by decide)

def setBranch (node : Bytes 512) (branch : Fin 16) (digest : Bytes 32) : Bytes 512 :=
  List.Vector.ofFn (fun index : Fin 512 =>
    if index / 32 = branch.val then digest.get ⟨index % 32, offset_lt index⟩ else node.get index)

/-- Put one digest into its branch, which stands behind it. -/
def placeChunk (node : Bytes 512) (chunk : List UInt8) : Except String (Bytes 512) :=
  let branch := (chunk.getD 32 0).toNat
  if inRange : branch < 16 then
    .ok (setBranch node ⟨branch, inRange⟩
      (List.Vector.ofFn (fun index : Fin 32 => chunk.getD index 0)))
  else .error s!"compressed inner branch {branch} out of range"

def wireInnerTo512 (wire : List UInt8) : Except String (Bytes 512) :=
  match wire.getLast? with
  | none => .error "empty inner wire node"
  | some tag =>
      let body := wire.dropLast
      if tag = wireInner then
        if sized : body.length = 512 then .ok ⟨body, sized⟩
        else .error s!"full inner must be 512+1 bytes, got {wire.length}"
      else if tag = wireCompressedInner then
        if body.length % 33 ≠ 0 then
          .error s!"compressed inner body must be a multiple of 33, got {body.length}"
        else (pieces 33 (body.length / 33) body).foldlM placeChunk (List.Vector.replicate 512 0)
      else .error s!"not an inner wire node (tag {tag})"

/-- The object and the index of a leaf. -/
def wireLeafSplit (wire : List UInt8) : Except String (List UInt8 × Bytes 32) :=
  if wire.length < 33 ∨ wire.getLast? ≠ some wireAccountState then
    .error "not an account-state leaf wire node"
  else
    let key := (wire.drop (wire.length - 33)).take 32
    .ok (wire.take (wire.length - 33), List.Vector.ofFn (fun index : Fin 32 => key.getD index 0))

/-- The proof in a path that begins with the leaf and ends with the root. -/
def proofFromGetproofpath (proofPath : List (List UInt8)) (kind : UInt8)
    : Except String XspvProof := do
  if proofPath.length < 2 then .error s!"proof_path too short ({proofPath.length})"
  else
    let (leafData, leafIndex) ← (wireLeafSplit (proofPath.headD [])).mapError
      (fun cause => s!"leaf node: {cause}")
    let innerRootToLeaf ← proofPath.tail.reverse.mapM (fun wire =>
      (wireInnerTo512 wire).mapError (fun cause => s!"inner node: {cause}"))
    .ok { kind, leafIndex, leafData, innerRootToLeaf }

/-- Replay of the enclave's check, from the leaf up; `none` is the panic on an index that has no
half byte for the deepest node.
-/
def verifyInclusion (sha512half : List UInt8 → Bytes 32) (proof : XspvProof)
    (accountHash : Bytes 32) : Option Bool :=
  if maxDepth < proof.innerRootToLeaf.length then none
  else
    match (stateScheme sha512half).climb stateNibble proof.leafIndex 0 proof.innerRootToLeaf
        ((stateScheme sha512half).leaf proof.leafIndex proof.leafData) with
    | .error _ => some false
    | .ok running => some (decide (running = accountHash))

-----------------------------------------------------------------------------------------
-- The path a node serves
-----------------------------------------------------------------------------------------

/-- An inner node in one of its two forms. The branches that are left out are empty. -/
inductive WireForm (digests : Fin 16 → Bytes 32) : List UInt8 → Prop
  | full : WireForm digests ((flatten digests).toList ++ [wireInner])
  | compressed {branches : List (Fin 16)} (distinct : branches.Nodup)
    (rest : ∀ branch, branch ∉ branches → digests branch = List.Vector.replicate 32 0)
    : WireForm digests
        (branches.flatMap (fun branch => (digests branch).toList ++ [UInt8.ofNat branch])
          ++ [wireCompressedInner])

/-- The path of an index: its leaf, and then the inner nodes from the deepest to the root. -/
def ServedPath (sha512half : List UInt8 → Bytes 32) (map : StateShaMap) (key : Bytes 32)
    (path : List (List UInt8)) : Prop :=
  ∃ data nodes,
    (map.root.walk stateNibble key 0).2 = .leaf key data
    ∧ path = (data ++ key.toList ++ [wireAccountState]) :: nodes
    ∧ List.Forall₂
        (fun children =>
          WireForm (fun branch => (stateScheme sha512half).hash (children branch)))
        (map.root.walk stateNibble key 0).1.reverse nodes

-----------------------------------------------------------------------------------------
-- Reading an inner node
-----------------------------------------------------------------------------------------

theorem branchOf_setBranch (node : Bytes 512) (branch other : Fin 16) (digest : Bytes 32)
    : branchOf (setBranch node branch digest) other
      = if other = branch then digest else branchOf node other := by
  have quotient : ∀ index : Fin 32, (other.val * 32 + index.val) / 32 = other.val := by omega
  have remainder : ∀ index : Fin 32, (other.val * 32 + index.val) % 32 = index.val := by omega
  refine List.Vector.ext (fun index => ?_)
  simp only [branchOf, setBranch, List.Vector.get_ofFn, quotient, remainder]
  by_cases same : other = branch
  · simp [same]
  · have differ : ¬ other.val = branch.val := fun values => same (Fin.ext values)
    simp [same, differ]

/-- A node is its branches. -/
theorem node_ext {left right : Bytes 512}
    (same : ∀ branch, branchOf left branch = branchOf right branch)
    : left = right := by
  refine List.Vector.ext (fun index => ?_)
  have place := congrArg (List.Vector.get · ⟨index % 32, by omega⟩)
    (same ⟨index / 32, by omega⟩)
  simp only [branchOf, List.Vector.get_ofFn] at place
  have whole : index.val / 32 * 32 + index.val % 32 = index.val := by omega
  simpa only [whole] using place

/-- The bytes of an array, one by one. -/
theorem ofFn_getD {size : Nat} (array : Bytes size) (rest : List UInt8)
    : List.Vector.ofFn (fun index : Fin size => (array.toList ++ rest).getD index 0) = array := by
  refine List.Vector.ext (fun index => ?_)
  have within : index.val < array.toList.length := by
    rw [List.Vector.toList_length]
    exact index.isLt
  rw [List.Vector.get_ofFn, List.getD_append _ _ _ _ within, List.getD_eq_getElem _ _ within,
    List.Vector.get_eq_get_toList, List.get_eq_getElem]
  rfl

theorem placeChunk_eq (node : Bytes 512) (branch : Fin 16) (digest : Bytes 32)
    : placeChunk node (digest.toList ++ [UInt8.ofNat branch])
      = .ok (setBranch node branch digest) := by
  have last : ((digest.toList ++ [UInt8.ofNat branch]).getD 32 0).toNat = branch := by
    have length : digest.toList.length = 32 := digest.toList_length
    rw [List.getD_append_right _ _ _ _ length.le, length]
    have small := branch.isLt
    show (UInt8.ofNat branch).toNat = branch
    rw [UInt8.toNat_ofNat']
    omega
  simp only [placeChunk, last, branch.isLt, dite_true, ofFn_getD]

/-- Each listed branch holds its digest in the end, and the others are as before. -/
theorem foldlM_placeChunk (digests : Fin 16 → Bytes 32) (branches : List (Fin 16))
    : ∀ node,
        ∃ filled,
          (branches.map (fun branch => (digests branch).toList ++ [UInt8.ofNat branch])).foldlM
            placeChunk node = .ok filled
          ∧ ∀ branch, branchOf filled branch
              = if branch ∈ branches then digests branch else branchOf node branch := by
  induction branches with
  | nil => exact fun node => ⟨node, rfl, fun _ => by simp⟩
  | cons first branches ih =>
      intro node
      obtain ⟨filled, folded, holds⟩ := ih (setBranch node first (digests first))
      refine ⟨filled, ?_, fun branch => ?_⟩
      · rw [List.map_cons, List.foldlM_cons, placeChunk_eq]
        exact folded
      · rw [holds, branchOf_setBranch]
        by_cases listed : branch ∈ branches
        · simp [listed]
        · by_cases isFirst : branch = first
          · simp [isFirst]
          · simp [listed, isFirst]

theorem wireInnerTo512_full {body : List UInt8} (sized : body.length = 512)
    : wireInnerTo512 (body ++ [wireInner]) = .ok ⟨body, sized⟩ := by
  simp only [wireInnerTo512, List.getLast?_concat, List.dropLast_concat, if_true, dif_pos sized]

theorem wireInnerTo512_compressed {body : List UInt8} {count : Nat}
    (length : body.length = count * 33)
    : wireInnerTo512 (body ++ [wireCompressedInner])
      = (pieces 33 count body).foldlM placeChunk (List.Vector.replicate 512 0) := by
  have notFull : wireCompressedInner ≠ wireInner := by decide
  simp only [wireInnerTo512, List.getLast?_concat, List.dropLast_concat, if_neg notFull, if_true,
    length, Nat.mul_mod_left, ne_eq, not_true_eq_false, if_false,
    Nat.mul_div_cancel _ (show 0 < 33 by decide)]

/-- Both forms are read as the digests of all sixteen branches. -/
theorem WireForm.read {digests : Fin 16 → Bytes 32} {wire : List UInt8}
    (form : WireForm digests wire)
    : wireInnerTo512 wire = .ok (flatten digests) := by
  cases form with
  | full =>
      generalize flatten digests = node
      exact wireInnerTo512_full node.toList_length
  | @compressed branches distinct rest =>
      have sized : ∀ chunk ∈ branches.map (fun branch =>
          (digests branch).toList ++ [UInt8.ofNat branch]), chunk.length = 33 := by
        intro chunk member
        obtain ⟨branch, -, rfl⟩ := List.mem_map.mp member
        rw [List.length_append, List.Vector.toList_length]
        rfl
      have length := length_flatten_of_sized sized
      rw [List.length_map] at length
      obtain ⟨filled, folded, holds⟩ :=
        foldlM_placeChunk digests branches (List.Vector.replicate 512 0)
      have isNode : filled = flatten digests := by
        refine node_ext (fun branch => ?_)
        rw [holds, branchOf_flatten]
        split
        · rfl
        · rename_i unlisted
          rw [rest branch unlisted]
          refine List.Vector.ext (fun index => ?_)
          simp only [branchOf, List.Vector.get_ofFn, List.Vector.get_replicate]
      have cut := pieces_flatten sized
      rw [List.length_map] at cut
      rw [List.flatMap_def, wireInnerTo512_compressed length, cut, folded, isNode]

theorem wireLeafSplit_leaf (data : List UInt8) (key : Bytes 32)
    : wireLeafSplit (data ++ key.toList ++ [wireAccountState]) = .ok (data, key) := by
  have length : (data ++ key.toList ++ [wireAccountState]).length = data.length + 33 := by simp
  have isLeaf : ¬ ((data ++ key.toList ++ [wireAccountState]).length < 33
      ∨ (data ++ key.toList ++ [wireAccountState]).getLast? ≠ some wireAccountState) := by
    rw [List.getLast?_concat, length]
    simp
  have isKey := ofFn_getD key []
  rw [List.append_nil] at isKey
  rw [wireLeafSplit, if_neg isLeaf, length, Nat.add_sub_cancel, List.append_assoc,
    List.take_left' rfl, List.drop_left' rfl, List.take_left' key.toList_length]
  exact congrArg (fun found => Except.ok (data, found)) isKey

-----------------------------------------------------------------------------------------
-- Producing and checking
-----------------------------------------------------------------------------------------

section Proofs

variable {sha512half : List UInt8 → Bytes 32}

/-- The path of an index that leads to its own leaf. -/
theorem stateProofFrom_ok {target : Bytes 32} {data : List UInt8} (node : StateNode)
    : ∀ {depth : Nat}, depth + (node.walk stateNibble target depth).1.length ≤ maxDepth
      → (node.walk stateNibble target depth).2 = .leaf target data
      → stateProofFrom sha512half target depth node
        = .ok ((stateScheme sha512half).opening stateNibble target depth node, data) := by
  induction node with
  | empty =>
      intro depth shallow ends
      cases ends
  | leaf key value =>
      intro depth shallow ends
      cases ends
      rw [stateProofFrom, if_neg (not_not.mpr rfl)]
      rfl
  | inner children ih =>
      intro depth shallow ends
      have length : (Trie.walk stateNibble target depth (.inner children)).1.length
          = ((children (stateNibble target depth)).walk stateNibble target
              (depth + 1)).1.length + 1 := rfl
      rw [length] at shallow
      rw [stateProofFrom, if_neg (by omega), ih (stateNibble target depth) (by omega) ends]
      rfl

/-- An index that leads elsewhere is refused. -/
theorem stateProofFrom_refused {target : Bytes 32} (node : StateNode)
    : ∀ {depth : Nat}, depth + (node.walk stateNibble target depth).1.length ≤ maxDepth
      → (∀ data, (node.walk stateNibble target depth).2 ≠ .leaf target data)
      → ∃ message, stateProofFrom sha512half target depth node = .error (.refused message) := by
  induction node with
  | empty => exact fun _ _ => ⟨_, rfl⟩
  | leaf key value =>
      intro depth shallow elsewhere
      have other : key ≠ target := by
        rintro rfl
        exact elsewhere value rfl
      rw [stateProofFrom, if_pos other]
      exact ⟨_, rfl⟩
  | inner children ih =>
      intro depth shallow elsewhere
      have length : (Trie.walk stateNibble target depth (.inner children)).1.length
          = ((children (stateNibble target depth)).walk stateNibble target
              (depth + 1)).1.length + 1 := rfl
      rw [length] at shallow
      obtain ⟨message, refused⟩ := ih (stateNibble target depth) (by omega) elsewhere
      rw [stateProofFrom, if_neg (by omega), refused]
      exact ⟨message, rfl⟩

/-- The way of an index in a tree of entries: short enough, and to their leaves only. -/
theorem walk_stateRoot (entries : List (Bytes 32 × List UInt8)) (target : Bytes 32)
    : ((stateRoot entries).walk stateNibble target 0).1.length ≤ maxDepth
      ∧ ∀ data, ((stateRoot entries).walk stateNibble target 0).2 = .leaf target data
          → (target, data) ∈ entries := by
  rw [stateRoot]
  split
  · exact ⟨Nat.zero_le _, fun _ ends => (by cases ends)⟩
  · exact ⟨Trie.length_walk_childrenOf 63 0 entries target,
      fun _ ends => Trie.mem_of_walk_childrenOf ends⟩

/-- The index of an entry leads to its object, through the root at least. -/
theorem walk_stateRoot_mem {entries : List (Bytes 32 × List UInt8)} {key : Bytes 32}
    {data : List UInt8} (spread : Trie.Spread stateNibble 0 63 entries)
    (member : (key, data) ∈ entries)
    : ((stateRoot entries).walk stateNibble key 0).2 = .leaf key data
      ∧ 1 ≤ ((stateRoot entries).walk stateNibble key 0).1.length := by
  have nonempty : entries.isEmpty = false := by
    cases entries with
    | nil => cases member
    | cons _ _ => rfl
  have isInner : stateRoot entries = .inner (Trie.childrenOf stateNibble 63 0 entries) := by
    rw [stateRoot, nonempty]
    rfl
  rw [isInner]
  exact ⟨@Trie.walk_childrenOf _ _ _ _ stateNibble 62 0 entries key data spread member,
    Nat.succ_pos _⟩

/-- The proof that a tree has for an index. -/
def proofOf (sha512half : List UInt8 → Bytes 32) (map : StateShaMap) (key : Bytes 32)
    (data : List UInt8) : XspvProof where
  kind := 0
  leafIndex := key
  leafData := data
  innerRootToLeaf := (stateScheme sha512half).opening stateNibble key 0 map.root

/-- A proof read off the tree checks against its root. -/
theorem verifyInclusion_proofOf {map : StateShaMap} {key : Bytes 32} {data : List UInt8}
    (shallow : (map.root.walk stateNibble key 0).1.length ≤ maxDepth)
    (ends : (map.root.walk stateNibble key 0).2 = .leaf key data)
    : verifyInclusion sha512half (proofOf sha512half map key data) (map.rootHash sha512half)
      = some true := by
  have length : ¬ maxDepth < (proofOf sha512half map key data).innerRootToLeaf.length := by
    rw [proofOf, Merkle.opening, List.length_map]
    omega
  have climbed := (stateScheme sha512half).climb_opening stateNibble key map.root 0
  rw [ends] at climbed
  rw [verifyInclusion, if_neg length]
  have reached : (stateScheme sha512half).climb stateNibble
      (proofOf sha512half map key data).leafIndex 0
      (proofOf sha512half map key data).innerRootToLeaf
      ((stateScheme sha512half).leaf (proofOf sha512half map key data).leafIndex
        (proofOf sha512half map key data).leafData)
      = .ok (map.rootHash sha512half) := climbed
  rw [reached]
  simp

/-- The served nodes are read one by one. -/
theorem mapM_wireInnerTo512 {ways : List (Fin 16 → StateNode)} {nodes : List (List UInt8)}
    (forms
      : List.Forall₂
          (fun children =>
            WireForm (fun branch => (stateScheme sha512half).hash (children branch)))
          ways nodes)
    : nodes.mapM (fun wire =>
        (wireInnerTo512 wire).mapError (fun cause => s!"inner node: {cause}"))
      = .ok (ways.map (stateScheme sha512half).nodeOf) := by
  induction forms with
  | nil => rfl
  | cons form _ ih =>
      rw [List.mapM_cons, form.read, ih, List.map_cons]
      have join : (stateScheme sha512half).join = flatten := by rw [stateScheme]
      rw [Merkle.nodeOf, join]
      generalize flatten _ = node
      rfl

/-- A served path is converted to the proof that the tree has. -/
theorem proofFromGetproofpath_served {map : StateShaMap} {key : Bytes 32} {data : List UInt8}
    {path : List (List UInt8)} (ends : (map.root.walk stateNibble key 0).2 = .leaf key data)
    (inner : 1 ≤ (map.root.walk stateNibble key 0).1.length)
    (served : ServedPath sha512half map key path)
    : proofFromGetproofpath path 0 = .ok (proofOf sha512half map key data) := by
  obtain ⟨found, nodes, endsToo, rfl, forms⟩ := served
  obtain rfl : found = data := by
    rw [ends] at endsToo
    injection endsToo with _ same
    exact same.symm
  have length := forms.length_eq
  rw [List.length_reverse] at length
  have long : ¬ ((found ++ key.toList ++ [wireAccountState]) :: nodes).length < 2 := by
    rw [List.length_cons]
    omega
  have read := mapM_wireInnerTo512 (List.rel_reverse forms)
  rw [List.reverse_reverse] at read
  rw [proofFromGetproofpath, if_neg long, List.headD_cons, List.tail_cons, wireLeafSplit_leaf]
  simp only [Except.mapError, bind, Except.bind] at read ⊢
  rw [read]
  rfl

end Proofs

-----------------------------------------------------------------------------------------
-- Agreement
-----------------------------------------------------------------------------------------

/-- Of a dump without repeated indexes all entries stay. -/
theorem stateEntries_of_nodup {items : List (Bytes 32 × List UInt8)}
    (distinct : (items.map Prod.fst).Nodup)
    : stateEntries items = items :=
  Trie.foldl_keepFirst_of_nodup items distinct

theorem stateRoot_perm {entries entries' : List (Bytes 32 × List UInt8)}
    (perm : entries.Perm entries')
    : stateRoot entries = stateRoot entries' := by
  rw [stateRoot, stateRoot, perm.isEmpty_eq, Trie.childrenOf_perm perm]

/-- The order of a dump without repeated indexes does not matter. -/
theorem StateShaMap.build_perm {items items' : List (Bytes 32 × List UInt8)} {map : StateShaMap}
    (distinct : (items.map Prod.fst).Nodup) (perm : items'.Perm items)
    (built : StateShaMap.build items = .ok map)
    : StateShaMap.build items' = .ok map := by
  have distinct' : (items'.map Prod.fst).Nodup := (perm.map Prod.fst).nodup_iff.mpr distinct
  rw [StateShaMap.build_eq_ok_iff, stateEntries_of_nodup distinct] at built
  rw [StateShaMap.build_eq_ok_iff, stateEntries_of_nodup distinct', stateRoot_perm perm]
  exact ⟨built.1.perm perm.symm, built.2⟩

/-- For every index of a dump the proof that is read off the tree checks against the root, does
not depend on the order of the dump, and is what any path of the same tree converts to. For
any other index there is no proof.
-/
theorem state_proofs_agree {sha512half : List UInt8 → Bytes 32}
    {items : List (Bytes 32 × List UInt8)} {map : StateShaMap}
    (distinct : (items.map Prod.fst).Nodup) (built : StateShaMap.build items = .ok map)
    : (∀ item ∈ items,
        ∃ proof,
          map.stateProof sha512half item.1 = .ok proof
          ∧ proof.leafData = item.2
          ∧ verifyInclusion sha512half proof (map.rootHash sha512half) = some true
          ∧ (∀ items', items'.Perm items →
              ∃ map',
                StateShaMap.build items' = .ok map'
                ∧ map'.stateProof sha512half item.1 = .ok proof)
          ∧ ∀ path, ServedPath sha512half map item.1 path →
              proofFromGetproofpath path 0 = .ok proof)
      ∧ ∀ key, key ∉ items.map Prod.fst →
          ∃ message, map.stateProof sha512half key = .error (.refused message) := by
  have given := StateShaMap.build_eq_ok_iff.mp built
  rw [stateEntries_of_nodup distinct] at given
  obtain ⟨spread, isRoot⟩ := given
  have way := walk_stateRoot items
  rw [← isRoot] at way
  constructor
  · intro item member
    obtain ⟨ends, inner⟩ := walk_stateRoot_mem spread (show (item.1, item.2) ∈ items from member)
    rw [← isRoot] at ends inner
    have produced : map.stateProof sha512half item.1
        = .ok (proofOf sha512half map item.1 item.2) := by
      rw [StateShaMap.stateProof,
        stateProofFrom_ok map.root (by rw [Nat.zero_add]; exact (way item.1).1) ends]
      rfl
    refine ⟨_, produced, rfl, verifyInclusion_proofOf (way item.1).1 ends, ?_, ?_⟩
    · exact fun items' perm => ⟨map, StateShaMap.build_perm distinct perm built, produced⟩
    · exact fun path served => proofFromGetproofpath_served ends inner served
  · intro key unlisted
    have elsewhere : ∀ data, (map.root.walk stateNibble key 0).2 ≠ .leaf key data :=
      fun data ends => unlisted (List.mem_map_of_mem ((way key).2 data ends))
    obtain ⟨message, refused⟩ := @stateProofFrom_refused sha512half key map.root 0
      (by rw [Nat.zero_add]; exact (way key).1) elsewhere
    exact ⟨message, by rw [StateShaMap.stateProof, refused]; rfl⟩

/-- Two objects in different branches of the root. -/
def twoObjects : List (Bytes 32 × List UInt8) :=
  [(bytes32 0, [0x11]), (bytes32 (2 ^ 255), [0x12])]

def firstDigest : Bytes 32 :=
  bytes32 0x27908da0a63efbe652c66d5691f2237d4c53c840682cd1297c00bd85645f492c

def secondDigest : Bytes 32 :=
  bytes32 0x5f62a2fc57d5c85ad3d8f085d44999ab96a3ad97989088bd27554a3fa39f6eff

/-- SHA-512Half on the two leaves and on their tree, which has one inner node. -/
def twoObjectsSha512half (text : List UInt8) : Bytes 32 :=
  if text.take 4 = hpInner then
    bytes32 0x3273b0778de898300efab8cfd18a92c3322aa8d97664c10a18930611d8ca62b6
  else if text = hpLeaf ++ ([0x11] ++ (bytes32 0).toList) then firstDigest
  else secondDigest

def twoObjectsMap : StateShaMap := ⟨stateRoot twoObjects⟩

theorem twoObjectsMap_built : StateShaMap.build twoObjects = .ok twoObjectsMap := by
  have distinct : (twoObjects.map Prod.fst).Nodup := by decide +kernel
  rw [StateShaMap.build_eq_ok_iff, stateEntries_of_nodup distinct]
  have differ : nibble (bytes32 0) 0 ≠ nibble (bytes32 (2 ^ 255)) 0 := by decide +kernel
  exact ⟨List.pairwise_pair.mpr ⟨0, Nat.le_refl 0, by omega, differ⟩, rfl⟩

/-- A node may serve the root as its two branches, the second one first. -/
theorem twoObjects_served
    : ServedPath twoObjectsSha512half twoObjectsMap (bytes32 0)
        [[0x11] ++ (bytes32 0).toList ++ [1],
          secondDigest.toList ++ [8] ++ (firstDigest.toList ++ [0]) ++ [3]] := by
  have children : ∀ branch,
      Trie.childrenOf stateNibble 63 0 twoObjects branch
      = if branch = 0 then .leaf (bytes32 0) [0x11]
        else if branch = 8 then .leaf (bytes32 (2 ^ 255)) [0x12] else .empty := by
    have parts : ∀ branch, Trie.inBranch stateNibble 0 twoObjects branch
        = if branch = 0 then [(bytes32 0, [0x11])]
          else if branch = 8 then [(bytes32 (2 ^ 255), [0x12])] else [] := by decide +kernel
    intro branch
    rw [Trie.childrenOf, parts]
    split_ifs <;> rfl
  have way : twoObjectsMap.root.walk stateNibble (bytes32 0) 0
      = ([Trie.childrenOf stateNibble 63 0 twoObjects], .leaf (bytes32 0) [0x11]) := by
    have isRoot : twoObjectsMap.root = .inner (Trie.childrenOf stateNibble 63 0 twoObjects) := rfl
    have digit : stateNibble (bytes32 0) 0 = 0 := by decide +kernel
    rw [isRoot, Trie.walk, digit, children, if_pos rfl]
    rfl
  have form := @WireForm.compressed
    (fun branch => (stateScheme twoObjectsSha512half).hash
      (Trie.childrenOf stateNibble 63 0 twoObjects branch)) [8, 0] (by decide) ?_
  · have isFirst : (stateScheme twoObjectsSha512half).hash
        (Trie.childrenOf stateNibble 63 0 twoObjects 0) = firstDigest := by
      rw [children, if_pos rfl]
      decide +kernel
    have isSecond : (stateScheme twoObjectsSha512half).hash
        (Trie.childrenOf stateNibble 63 0 twoObjects 8) = secondDigest := by
      rw [children, if_neg (by decide), if_pos rfl]
      decide +kernel
    rw [List.flatMap_cons, List.flatMap_cons, List.flatMap_nil, List.append_nil, isFirst,
      isSecond] at form
    exact ⟨[0x11], _, by rw [way], rfl, by rw [way]; exact .cons form .nil⟩
  · intro branch unlisted
    rw [children, if_neg (by rintro rfl; simp at unlisted),
      if_neg (by rintro rfl; simp at unlisted)]
    rfl

theorem state_proofs_agree_twoObjects
    : ∃ proof,
        twoObjectsMap.stateProof twoObjectsSha512half (bytes32 0) = .ok proof
        ∧ proof.leafData = [0x11]
        ∧ verifyInclusion twoObjectsSha512half proof
            (twoObjectsMap.rootHash twoObjectsSha512half)
          = some true
        ∧ proofFromGetproofpath
            [[0x11] ++ (bytes32 0).toList ++ [1],
              secondDigest.toList ++ [8] ++ (firstDigest.toList ++ [0]) ++ [3]] 0
          = .ok proof := by
  have distinct : (twoObjects.map Prod.fst).Nodup := by decide +kernel
  obtain ⟨proof, produced, data, checks, -, converts⟩ :=
    (state_proofs_agree distinct twoObjectsMap_built).1 (bytes32 0, [0x11]) List.mem_cons_self
  exact ⟨proof, produced, data, checks, converts _ twoObjects_served⟩

end PerpDex.SpvProof
