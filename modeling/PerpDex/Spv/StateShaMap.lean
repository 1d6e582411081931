import PerpDex.Spv.Inclusion
import PerpDex.Spv.Transport

/-! The account-state tree of a ledger, rebuilt from a dump of its objects.
A leaf carries the serialized object under its index, and the first of several objects with one
index stays. Like the transaction tree it takes no two keys that agree in their first 63 half
bytes, although keys have one more.
-/

namespace PerpDex.SpvProof

open TxShamap (nibble flatten branchOf branchOf_flatten hpInner maxDepth PathError Item Writable
  TxShaMap txId)

/-- `'MLN\0'`, the prefix of an account-state leaf. -/
def hpLeaf : List UInt8 := [0x4D, 0x4C, 0x4E, 0x00]

/-- The branch of a key at a depth, as in the transaction tree. -/
abbrev stateNibble (key : Bytes 32) (depth : Nat) : Fin 16 := nibble key depth

-----------------------------------------------------------------------------------------
-- The tree
-----------------------------------------------------------------------------------------

abbrev StateNode := Trie (Fin 16) (Bytes 32) (List UInt8)

def StateNode.emptyInner : StateNode := .inner (fun _ => .empty)

/-- An index that is there already keeps its first object. -/
def stateBranching : Trie.Branching (Fin 16) (Bytes 32) String where
  digit := stateNibble
  full :=
    "two state entries share a full 32-byte index — impossible without a SHA-512 collision"
  duplicate := none

def StateNode.insert (node : StateNode) (key : Bytes 32) (data : List UInt8) (depth : Nat)
    : Except String StateNode :=
  Trie.insert stateBranching (maxDepth - depth) depth node key data

structure StateShaMap where
  root : StateNode

/-- The tree of the state objects of a ledger. The root is an inner node unless there are
none.
-/
def StateShaMap.build (items : List (Bytes 32 × List UInt8)) : Except String StateShaMap := do
  let root ← items.foldlM (fun root item => StateNode.insert root item.1 item.2 0)
    (if items.isEmpty then .empty else StateNode.emptyInner)
  .ok ⟨root⟩

section Hashes

variable (sha512half : List UInt8 → Bytes 32)

/-- A leaf is hashed over its object and its index, an inner node over its children, an absent
child is zero.
-/
def stateScheme : Merkle (Fin 16) (Bytes 32) (List UInt8) (Bytes 512) (Bytes 32) where
  absent := List.Vector.replicate 32 0
  leaf := fun key data => sha512half (hpLeaf ++ (data ++ key.toList))
  join := flatten
  branch := branchOf
  inner := fun node => sha512half (hpInner ++ node.toList)
  branch_join := branchOf_flatten

def StateShaMap.rootHash (map : StateShaMap) : Bytes 32 := (stateScheme sha512half).hash map.root

/-- The inner nodes from one at `depth` on down to the leaf of the index, and the object in it. -/
def stateProofFrom (target : Bytes 32)
    : Nat → StateNode → Except PathError (List (Bytes 512) × List UInt8)
  | depth, .inner children => do
      if maxDepth ≤ depth then .error .panicked
      else
        let (deeper, data) ← stateProofFrom target (depth + 1) (children (stateNibble target depth))
        .ok ((stateScheme sha512half).nodeOf children :: deeper, data)
  | _, .leaf key data =>
      if key ≠ target then
        .error (.refused "state entry not in this ledger (a different index sits at its slot)")
      else .ok ([], data)
  | depth, .empty =>
      .error (.refused s!"state entry not in this ledger (empty slot at depth {depth})")

def StateShaMap.stateProof (map : StateShaMap) (target : Bytes 32)
    : Except PathError XspvProof := do
  let (innerRootToLeaf, leafData) ← stateProofFrom sha512half target 0 map.root
  .ok { kind := 0, leafIndex := target, leafData, innerRootToLeaf }

end Hashes

-----------------------------------------------------------------------------------------
-- Which keys fit
-----------------------------------------------------------------------------------------

/-- The entries that stay of a dump. -/
def stateEntries (items : List (Bytes 32 × List UInt8)) : List (Bytes 32 × List UInt8) :=
  items.foldl Trie.keepFirst []

/-- The tree of some entries below a root that is an inner node. -/
def stateRoot (entries : List (Bytes 32 × List UInt8)) : StateNode :=
  if entries.isEmpty then .empty else .inner (Trie.childrenOf stateNibble 63 0 entries)

/-- When a tree is built, and which. -/
theorem StateShaMap.build_eq_ok_iff {items : List (Bytes 32 × List UInt8)} {map : StateShaMap}
    : StateShaMap.build items = .ok map
      ↔ Trie.Spread stateNibble 0 63 (stateEntries items)
        ∧ map.root = stateRoot (stateEntries items) := by
  have wrap : StateShaMap.build items = .ok map
      ↔ items.foldlM (fun root item => StateNode.insert root item.1 item.2 0)
          (if items.isEmpty then .empty else StateNode.emptyInner) = .ok map.root := by
    unfold StateShaMap.build
    rw [Except.bind_eq_ok_iff]
    exact ⟨fun ⟨_, folded, isMap⟩ => (Except.ok.inj isMap) ▸ folded,
      fun folded => ⟨_, folded, rfl⟩⟩
  rw [wrap]
  cases items with
  | nil => exact ⟨fun built => ⟨List.Pairwise.nil, (Except.ok.inj built).symm⟩,
      fun given => congrArg Except.ok given.2.symm⟩
  | cons item items =>
      have start : StateNode.emptyInner = .inner (Trie.childrenOf stateNibble 63 0 []) :=
        congrArg Trie.inner (Trie.childrenOf_nil stateNibble 63 0).symm
      have kept : (stateEntries (item :: items)).isEmpty = false := by
        have front := Trie.sublist_foldl_keepFirst items (Trie.keepFirst [] item)
        have nonempty : stateEntries (item :: items) ≠ [] := by
          intro nothing
          rw [stateEntries, List.foldl_cons] at nothing
          rw [nothing, List.sublist_nil] at front
          simp [Trie.keepFirst] at front
        simpa using nonempty
      simp only [List.isEmpty_cons, Bool.false_eq_true, if_false, start, stateRoot, kept]
      have lenient : stateBranching.duplicate = none := rfl
      exact @Trie.foldlM_insert_lenient_iff _ _ _ _ _ stateBranching _ 62 0 lenient
        (item :: items) [] map.root List.Pairwise.nil

/-- The indexes of a dump fit the tree exactly if those that differ do so in their first 63 half
bytes.
-/
theorem StateShaMap.exists_build_iff (items : List (Bytes 32 × List UInt8))
    : (∃ map, StateShaMap.build items = .ok map) ↔ Trie.Told stateNibble 0 63 items := by
  simp only [StateShaMap.build_eq_ok_iff, stateEntries, Trie.spread_foldl_keepFirst]
  exact ⟨fun given => given.choose_spec.1, fun told => ⟨⟨_⟩, told, rfl⟩⟩

/-- Every list of state objects makes a tree, and so does every list of transactions with
different ids and lengths that can be written, exactly if keys that differ do so in their first
63 half bytes.
-/
theorem keys_fit_iff (sha512half : List UInt8 → Bytes 32)
    (states : List (Bytes 32 × List UInt8)) (items : List Item)
    : ((∃ map, StateShaMap.build states = .ok map)
        ↔ ∀ left ∈ states, ∀ right ∈ states,
            left.1 ≠ right.1 → Trie.Apart nibble 0 63 left.1 right.1)
      ∧ (((items.map fun item => txId sha512half item.1).Nodup →
            (∀ item ∈ items, Writable item) →
            ∃ map, TxShaMap.build sha512half items = .ok map)
        ↔ ((items.map fun item => txId sha512half item.1).Nodup →
            (∀ item ∈ items, Writable item) →
            ∀ left ∈ items, ∀ right ∈ items,
              txId sha512half left.1 ≠ txId sha512half right.1 →
              Trie.Apart nibble 0 63 (txId sha512half left.1) (txId sha512half right.1))) := by
  refine ⟨StateShaMap.exists_build_iff states, ?_⟩
  refine forall_congr' fun nodup => forall_congr' fun writable => ?_
  have keys : (TxShamap.entriesOf sha512half items).map Prod.fst
      = items.map fun item => txId sha512half item.1 := by
    rw [TxShamap.entriesOf, List.map_map]
    rfl
  have built : (∃ map, TxShaMap.build sha512half items = .ok map)
      ↔ Trie.Told nibble 0 63 (TxShamap.entriesOf sha512half items) := by
    simp only [TxShamap.build_eq_ok_iff, Trie.spread_iff, keys]
    exact ⟨fun given => given.choose_spec.2.1.2, fun told => ⟨⟨_⟩, writable, ⟨nodup, told⟩, rfl⟩⟩
  rw [built, Trie.Told]
  simp only [TxShamap.entriesOf, List.forall_mem_map]
  rfl

/-- The ids of two transactions that agree but for the last half byte. -/
def lastNibbleSha512half (text : List UInt8) : Bytes 32 :=
  if text = TxShamap.hpTxnId ++ [1] then TxShamap.bytes32 1 else TxShamap.bytes32 0

/-- Keys that differ in the last half byte only are refused as if they were the same. -/
theorem lastNibble_refused
    : (TxShamap.bytes32 0 ≠ TxShamap.bytes32 1
        ∧ (StateShaMap.build
            [(TxShamap.bytes32 0, [0x11]), (TxShamap.bytes32 1, [0x11])]).map (fun _ => ())
          = .error ("two state entries share a full 32-byte index — "
              ++ "impossible without a SHA-512 collision"))
      ∧ txId lastNibbleSha512half [0] ≠ txId lastNibbleSha512half [1]
      ∧ (TxShaMap.build lastNibbleSha512half [([0], []), ([1], [])]).map (fun _ => ())
        = .error ("two transactions share a full 32-byte tx-ID — "
            ++ "impossible without a SHA-512 collision") := by
  decide +kernel

end PerpDex.SpvProof
