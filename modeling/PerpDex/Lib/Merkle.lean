import PerpDex.Lib.Trie

/-! Digests of trees and proofs that a leaf is in one.
The proof for a key lists the inner nodes it leads through. Checking it goes the other way, from
the digest of the leaf to that of the root. The proof read off a tree always checks. A proof that
checks is the one read off the tree, unless two of the texts that were hashed have the same
digest.
-/

namespace PerpDex

/-- How digests are formed: those of inner nodes from the digests of their children, which can
be read back from the node.
-/
structure Merkle (β κ α ν δ : Type) where
  absent : δ
  leaf : κ → α → δ
  join : (β → δ) → ν
  branch : ν → β → δ
  inner : ν → δ
  branch_join : ∀ digests position, branch (join digests) position = digests position

namespace Merkle

variable {β κ α ν δ : Type} (scheme : Merkle β κ α ν δ)

def hash : Trie β κ α → δ
  | .empty => scheme.absent
  | .leaf key value => scheme.leaf key value
  | .inner children => scheme.inner (scheme.join (fun branch => hash (children branch)))

/-- An inner node with the digests of its children. -/
def nodeOf (children : β → Trie β κ α) : ν :=
  scheme.join (fun branch => scheme.hash (children branch))

/-- The nodes on the way of a key. -/
def opening (digit : κ → Nat → β) (key : κ) (depth : Nat) (tree : Trie β κ α) : List ν :=
  (tree.walk digit key depth).1.map scheme.nodeOf

/-- From a digest to that of the root, the deepest node first. At each node the branch of the
key has to hold the digest from below; else the depth of the node is the error.
-/
def climb [DecidableEq δ] (digit : κ → Nat → β) (key : κ)
    : Nat → List ν → δ → Except Nat δ
  | _, [], start => .ok start
  | depth, node :: deeper, start => do
      let running ← climb digit key (depth + 1) deeper start
      if scheme.branch node (digit key depth) = running then .ok (scheme.inner node)
      else .error depth

/-- The node next to the digest is checked first. -/
theorem climb_concat [DecidableEq δ] (digit : κ → Nat → β) (key : κ) (depth : Nat) (front : List ν)
    (node : ν) (start : δ)
    : scheme.climb digit key depth (front ++ [node]) start
      = if scheme.branch node (digit key (depth + front.length)) = start
        then scheme.climb digit key depth front (scheme.inner node)
        else .error (depth + front.length) := by
  induction front generalizing depth with
  | nil => rfl
  | cons first front ih =>
      have shifted : depth + 1 + front.length = depth + (first :: front).length := by
        rw [List.length_cons]
        omega
      rw [List.cons_append, climb, ih, shifted]
      split
      · rfl
      · rfl

/-- No digest that occurs in a check stands for something else in the tree. -/
structure Separates (tree : Trie β κ α) (path : List ν) (start : δ) : Prop where
  start_ne_absent : start ≠ scheme.absent
  start_ne_inner
    : ∀ {way children}, tree.At way (.inner children)
      → start ≠ scheme.inner (scheme.nodeOf children)
  node_ne_absent : ∀ node ∈ path, scheme.inner node ≠ scheme.absent
  node_ne_leaf
    : ∀ node ∈ path, ∀ {way key value}, tree.At way (.leaf key value)
      → scheme.inner node ≠ scheme.leaf key value
  node_eq
    : ∀ node ∈ path, ∀ {way children}, tree.At way (.inner children)
      → scheme.inner node = scheme.inner (scheme.nodeOf children)
      → node = scheme.nodeOf children

variable {scheme}

theorem Separates.below {children : β → Trie β κ α} {node : ν} {deeper : List ν} {start : δ}
    (separates : scheme.Separates (.inner children) (node :: deeper) start) (branch : β)
    : scheme.Separates (children branch) deeper start where
  start_ne_absent := separates.start_ne_absent
  start_ne_inner := fun found => separates.start_ne_inner (.child found)
  node_ne_absent := fun node member =>
    separates.node_ne_absent node (List.mem_cons_of_mem _ member)
  node_ne_leaf := fun node member _ _ _ found =>
    separates.node_ne_leaf node (List.mem_cons_of_mem _ member) (.child found)
  node_eq := fun node member _ _ found =>
    separates.node_eq node (List.mem_cons_of_mem _ member) (.child found)

variable [DecidableEq δ]

variable (scheme) in
/-- What is read off a tree leads to its digest. -/
theorem climb_opening (digit : κ → Nat → β) (key : κ) (tree : Trie β κ α)
    : ∀ depth,
      scheme.climb digit key depth (scheme.opening digit key depth tree)
        (scheme.hash (tree.walk digit key depth).2)
      = .ok (scheme.hash tree) := by
  induction tree with
  | empty => exact fun _ => rfl
  | leaf => exact fun _ => rfl
  | inner children ih =>
      intro depth
      have below := ih (digit key depth) (depth + 1)
      show (do
        let running ← scheme.climb digit key (depth + 1)
          (scheme.opening digit key (depth + 1) (children (digit key depth)))
          (scheme.hash ((children (digit key depth)).walk digit key (depth + 1)).2)
        if scheme.branch (scheme.nodeOf children) (digit key depth) = running
        then .ok (scheme.inner (scheme.nodeOf children)) else .error depth)
        = .ok (scheme.inner (scheme.nodeOf children))
      rw [below]
      exact if_pos (scheme.branch_join _ _)

/-- A check that reaches the digest of a tree has followed the tree, down to a leaf of the
digest it started from.
-/
theorem climb_sound {digit : κ → Nat → β} {key : κ} {start : δ}
    : ∀ (path : List ν) (depth : Nat) (tree : Trie β κ α),
      scheme.Separates tree path start
      → scheme.climb digit key depth path start = .ok (scheme.hash tree)
      → scheme.opening digit key depth tree = path
        ∧ ∃ leafKey value,
            (tree.walk digit key depth).2 = .leaf leafKey value
            ∧ scheme.leaf leafKey value = start := by
  intro path
  induction path with
  | nil =>
      intro depth tree separates reached
      have isRoot : start = scheme.hash tree := Except.ok.inj reached
      cases tree with
      | empty => exact absurd isRoot separates.start_ne_absent
      | leaf leafKey value => exact ⟨rfl, leafKey, value, rfl, isRoot.symm⟩
      | inner children => exact absurd isRoot (separates.start_ne_inner .here)
  | cons node deeper ih =>
      intro depth tree separates reached
      obtain ⟨running, climbed, checked⟩ := Except.bind_eq_ok_iff.mp reached
      split_ifs at checked with holds
      have isRoot : scheme.inner node = scheme.hash tree := Except.ok.inj checked
      cases tree with
      | empty => exact absurd isRoot (separates.node_ne_absent node List.mem_cons_self)
      | leaf => exact absurd isRoot (separates.node_ne_leaf node List.mem_cons_self .here)
      | inner children =>
          obtain rfl := separates.node_eq node List.mem_cons_self .here isRoot
          rw [← holds, nodeOf, scheme.branch_join] at climbed
          obtain ⟨opened, ends⟩ := ih (depth + 1) _ (separates.below _) climbed
          exact ⟨congrArg (_ :: ·) opened, ends⟩

end Merkle

end PerpDex
