import Mathlib
import PerpDex.Lib.Except

/-! Trees that branch by the digits of their keys.
Insertion pushes a leaf down while its key cannot be told from another one. The same tree is
described at once by the entries it holds: a leaf stands as high as it is alone. So the order
of insertion does not matter. The depth is bounded, and keys that differ too late are refused.
-/

namespace PerpDex

inductive Trie (β κ α : Type) where
  | empty
  | leaf (key : κ) (value : α)
  | inner (children : β → Trie β κ α)

namespace Trie

variable {β κ α ε : Type}

/-- How keys are cut into digits, and what is said of keys that cannot be inserted. -/
structure Branching (β κ ε : Type) where
  digit : κ → Nat → β
  /-- There are no more levels. -/
  full : ε
  /-- The key is there already; without an error its first value stays. -/
  duplicate : Option ε

section Insertion

variable [DecidableEq β] [DecidableEq κ]

/-- Insert in one branch of an inner node. -/
def insertBelow (insertChild : Trie β κ α → κ → α → Except ε (Trie β κ α)) (branch : β)
    (children : β → Trie β κ α) (key : κ) (value : α) : Except ε (β → Trie β κ α) := do
  let child ← insertChild (children branch) key value
  .ok (Function.update children branch child)

/-- Insert with so many levels left, this one included. A leaf of another key is pushed down
together with the new one.
-/
def insert (branching : Branching β κ ε)
    : (room depth : Nat) → Trie β κ α → κ → α → Except ε (Trie β κ α)
  | 0, _, _, _, _ => .error branching.full
  | _ + 1, _, .empty, key, value => .ok (.leaf key value)
  | room + 1, depth, .leaf other kept, key, value =>
      if other = key then
        match branching.duplicate with
        | some reason => .error reason
        | none => .ok (.leaf other kept)
      else do
        let children ← insertBelow (insert branching room (depth + 1))
          (branching.digit other depth) (fun _ => .empty) other kept
        let children ← insertBelow (insert branching room (depth + 1))
          (branching.digit key depth) children key value
        .ok (.inner children)
  | room + 1, depth, .inner children, key, value => do
      let children ← insertBelow (insert branching room (depth + 1))
        (branching.digit key depth) children key value
      .ok (.inner children)

end Insertion

-----------------------------------------------------------------------------------------
-- Positions
-----------------------------------------------------------------------------------------

/-- What stands in a tree at the end of a way of branches. -/
inductive At : Trie β κ α → List β → Trie β κ α → Prop where
  | here {tree : Trie β κ α} : At tree [] tree
  | child {children : β → Trie β κ α} {branch : β} {way : List β} {part : Trie β κ α}
    (rest : At (children branch) way part)
    : At (.inner children) (branch :: way) part

/-- The inner nodes a key leads through, and what it ends at. -/
def walk (digit : κ → Nat → β) (key : κ)
    : Nat → Trie β κ α → List (β → Trie β κ α) × Trie β κ α
  | depth, .inner children =>
      let below := walk digit key (depth + 1) (children (digit key depth))
      (children :: below.1, below.2)
  | _, .empty => ([], .empty)
  | _, .leaf other value => ([], .leaf other value)

theorem walk_at (digit : κ → Nat → β) (key : κ) (tree : Trie β κ α)
    : ∀ depth, ∃ way, At tree way (walk digit key depth tree).2
      ∧ way.length = (walk digit key depth tree).1.length := by
  induction tree with
  | empty => exact fun _ => ⟨[], .here, rfl⟩
  | leaf => exact fun _ => ⟨[], .here, rfl⟩
  | inner children ih =>
      intro depth
      obtain ⟨way, rest, length⟩ := ih (digit key depth) (depth + 1)
      exact ⟨_ :: way, .child rest, congrArg (· + 1) length⟩

-----------------------------------------------------------------------------------------
-- Telling keys apart
-----------------------------------------------------------------------------------------

section Apart

variable (digit : κ → Nat → β)

/-- Two keys differ in a digit from `depth` on and before `limit`. -/
def Apart (depth limit : Nat) (left right : κ) : Prop :=
  ∃ level, depth ≤ level ∧ level < limit ∧ digit left level ≠ digit right level

def Spread (depth limit : Nat) (entries : List (κ × α)) : Prop :=
  entries.Pairwise (fun left right => Apart digit depth limit left.1 right.1)

/-- Different keys differ in a digit from `depth` on and before `limit`. -/
def Told (depth limit : Nat) (entries : List (κ × α)) : Prop :=
  ∀ left ∈ entries, ∀ right ∈ entries, left.1 ≠ right.1 → Apart digit depth limit left.1 right.1

variable {digit}

theorem Apart.symm {depth limit : Nat} {left right : κ} (apart : Apart digit depth limit left right)
    : Apart digit depth limit right left := by
  obtain ⟨level, from', before, differ⟩ := apart
  exact ⟨level, from', before, differ.symm⟩

theorem Apart.ne {depth limit : Nat} {left right : κ} (apart : Apart digit depth limit left right)
    : left ≠ right := by
  rintro rfl
  obtain ⟨level, -, -, differ⟩ := apart
  exact differ rfl

theorem Apart.lt {depth limit : Nat} {left right : κ} (apart : Apart digit depth limit left right)
    : depth < limit := by
  obtain ⟨level, from', before, -⟩ := apart
  exact lt_of_le_of_lt from' before

/-- Keys with the same digit are told apart below it. -/
theorem apart_below_iff {depth limit : Nat} {left right : κ}
    (same : digit left depth = digit right depth)
    : Apart digit (depth + 1) limit left right ↔ Apart digit depth limit left right := by
  constructor
  · rintro ⟨level, from', before, differ⟩
    exact ⟨level, Nat.le_of_succ_le from', before, differ⟩
  · rintro ⟨level, from', before, differ⟩
    refine ⟨level, ?_, before, differ⟩
    refine Nat.lt_of_le_of_ne from' ?_
    rintro rfl
    exact differ same

theorem Spread.perm {depth limit : Nat} {entries entries' : List (κ × α)}
    (spread : Spread digit depth limit entries) (perm : entries.Perm entries')
    : Spread digit depth limit entries' :=
  perm.pairwise spread Apart.symm

/-- Entries that can be told apart pairwise have different keys, and the other way round. -/
theorem spread_iff {depth limit : Nat} {entries : List (κ × α)}
    : Spread digit depth limit entries
      ↔ (entries.map Prod.fst).Nodup ∧ Told digit depth limit entries := by
  constructor
  · intro spread
    refine ⟨List.pairwise_map.mpr (spread.imp Apart.ne), ?_⟩
    intro left inLeft right inRight differ
    have symmetric : Std.Symm (fun left right : κ × α => Apart digit depth limit left.1 right.1) :=
      ⟨fun _ _ => Apart.symm⟩
    exact spread.forall inLeft inRight (fun same => differ (same ▸ rfl))
  · rintro ⟨nodup, told⟩
    refine (List.pairwise_map.mp nodup).imp_of_mem ?_
    exact fun inLeft inRight differ => told _ inLeft _ inRight differ

end Apart

-----------------------------------------------------------------------------------------
-- The tree of a collection of entries
-----------------------------------------------------------------------------------------

section Entries

variable [DecidableEq β] (digit : κ → Nat → β)

/-- The entries that belong in one branch. -/
def inBranch (depth : Nat) (entries : List (κ × α)) (branch : β) : List (κ × α) :=
  entries.filter (fun entry => digit entry.1 depth = branch)

/-- Nothing for no entry, a leaf for a single one, and else a branching. -/
def ofEntries : (room depth : Nat) → List (κ × α) → Trie β κ α
  | _, _, [] => .empty
  | _, _, [entry] => .leaf entry.1 entry.2
  | 0, _, _ :: _ :: _ => .empty
  | room + 1, depth, first :: second :: rest =>
      .inner (fun branch =>
        ofEntries room (depth + 1) (inBranch digit depth (first :: second :: rest) branch))

def childrenOf (room depth : Nat) (entries : List (κ × α)) : β → Trie β κ α :=
  fun branch => ofEntries digit room (depth + 1) (inBranch digit depth entries branch)

variable {digit}

theorem ofEntries_nil (room depth : Nat)
    : ofEntries digit room depth ([] : List (κ × α)) = .empty := by
  cases room <;> rfl

theorem ofEntries_singleton (room depth : Nat) (entry : κ × α)
    : ofEntries digit room depth [entry] = .leaf entry.1 entry.2 := by
  cases room <;> rfl

theorem ofEntries_inner {room depth : Nat} {entries : List (κ × α)} (several : 2 ≤ entries.length)
    : ofEntries digit (room + 1) depth entries
      = .inner (childrenOf digit room depth entries) := by
  match entries, several with
  | _ :: _ :: _, _ => rfl

theorem mem_inBranch {depth : Nat} {entries : List (κ × α)} {branch : β} {entry : κ × α}
    : entry ∈ inBranch digit depth entries branch
      ↔ entry ∈ entries ∧ digit entry.1 depth = branch := by
  simp [inBranch]

/-- The order of the entries does not matter. -/
theorem ofEntries_perm
    : ∀ (room depth : Nat) {entries entries' : List (κ × α)}, entries.Perm entries'
      → ofEntries digit room depth entries = ofEntries digit room depth entries' := by
  intro room
  induction room with
  | zero =>
      intro depth entries entries' perm
      match entries, entries', perm with
      | [], _, perm => rw [List.nil_perm.mp perm]
      | [_], _, perm => rw [List.singleton_perm.mp perm]
      | _ :: _ :: _, [], perm => cases perm.length_eq
      | _ :: _ :: _, [_], perm => cases perm.length_eq
      | _ :: _ :: _, _ :: _ :: _, _ => rfl
  | succ room ih =>
      intro depth entries entries' perm
      have length := perm.length_eq
      match entries, perm with
      | [], perm => rw [List.nil_perm.mp perm]
      | [_], perm => rw [List.singleton_perm.mp perm]
      | first :: second :: rest, perm =>
          simp only [List.length_cons] at length
          rw [ofEntries_inner (by simp), ofEntries_inner (by omega)]
          refine congrArg Trie.inner (funext fun branch => ?_)
          exact ih (depth + 1) (perm.filter _)

theorem childrenOf_perm {room depth : Nat} {entries entries' : List (κ × α)}
    (perm : entries.Perm entries')
    : childrenOf digit room depth entries = childrenOf digit room depth entries' :=
  funext fun _ => ofEntries_perm room (depth + 1) (perm.filter _)

/-- Nothing stands deeper than there are levels. -/
theorem At.length_le
    : ∀ {room depth : Nat} {entries : List (κ × α)} {way : List β} {part : Trie β κ α},
      At (ofEntries digit room depth entries) way part → way.length ≤ room := by
  intro room
  induction room with
  | zero =>
      intro depth entries way part found
      match entries, found with
      | [], .here => exact Nat.le_refl 0
      | [_], .here => exact Nat.le_refl 0
      | _ :: _ :: _, .here => exact Nat.le_refl 0
  | succ room ih =>
      intro depth entries way part found
      match entries, found with
      | [], .here => exact Nat.zero_le _
      | [_], .here => exact Nat.zero_le _
      | _ :: _ :: _, .here => exact Nat.zero_le _
      | _ :: _ :: _, .child rest => exact Nat.succ_le_succ (ih rest)

/-- A leaf of the tree is one of its entries, in the branches of its digits. -/
theorem At.mem
    : ∀ {room depth : Nat} {entries : List (κ × α)} {way : List β} {key : κ} {value : α},
      At (ofEntries digit room depth entries) way (.leaf key value) → (key, value) ∈ entries := by
  intro room
  induction room with
  | zero =>
      intro depth entries way key value found
      match entries, found with
      | [_], .here => exact List.mem_singleton.mpr rfl
  | succ room ih =>
      intro depth entries way key value found
      match entries, found with
      | [_], .here => exact List.mem_singleton.mpr rfl
      | _ :: _ :: _, .child rest => exact (mem_inBranch.mp (ih rest)).1

theorem Spread.inBranch {depth limit : Nat} {entries : List (κ × α)}
    (spread : Spread digit depth limit entries) (branch : β)
    : Spread digit (depth + 1) limit (inBranch digit depth entries branch) := by
  refine (List.Pairwise.sublist (List.filter_sublist) spread).imp_of_mem ?_
  intro left right inLeft inRight apart
  have sameDigit : digit left.1 depth = digit right.1 depth :=
    (mem_inBranch.mp inLeft).2.trans (mem_inBranch.mp inRight).2.symm
  exact (apart_below_iff sameDigit).mpr apart

-----------------------------------------------------------------------------------------
-- Where keys and leaves are
-----------------------------------------------------------------------------------------

/-- A key leads to its entry. -/
theorem walk_ofEntries
    : ∀ {room depth : Nat} {entries : List (κ × α)} {key : κ} {value : α},
      Spread digit depth (depth + room) entries → (key, value) ∈ entries
      → (walk digit key depth (ofEntries digit (room + 1) depth entries)).2
        = .leaf key value := by
  intro room
  induction room with
  | zero =>
      intro depth entries key value spread member
      match entries, spread, member with
      | [_], _, member => rw [← List.mem_singleton.mp member]; rfl
      | _ :: _ :: _, spread, _ =>
          have apart := (List.pairwise_cons.mp spread).1 _ List.mem_cons_self
          exact absurd apart.lt (lt_irrefl _)
  | succ room ih =>
      intro depth entries key value spread member
      match entries, spread, member with
      | [_], _, member => rw [← List.mem_singleton.mp member]; rfl
      | first :: second :: rest, spread, member =>
          have below := spread.inBranch (digit key depth)
          rw [show depth + (room + 1) = depth + 1 + room by omega] at below
          exact ih below (mem_inBranch.mpr ⟨member, rfl⟩)

/-- Below an inner node a key leads to its entry, too. -/
theorem walk_childrenOf {room depth : Nat} {entries : List (κ × α)} {key : κ} {value : α}
    (spread : Spread digit depth (depth + (room + 1)) entries) (member : (key, value) ∈ entries)
    : (walk digit key depth (.inner (childrenOf digit (room + 1) depth entries))).2
      = .leaf key value := by
  have below := spread.inBranch (digit key depth)
  rw [show depth + (room + 1) = depth + 1 + room by omega] at below
  exact walk_ofEntries below (mem_inBranch.mpr ⟨member, rfl⟩)

/-- The way of a key below an inner node is no longer than there are levels. -/
theorem length_walk_childrenOf (room depth : Nat) (entries : List (κ × α)) (key : κ)
    : (walk digit key depth (.inner (childrenOf digit room depth entries))).1.length
      ≤ room + 1 := by
  obtain ⟨way, found, length⟩ :=
    walk_at digit key (.inner (childrenOf digit room depth entries)) depth
  rw [← length]
  generalize (walk digit key depth (.inner (childrenOf digit room depth entries))).2 = part
    at found
  cases found with
  | here => exact Nat.zero_le _
  | child deeper => exact Nat.succ_le_succ deeper.length_le

/-- A key leads to no leaf but those of the entries. -/
theorem mem_of_walk_childrenOf {room depth : Nat} {entries : List (κ × α)} {target key : κ}
    {value : α}
    (ends
      : (walk digit target depth (.inner (childrenOf digit room depth entries))).2
        = .leaf key value)
    : (key, value) ∈ entries := by
  obtain ⟨way, found, -⟩ :=
    walk_at digit target (.inner (childrenOf digit room depth entries)) depth
  rw [ends] at found
  cases found with
  | child deeper => exact (mem_inBranch.mp deeper.mem).1

variable (digit) in
/-- After so many digits no other entry has the key's. -/
def Alone (depth : Nat) (entries : List (κ × α)) (key : κ) (count : Nat) : Prop :=
  ∀ entry ∈ entries, entry.1 ≠ key → Apart digit depth (depth + count) entry.1 key

/-- One digit more than in the branch of the key. -/
theorem alone_succ_iff {depth : Nat} {entries : List (κ × α)} {key : κ} {count : Nat}
    : Alone digit depth entries key (count + 1)
      ↔ Alone digit (depth + 1) (inBranch digit depth entries (digit key depth)) key count := by
  have shift : depth + (count + 1) = depth + 1 + count := by omega
  constructor
  · intro alone entry member other
    obtain ⟨inEntries, sameDigit⟩ := mem_inBranch.mp member
    rw [apart_below_iff sameDigit, ← shift]
    exact alone entry inEntries other
  · intro alone entry member other
    by_cases sameDigit : digit entry.1 depth = digit key depth
    · rw [← apart_below_iff sameDigit, shift]
      exact alone entry (mem_inBranch.mpr ⟨member, sameDigit⟩) other
    · exact ⟨depth, Nat.le_refl _, by omega, sameDigit⟩

/-- The least number of digits, at least one, from that in the branch of the key. -/
theorem isLeast_alone {depth : Nat} {entries : List (κ × α)} {key : κ} {count : Nat}
    (below
      : IsLeast
          {count
            | Alone digit (depth + 1) (inBranch digit depth entries (digit key depth)) key count}
          count)
    : IsLeast {count | 1 ≤ count ∧ Alone digit depth entries key count} (count + 1) := by
  refine ⟨⟨Nat.succ_pos count, alone_succ_iff.mpr below.1⟩, ?_⟩
  rintro (_ | fewer) ⟨positive, alone⟩
  · cases positive
  · exact Nat.succ_le_succ (below.2 (alone_succ_iff.mp alone))

/-- A leaf stands as high as it is alone. -/
theorem At.isLeast
    : ∀ {room depth : Nat} {entries : List (κ × α)} {way : List β} {key : κ} {value : α},
      Spread digit depth (depth + room) entries
      → At (ofEntries digit (room + 1) depth entries) way (.leaf key value)
      → IsLeast {count | Alone digit depth entries key count} way.length := by
  have single : ∀ {depth : Nat} {entry : κ × α},
      IsLeast {count | Alone digit depth [entry] entry.1 count} 0 := by
    intro depth entry
    refine ⟨fun other member differs => ?_, fun _ _ => Nat.zero_le _⟩
    rw [List.mem_singleton.mp member] at differs
    exact absurd rfl differs
  intro room
  induction room with
  | zero =>
      intro depth entries way key value spread found
      match entries, spread, found with
      | [_], _, .here => exact single
      | _ :: _ :: _, spread, _ =>
          have apart := (List.pairwise_cons.mp spread).1 _ List.mem_cons_self
          exact absurd apart.lt (lt_irrefl _)
  | succ room ih =>
      intro depth entries way key value spread found
      match entries, spread, found with
      | [_], _, .here => exact single
      | first :: second :: rest, spread, .child deeper =>
          obtain rfl := (mem_inBranch.mp deeper.mem).2
          have below := spread.inBranch (digit key depth)
          rw [show depth + (room + 1) = depth + 1 + room by omega] at below
          have least := isLeast_alone (ih below deeper)
          refine ⟨least.1.2, fun count alone => least.2 ⟨?_, alone⟩⟩
          -- two entries are there, so one of them has another key
          have differ := ((List.pairwise_cons.mp spread).1 second List.mem_cons_self).ne
          have other : ∃ entry ∈ first :: second :: rest, entry.1 ≠ key := by
            by_cases isFirst : first.1 = key
            · exact ⟨second, by simp, fun isSecond => differ (isFirst.trans isSecond.symm)⟩
            · exact ⟨first, by simp, isFirst⟩
          obtain ⟨entry, member, differs⟩ := other
          have apart := (alone entry member differs).lt
          omega

end Entries

-----------------------------------------------------------------------------------------
-- Where the first value of a key stays
-----------------------------------------------------------------------------------------

section KeepFirst

variable [DecidableEq κ]

/-- The entries with a further one, unless its key is there. -/
def keepFirst (entries : List (κ × α)) (entry : κ × α) : List (κ × α) :=
  if entry.1 ∈ entries.map Prod.fst then entries else entries ++ [entry]

theorem sublist_foldl_keepFirst (items : List (κ × α))
    : ∀ entries : List (κ × α), entries.Sublist (items.foldl keepFirst entries) := by
  induction items with
  | nil => exact fun entries => List.Sublist.refl entries
  | cons item items ih =>
      intro entries
      refine List.Sublist.trans ?_ (ih (keepFirst entries item))
      rw [keepFirst]
      split
      · exact List.Sublist.refl entries
      · exact List.sublist_append_left entries [item]

theorem mem_keys_foldl_keepFirst (items : List (κ × α)) {key : κ}
    : ∀ entries : List (κ × α),
      key ∈ (items.foldl keepFirst entries).map Prod.fst
      ↔ key ∈ (entries ++ items).map Prod.fst := by
  induction items with
  | nil => simp
  | cons item items ih =>
      intro entries
      rw [List.foldl_cons, ih, keepFirst]
      split
      · rename_i known
        simp only [List.map_append, List.map_cons, List.mem_append, List.mem_cons]
        constructor
        · exact Or.imp_right Or.inr
        · rintro (old | rfl | new)
          · exact .inl old
          · exact .inl known
          · exact .inr new
      · simp

theorem nodup_foldl_keepFirst (items : List (κ × α))
    : ∀ {entries : List (κ × α)}, (entries.map Prod.fst).Nodup
      → ((items.foldl keepFirst entries).map Prod.fst).Nodup := by
  induction items with
  | nil => exact fun nodup => nodup
  | cons item items ih =>
      intro entries nodup
      refine ih ?_
      rw [keepFirst]
      split
      · exact nodup
      · rename_i fresh
        rw [List.map_append, List.nodup_append]
        refine ⟨nodup, List.nodup_singleton _, ?_⟩
        intro key inKeys other isItem same
        rw [same, List.mem_singleton.mp isItem] at inKeys
        exact fresh inKeys

/-- Entries with different keys are all kept. -/
theorem foldl_keepFirst_of_nodup (items : List (κ × α))
    : ∀ {entries : List (κ × α)}, ((entries ++ items).map Prod.fst).Nodup
      → items.foldl keepFirst entries = entries ++ items := by
  induction items with
  | nil => simp
  | cons item items ih =>
      intro entries nodup
      have fresh : item.1 ∉ entries.map Prod.fst := by
        rw [List.map_append, List.nodup_append] at nodup
        exact fun known => nodup.2.2 item.1 known item.1 List.mem_cons_self rfl
      rw [List.foldl_cons, keepFirst, if_neg fresh, ih (by simpa using nodup)]
      simp

/-- Which of several values of a key stays makes no difference to which keys can be told. -/
theorem spread_foldl_keepFirst {digit : κ → Nat → β} {depth limit : Nat} {items : List (κ × α)}
    : Spread digit depth limit (items.foldl keepFirst []) ↔ Told digit depth limit items := by
  have keys : ∀ {few many : List (κ × α)},
      (∀ key, key ∈ few.map Prod.fst → key ∈ many.map Prod.fst)
      → Told digit depth limit many → Told digit depth limit few := by
    intro few many within told left inLeft right inRight differ
    obtain ⟨left', inLeft', sameLeft⟩ :=
      List.mem_map.mp (within left.1 (List.mem_map_of_mem inLeft))
    obtain ⟨right', inRight', sameRight⟩ :=
      List.mem_map.mp (within right.1 (List.mem_map_of_mem inRight))
    rw [← sameLeft, ← sameRight] at differ ⊢
    exact told left' inLeft' right' inRight' differ
  have nodup : ((items.foldl keepFirst []).map Prod.fst).Nodup :=
    nodup_foldl_keepFirst items (show (([] : List (κ × α)).map Prod.fst).Nodup from List.nodup_nil)
  rw [spread_iff, and_iff_right nodup]
  constructor
  · exact keys (fun key member => (mem_keys_foldl_keepFirst items []).mpr member)
  · exact keys (fun key member => (mem_keys_foldl_keepFirst items []).mp member)

end KeepFirst

-----------------------------------------------------------------------------------------
-- Insertion keeps the tree of its entries
-----------------------------------------------------------------------------------------

section Insertion

variable [DecidableEq β] {branching : Branching β κ ε}

theorem childrenOf_nil (digit : κ → Nat → β) (room depth : Nat)
    : childrenOf digit room depth ([] : List (κ × α)) = fun _ => .empty :=
  funext fun _ => ofEntries_nil room (depth + 1)

/-- A child takes its new entry, and the other children are as before. -/
theorem insertBelow_ok {insertChild : Trie β κ α → κ → α → Except ε (Trie β κ α)}
    {room depth : Nat} {entries : List (κ × α)} {key : κ} {value : α}
    (inserted
      : insertChild
          (ofEntries branching.digit room (depth + 1)
            (inBranch branching.digit depth entries (branching.digit key depth)))
          key value
        = .ok
            (ofEntries branching.digit room (depth + 1)
              (inBranch branching.digit depth entries (branching.digit key depth)
                ++ [(key, value)])))
    : insertBelow insertChild (branching.digit key depth)
        (childrenOf branching.digit room depth entries) key value
      = .ok (childrenOf branching.digit room depth (entries ++ [(key, value)])) := by
  unfold insertBelow
  rw [show childrenOf branching.digit room depth entries (branching.digit key depth)
    = ofEntries branching.digit room (depth + 1)
      (inBranch branching.digit depth entries (branching.digit key depth)) from rfl, inserted]
  refine congrArg Except.ok (funext fun branch => ?_)
  by_cases own : branch = branching.digit key depth
  · subst own
    simp [childrenOf, inBranch]
  · have others : branching.digit key depth ≠ branch := fun same => own same.symm
    simp [childrenOf, inBranch, own, others]

variable [DecidableEq κ]

theorem insert_inner (room depth : Nat) (children : β → Trie β κ α) (key : κ) (value : α)
    : insert branching (room + 1) depth (.inner children) key value
      = (insertBelow (insert branching room (depth + 1)) (branching.digit key depth) children
          key value).map Trie.inner := by
  rw [insert]
  cases insertBelow (insert branching room (depth + 1)) (branching.digit key depth) children
    key value <;> rfl

/-- A leaf of another key turns into an inner node that both are inserted in. -/
theorem insert_leaf {room depth : Nat} {other key : κ} (differ : other ≠ key) (kept value : α)
    : insert branching (room + 1) depth (.leaf other kept) key value
      = (insertBelow (insert branching room (depth + 1)) (branching.digit other depth)
          (fun _ => .empty) other kept).bind
        (fun children => insert branching (room + 1) depth (.inner children) key value) := by
  rw [insert, if_neg differ]
  rfl

theorem insert_same {reason : ε} (refused : branching.duplicate = some reason) (room depth : Nat)
    (key : κ) (kept value : α)
    : insert branching (room + 1) depth (.leaf key kept) key value = .error reason := by
  simp [insert, refused]

/-- The step of the induction over the levels. -/
theorem insertBelow_childrenOf {room depth : Nat}
    (insertedBelow
      : ∀ {depth : Nat} {entries : List (κ × α)} {key : κ} {value : α},
          (∀ entry ∈ entries, Apart branching.digit depth (depth + room) entry.1 key)
          → insert branching (room + 1) depth
              (ofEntries branching.digit (room + 1) depth entries) key value
            = .ok (ofEntries branching.digit (room + 1) depth (entries ++ [(key, value)])))
    {entries : List (κ × α)} {key : κ} {value : α}
    (apart
      : ∀ entry ∈ entries, Apart branching.digit depth (depth + (room + 1)) entry.1 key)
    : insertBelow (insert branching (room + 1) (depth + 1)) (branching.digit key depth)
        (childrenOf branching.digit (room + 1) depth entries) key value
      = .ok (childrenOf branching.digit (room + 1) depth (entries ++ [(key, value)])) := by
  refine insertBelow_ok (insertedBelow fun entry member => ?_)
  obtain ⟨inEntries, sameDigit⟩ := mem_inBranch.mp member
  rw [apart_below_iff sameDigit, show depth + 1 + room = depth + (room + 1) by omega]
  exact apart entry inEntries

/-- A key that can be told from all others is inserted. -/
theorem insert_ofEntries
    : ∀ {room depth : Nat} {entries : List (κ × α)} {key : κ} {value : α},
      (∀ entry ∈ entries, Apart branching.digit depth (depth + room) entry.1 key)
      → insert branching (room + 1) depth (ofEntries branching.digit (room + 1) depth entries)
          key value
        = .ok (ofEntries branching.digit (room + 1) depth (entries ++ [(key, value)])) := by
  intro room
  induction room with
  | zero =>
      intro depth entries key value apart
      match entries, apart with
      | [], _ => rfl
      | entry :: _, apart => exact absurd (apart entry List.mem_cons_self).lt (lt_irrefl _)
  | succ room ih =>
      intro depth entries key value apart
      match entries, apart with
      | [], _ => rfl
      | [entry], apart =>
          have differ : entry.1 ≠ key := (apart entry List.mem_cons_self).ne
          have nothing : ∀ other ∈ ([] : List (κ × α)),
              Apart branching.digit depth (depth + (room + 1)) other.1 entry.1 := by simp
          rw [ofEntries_singleton, insert_leaf differ, ← childrenOf_nil branching.digit (room + 1),
            insertBelow_childrenOf ih nothing, Except.bind, insert_inner, List.nil_append,
            insertBelow_childrenOf ih apart, ofEntries_inner (by simp)]
          rfl
      | first :: second :: rest, apart =>
          rw [ofEntries_inner (by simp), insert_inner, insertBelow_childrenOf ih apart,
            ofEntries_inner (by simp)]
          rfl

/-- The step of the induction over the levels, for a key that comes too close to another. -/
theorem insertBelow_error {room depth : Nat}
    (refusedBelow
      : ∀ {depth : Nat} {entries : List (κ × α)} {entry : κ × α} {key : κ} (value : α),
          Spread branching.digit depth (depth + room) entries
          → entry ∈ entries
          → ¬ Apart branching.digit depth (depth + room) entry.1 key
          → (branching.duplicate = none → entry.1 ≠ key)
          → ∃ reason,
              insert branching (room + 1) depth
                (ofEntries branching.digit (room + 1) depth entries) key value
              = .error reason)
    {entries : List (κ × α)} {entry : κ × α} {key : κ} (value : α)
    (spread : Spread branching.digit depth (depth + (room + 1)) entries)
    (member : entry ∈ entries)
    (close : ¬ Apart branching.digit depth (depth + (room + 1)) entry.1 key)
    (refused : branching.duplicate = none → entry.1 ≠ key)
    : ∃ reason,
        insertBelow (insert branching (room + 1) (depth + 1)) (branching.digit key depth)
          (childrenOf branching.digit (room + 1) depth entries) key value
        = .error reason := by
  have shift : depth + (room + 1) = depth + 1 + room := by omega
  have sameDigit : branching.digit entry.1 depth = branching.digit key depth := by
    by_contra differs
    exact close ⟨depth, Nat.le_refl _, by omega, differs⟩
  have below := spread.inBranch (branching.digit key depth)
  rw [← apart_below_iff sameDigit] at close
  rw [shift] at below close
  obtain ⟨reason, failed⟩ := refusedBelow value below
    (mem_inBranch.mpr ⟨member, sameDigit⟩) close refused
  refine ⟨reason, ?_⟩
  rw [insertBelow, show childrenOf branching.digit (room + 1) depth entries
    (branching.digit key depth) = ofEntries branching.digit (room + 1) (depth + 1)
      (inBranch branching.digit depth entries (branching.digit key depth)) from rfl, failed]
  rfl

/-- A leaf with the same key is refused where duplicates are. -/
theorem insert_known_error {room depth : Nat} {entry : κ × α} {key : κ}
    (refused : branching.duplicate = none → entry.1 ≠ key) (same : entry.1 = key) (value : α)
    : ∃ reason, insert branching (room + 1) depth (.leaf entry.1 entry.2) key value
        = .error reason := by
  subst same
  cases policy : branching.duplicate with
  | none => exact absurd rfl (refused policy)
  | some reason => exact ⟨reason, insert_same policy room depth _ _ _⟩

/-- A key that cannot be told from another one is refused. -/
theorem insert_ofEntries_error
    : ∀ {room depth : Nat} {entries : List (κ × α)} {entry : κ × α} {key : κ} (value : α),
      Spread branching.digit depth (depth + room) entries
      → entry ∈ entries
      → ¬ Apart branching.digit depth (depth + room) entry.1 key
      → (branching.duplicate = none → entry.1 ≠ key)
      → ∃ reason,
          insert branching (room + 1) depth (ofEntries branching.digit (room + 1) depth entries)
            key value
          = .error reason := by
  intro room
  induction room with
  | zero =>
      intro depth entries entry key value spread member close refused
      match entries, spread, member with
      | [_], _, member =>
          rw [← List.mem_singleton.mp member, ofEntries_singleton]
          by_cases same : entry.1 = key
          · exact insert_known_error refused same value
          · exact ⟨branching.full, insert_leaf same _ _⟩
      | _ :: _ :: _, spread, _ =>
          have apart := (List.pairwise_cons.mp spread).1 _ List.mem_cons_self
          exact absurd apart.lt (lt_irrefl _)
  | succ room ih =>
      intro depth entries entry key value spread member close refused
      obtain ⟨reason, failed⟩ := insertBelow_error ih value spread member close refused
      match entries, spread, member with
      | [other], spread, member =>
          obtain rfl := List.mem_singleton.mp member
          rw [ofEntries_singleton]
          by_cases same : entry.1 = key
          · exact insert_known_error refused same value
          · have nothing : ∀ other ∈ ([] : List (κ × α)),
                Apart branching.digit depth (depth + (room + 1)) other.1 entry.1 := by simp
            refine ⟨reason, ?_⟩
            rw [insert_leaf same, ← childrenOf_nil branching.digit (room + 1),
              insertBelow_childrenOf insert_ofEntries nothing, Except.bind, insert_inner,
              List.nil_append, failed]
            rfl
      | first :: second :: rest, spread, member =>
          refine ⟨reason, ?_⟩
          rw [ofEntries_inner (by simp), insert_inner, failed]
          rfl

/-- Inserting at an inner node where duplicates are refused. -/
theorem insert_childrenOf_iff {room depth : Nat} {entries : List (κ × α)} {key : κ} {value : α}
    {tree : Trie β κ α} (strict : branching.duplicate ≠ none)
    (spread : Spread branching.digit depth (depth + (room + 1)) entries)
    : insert branching (room + 2) depth
        (.inner (childrenOf branching.digit (room + 1) depth entries)) key value
      = .ok tree
      ↔ (∀ entry ∈ entries, Apart branching.digit depth (depth + (room + 1)) entry.1 key)
        ∧ tree
          = .inner
              (childrenOf branching.digit (room + 1) depth (entries ++ [(key, value)])) := by
  rw [insert_inner]
  by_cases apart : ∀ entry ∈ entries,
      Apart branching.digit depth (depth + (room + 1)) entry.1 key
  · rw [insertBelow_childrenOf insert_ofEntries apart]
    refine ⟨fun inserted => ⟨apart, (Except.ok.inj inserted).symm⟩, ?_⟩
    rintro ⟨-, rfl⟩
    rfl
  · obtain ⟨entry, member, close⟩ : ∃ entry ∈ entries,
        ¬ Apart branching.digit depth (depth + (room + 1)) entry.1 key := by
      simpa using apart
    obtain ⟨reason, failed⟩ := insertBelow_error insert_ofEntries_error value spread member
      close (fun policy => absurd policy strict)
    rw [failed]
    exact ⟨fun inserted => (by cases inserted), fun all => absurd all.1 apart⟩

/-- The step of the induction over the levels, for a key that is known. -/
theorem insertBelow_known {room depth : Nat}
    (keptBelow
      : ∀ {depth : Nat} {entries : List (κ × α)} {key : κ} {kept : α} (value : α),
          Spread branching.digit depth (depth + room) entries
          → (key, kept) ∈ entries
          → insert branching (room + 1) depth
              (ofEntries branching.digit (room + 1) depth entries) key value
            = .ok (ofEntries branching.digit (room + 1) depth entries))
    {entries : List (κ × α)} {key : κ} {kept : α} (value : α)
    (spread : Spread branching.digit depth (depth + (room + 1)) entries)
    (member : (key, kept) ∈ entries)
    : insertBelow (insert branching (room + 1) (depth + 1)) (branching.digit key depth)
        (childrenOf branching.digit (room + 1) depth entries) key value
      = .ok (childrenOf branching.digit (room + 1) depth entries) := by
  have below := spread.inBranch (branching.digit key depth)
  rw [show depth + (room + 1) = depth + 1 + room by omega] at below
  have same := keptBelow value below (mem_inBranch.mpr ⟨member, rfl⟩)
  rw [insertBelow, show childrenOf branching.digit (room + 1) depth entries
    (branching.digit key depth) = ofEntries branching.digit (room + 1) (depth + 1)
      (inBranch branching.digit depth entries (branching.digit key depth)) from rfl, same]
  exact congrArg Except.ok (Function.update_eq_self _ _)

/-- The first value of a known key stays, and nothing else changes. -/
theorem insert_ofEntries_known (lenient : branching.duplicate = none)
    : ∀ {room depth : Nat} {entries : List (κ × α)} {key : κ} {kept : α} (value : α),
      Spread branching.digit depth (depth + room) entries
      → (key, kept) ∈ entries
      → insert branching (room + 1) depth (ofEntries branching.digit (room + 1) depth entries)
          key value
        = .ok (ofEntries branching.digit (room + 1) depth entries) := by
  have single : ∀ {room depth : Nat} {key : κ} {kept : α} (value : α),
      insert branching (room + 1) depth (.leaf key kept) key value = .ok (.leaf key kept) := by
    intro room depth key kept value
    simp [insert, lenient]
  intro room
  induction room with
  | zero =>
      intro depth entries key kept value spread member
      match entries, spread, member with
      | [_], _, member =>
          obtain rfl := List.mem_singleton.mp member
          exact single value
      | _ :: _ :: _, spread, _ =>
          have apart := (List.pairwise_cons.mp spread).1 _ List.mem_cons_self
          exact absurd apart.lt (lt_irrefl _)
  | succ room ih =>
      intro depth entries key kept value spread member
      match entries, spread, member with
      | [_], _, member =>
          obtain rfl := List.mem_singleton.mp member
          exact single value
      | first :: second :: rest, spread, member =>
          rw [ofEntries_inner (by simp), insert_inner,
            insertBelow_known ih value spread member]
          rfl

/-- Inserting at an inner node where the first value of a key stays. -/
theorem insert_childrenOf_lenient_iff {room depth : Nat} {entries : List (κ × α)}
    {entry : κ × α} {tree : Trie β κ α} (lenient : branching.duplicate = none)
    (spread : Spread branching.digit depth (depth + (room + 1)) entries)
    : insert branching (room + 2) depth
        (.inner (childrenOf branching.digit (room + 1) depth entries)) entry.1 entry.2
      = .ok tree
      ↔ Spread branching.digit depth (depth + (room + 1)) (keepFirst entries entry)
        ∧ tree
          = .inner (childrenOf branching.digit (room + 1) depth (keepFirst entries entry)) := by
  rw [insert_inner]
  by_cases known : entry.1 ∈ entries.map Prod.fst
  · obtain ⟨⟨key, kept⟩, member, rfl⟩ := List.mem_map.mp known
    rw [keepFirst, if_pos known,
      insertBelow_known (insert_ofEntries_known lenient) entry.2 spread member]
    exact ⟨fun inserted => ⟨spread, (Except.ok.inj inserted).symm⟩,
      fun given => congrArg Except.ok given.2.symm⟩
  · rw [keepFirst, if_neg known]
    by_cases apart : ∀ other ∈ entries,
        Apart branching.digit depth (depth + (room + 1)) other.1 entry.1
    · have spreadAll : Spread branching.digit depth (depth + (room + 1)) (entries ++ [entry]) := by
        refine List.pairwise_append.mpr ⟨spread, List.pairwise_singleton _ _, ?_⟩
        intro other member last isLast
        rw [List.mem_singleton.mp isLast]
        exact apart other member
      rw [insertBelow_childrenOf insert_ofEntries apart]
      exact ⟨fun inserted => ⟨spreadAll, (Except.ok.inj inserted).symm⟩,
        fun given => congrArg Except.ok given.2.symm⟩
    · obtain ⟨other, member, close⟩ : ∃ other ∈ entries,
          ¬ Apart branching.digit depth (depth + (room + 1)) other.1 entry.1 := by
        simpa using apart
      have differ : other.1 ≠ entry.1 :=
        fun same => known (same ▸ List.mem_map_of_mem member)
      obtain ⟨reason, failed⟩ := insertBelow_error insert_ofEntries_error entry.2 spread member
        close (fun _ => differ)
      rw [failed]
      refine ⟨fun inserted => (by cases inserted), fun given => ?_⟩
      exact absurd ((List.pairwise_append.mp given.1).2.2 other member entry
        List.mem_cons_self) close

/-- Inserting entries one after the other where the first value of a key stays. -/
theorem foldlM_insert_lenient_iff {room depth : Nat} (lenient : branching.duplicate = none)
    (items : List (κ × α))
    : ∀ {entries : List (κ × α)} {tree : Trie β κ α},
      Spread branching.digit depth (depth + (room + 1)) entries
      → (items.foldlM
            (fun root item => insert branching (room + 2) depth root item.1 item.2)
            (.inner (childrenOf branching.digit (room + 1) depth entries))
          = .ok tree
        ↔ Spread branching.digit depth (depth + (room + 1)) (items.foldl keepFirst entries)
          ∧ tree
            = .inner
                (childrenOf branching.digit (room + 1) depth
                  (items.foldl keepFirst entries))) := by
  induction items with
  | nil =>
      intro entries tree spread
      exact ⟨fun folded => ⟨spread, (Except.ok.inj folded).symm⟩,
        fun given => congrArg Except.ok given.2.symm⟩
  | cons item items ih =>
      intro entries tree spread
      rw [List.foldlM_cons, Except.bind_eq_ok_iff, List.foldl_cons]
      constructor
      · rintro ⟨next, inserted, folded⟩
        obtain ⟨spreadNext, rfl⟩ := (insert_childrenOf_lenient_iff lenient spread).mp inserted
        exact (ih spreadNext).mp folded
      · intro given
        have spreadNext := given.1.sublist (sublist_foldl_keepFirst items (keepFirst entries item))
        exact ⟨_, (insert_childrenOf_lenient_iff lenient spread).mpr ⟨spreadNext, rfl⟩,
          (ih spreadNext).mpr given⟩

end Insertion

end Trie

end PerpDex
