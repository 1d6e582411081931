import Mathlib

/-! Sorting by a key that is only part of an item. A stable sort keeps the items of one key in
their order, so what it returns is determined by, and determines, the items of each key.
-/

namespace PerpDex.StableSort

variable {α κ : Type} (key : α → κ)

section Keys

variable [DecidableEq κ]

def ofKey (value : κ) (items : List α) : List α := items.filter (fun item => key item = value)

theorem mem_iff_of_ofKey_eq {left right : List α}
    (same : ∀ value, ofKey key value left = ofKey key value right) (item : α)
    : item ∈ left ↔ item ∈ right := by
  have here := congrArg (fun items => item ∈ items) (same (key item))
  simpa [ofKey] using here

end Keys

section Order

variable [LE κ]

section Sorted

variable [Std.IsLinearOrder κ] [DecidableEq κ]

/-- Two sorted lists with the same items of each key are the same list.
Witness: induction on the first; both heads have the least key.
-/
theorem eq_of_ofKey_eq {left right : List α}
    (leftSorted : left.Pairwise (fun first second => key first ≤ key second))
    (rightSorted : right.Pairwise (fun first second => key first ≤ key second))
    (same : ∀ value, ofKey key value left = ofKey key value right)
    : left = right := by
  have members := mem_iff_of_ofKey_eq key same
  induction left generalizing right with
  | nil =>
      refine (List.eq_nil_iff_forall_not_mem.mpr ?_).symm
      intro item inside
      exact absurd ((members item).mpr inside) List.not_mem_nil
  | cons first rest ih =>
      cases right with
      | nil => exact absurd ((members first).mp List.mem_cons_self) List.not_mem_nil
      | cons other others =>
          obtain ⟨leftHead, leftTail⟩ := List.pairwise_cons.mp leftSorted
          obtain ⟨rightHead, rightTail⟩ := List.pairwise_cons.mp rightSorted
          have below : key first ≤ key other := by
            rcases List.mem_cons.mp ((members other).mpr List.mem_cons_self) with rfl | later
            · exact Std.le_refl _
            · exact leftHead other later
          have above : key other ≤ key first := by
            rcases List.mem_cons.mp ((members first).mp List.mem_cons_self) with rfl | later
            · exact Std.le_refl _
            · exact rightHead first later
          have sameKey : key first = key other := Std.le_antisymm below above
          have heads := same (key first)
          simp only [ofKey, List.filter_cons, sameKey, decide_true, if_true] at heads
          obtain ⟨rfl, -⟩ := List.cons.inj heads
          have tails : ∀ value, ofKey key value rest = ofKey key value others := by
            intro value
            have whole := same value
            by_cases ofFirst : key first = value
            · simp only [ofKey, List.filter_cons, ofFirst, decide_true, if_true] at whole
              exact (List.cons.inj whole).2
            · simpa only [ofKey, List.filter_cons, ofFirst, decide_false, if_false,
                Bool.false_eq_true] using whole
          rw [ih leftTail rightTail tails (mem_iff_of_ofKey_eq key tails)]

end Sorted

variable [DecidableLE κ]

/-- The stable sort by a key. -/
def sortBy (items : List α) : List α :=
  items.insertionSort (fun left right => key left ≤ key right)

theorem sortBy_perm (items : List α) : (sortBy key items).Perm items :=
  List.perm_insertionSort _ items

variable [Std.IsLinearOrder κ]

theorem sortBy_pairwise (items : List α)
    : (sortBy key items).Pairwise (fun left right => key left ≤ key right) := by
  have : Std.Total (fun left right => key left ≤ key right) :=
    ⟨fun _ _ => Std.le_total⟩
  have : IsTrans α (fun left right => key left ≤ key right) :=
    ⟨fun _ _ _ => Std.le_trans⟩
  exact List.pairwise_insertionSort _ items

variable [DecidableEq κ]

/-- The items of one key keep their order. -/
theorem ofKey_sortBy (value : κ) (items : List α)
    : ofKey key value (sortBy key items) = ofKey key value items := by
  have equalKeys : (ofKey key value items).Pairwise (fun left right => key left ≤ key right) := by
    refine List.pairwise_of_forall_mem_list ?_
    intro left inLeft right inRight
    have leftKey := (List.mem_filter.mp inLeft).2
    have rightKey := (List.mem_filter.mp inRight).2
    rw [decide_eq_true_eq] at leftKey rightKey
    rw [leftKey, rightKey]
    exact Std.le_refl value
  have kept : (ofKey key value items).Sublist (sortBy key items) :=
    List.sublist_insertionSort equalKeys List.filter_sublist
  have within : (ofKey key value items).Sublist (ofKey key value (sortBy key items)) := by
    simpa [ofKey, List.filter_filter] using
      kept.filter (fun item => decide (key item = value))
  refine (within.eq_of_length ?_).symm
  exact ((sortBy_perm key items).filter _).length_eq.symm

/-- Sorting gives the same list exactly if the items of each key come in the same order. -/
theorem sortBy_eq_iff {left right : List α}
    : sortBy key left = sortBy key right
      ↔ ∀ value, ofKey key value left = ofKey key value right := by
  constructor
  · intro same value
    rw [← ofKey_sortBy key value left, same, ofKey_sortBy]
  · intro same
    refine eq_of_ofKey_eq key (sortBy_pairwise key left) (sortBy_pairwise key right) ?_
    intro value
    rw [ofKey_sortBy, ofKey_sortBy, same]

/-- Sorting and keeping some keys is keeping them and sorting. -/
theorem sortBy_filter (keep : κ → Bool) (items : List α)
    : (sortBy key items).filter (fun item => keep (key item))
      = sortBy key (items.filter (fun item => keep (key item))) := by
  refine eq_of_ofKey_eq key ((sortBy_pairwise key items).filter _) (sortBy_pairwise key _) ?_
  intro value
  rw [ofKey_sortBy]
  have swapped : ∀ others : List α,
      ofKey key value (others.filter (fun item => keep (key item)))
        = (ofKey key value others).filter (fun item => keep (key item)) :=
    fun others => List.filter_comm _ _ others
  rw [swapped, swapped, ofKey_sortBy]

omit [DecidableEq κ] in
/-- Where the keys are distinct, the order the items come in does not matter. -/
theorem sortBy_eq_of_perm {left right : List α} (perm : left.Perm right)
    (distinct : (left.map key).Nodup)
    : sortBy key left = sortBy key right := by
  have sorted : (sortBy key left).Perm (sortBy key right) :=
    (sortBy_perm key left).trans (perm.trans (sortBy_perm key right).symm)
  refine List.Perm.eq_of_pairwise ?_ (sortBy_pairwise key left) (sortBy_pairwise key right) sorted
  intro first second inLeft inRight below above
  have firstIn := (sortBy_perm key left).mem_iff.mp inLeft
  have secondIn := perm.mem_iff.mpr ((sortBy_perm key right).mem_iff.mp inRight)
  exact List.inj_on_of_nodup_map distinct firstIn secondIn (Std.le_antisymm below above)

omit [DecidableEq κ] [DecidableLE κ] in
/-- Sorted keys are determined by which keys there are. -/
theorem keys_eq_of_perm {β : Type} {other : β → κ} {left : List α} {right : List β}
    (leftSorted : left.Pairwise (fun first second => key first ≤ key second))
    (rightSorted : right.Pairwise (fun first second => other first ≤ other second))
    (perm : (left.map key).Perm (right.map other))
    : left.map key = right.map other := by
  refine List.Perm.eq_of_pairwise ?_ (List.pairwise_map.mpr leftSorted)
    (List.pairwise_map.mpr rightSorted) perm
  intro first second _ _ below above
  exact Std.le_antisymm below above

omit [DecidableLE κ] in
/-- No two neighbours agree exactly if no key occurs twice. -/
theorem nodup_iff_any_adjacent {items : List α}
    (sorted : items.Pairwise (fun left right => key left ≤ key right))
    : (items.zip items.tail).any (fun pair => key pair.1 = key pair.2) = false
      ↔ (items.map key).Nodup := by
  induction items with
  | nil => simp
  | cons first rest ih =>
      obtain ⟨below, sortedRest⟩ := List.pairwise_cons.mp sorted
      rw [List.map_cons, List.nodup_cons, ← ih sortedRest, List.tail_cons]
      cases rest with
      | nil => simp
      | cons second others =>
          rw [List.zip_cons_cons, List.any_cons, Bool.or_eq_false_iff, decide_eq_false_iff_not]
          refine and_congr_left (fun _ => ⟨fun apart member => ?_, fun absent same => ?_⟩)
          · obtain ⟨other, isOther, same⟩ := List.mem_map.mp member
            rcases List.mem_cons.mp isOther with rfl | later
            · exact apart same.symm
            · have above := (List.pairwise_cons.mp sortedRest).1 other later
              rw [same] at above
              exact apart (Std.le_antisymm (below second List.mem_cons_self) above)
          · exact absent (by rw [same]; exact List.mem_cons_self)

end Order

/-- The first few items of an ordered list are those that few items come before. -/
theorem mem_take_iff {before : α → α → Prop} [DecidableRel before]
    (asymm : ∀ left right, before left right → ¬ before right left) {items : List α}
    (ordered : items.Pairwise before) {item : α} {count : Nat}
    : item ∈ items.take count
      ↔ item ∈ items ∧ (items.filter (fun other => before other item)).length < count := by
  induction items generalizing count with
  | nil => simp
  | cons first rest ih =>
      obtain ⟨head, tail⟩ := List.pairwise_cons.mp ordered
      cases count with
      | zero => simp
      | succ count =>
          rw [List.take_succ_cons, List.mem_cons, List.mem_cons, ih tail]
          constructor
          · rintro (rfl | ⟨later, few⟩)
            · have none : (item :: rest).filter (fun other => before other item) = [] := by
                refine List.filter_eq_nil_iff.mpr (fun other member earlier => ?_)
                have comes : before other item := of_decide_eq_true earlier
                rcases List.mem_cons.mp member with rfl | later
                · exact asymm _ _ comes comes
                · exact asymm _ _ comes (head other later)
              exact ⟨.inl rfl, by rw [none]; exact Nat.succ_pos _⟩
            · refine ⟨.inr later, ?_⟩
              rw [List.filter_cons_of_pos (by simpa using head item later), List.length_cons]
              exact Nat.succ_lt_succ few
          · rintro ⟨rfl | later, few⟩
            · exact .inl rfl
            · rw [List.filter_cons_of_pos (by simpa using head item later), List.length_cons] at few
              exact .inr ⟨later, Nat.lt_of_succ_lt_succ few⟩

end PerpDex.StableSort
