import Mathlib

/-! Linked lists with a head marker.
An item is named together with the item its link comes from; the first item is linked from
the head marker.
-/

namespace PerpDex.LinkedList

variable {α : Type}

/-- The link of `previous` leads to `item`. -/
def Precedes (head : α) (list : List α) (previous item : α) : Prop :=
  [previous, item] <:+: head :: list

instance [DecidableEq α] (head : α) (list : List α) (previous item : α)
    : Decidable (Precedes head list previous item) :=
  inferInstanceAs (Decidable ([previous, item] <:+: head :: list))

/-- The item before a position. -/
def before (head : α) (list : List α) (idx : Nat) : α :=
  if idx = 0 then head else list.getD (idx - 1) head

/-- In-place replacement of an item. -/
def substitute [DecidableEq α] (list : List α) (old new : α) : List α :=
  list.map (fun item => if item = old then new else item)

/-- A linked item is in the list. -/
theorem Precedes.mem {head previous item : α} {list : List α}
    (precedes : Precedes head list previous item)
    : item ∈ list := by
  rcases precedes with ⟨front, back, same⟩
  cases front with
  | nil =>
      have tail : item :: back = list := (List.cons.inj same).2
      rw [← tail]
      exact List.mem_cons_self
  | cons first rest =>
      have tail : rest ++ [previous, item] ++ back = list := (List.cons.inj same).2
      rw [← tail]
      simp

/-- The first occurrence of an item, its position and what stands around it. -/
theorem position_eq_some [DecidableEq α] {list : List α} {item : α} (member : item ∈ list)
    : ∃ front back, list = front ++ item :: back ∧ item ∉ front
      ∧ list.findIdx? (fun other => other == item) = some front.length := by
  induction list with
  | nil => cases member
  | cons first rest ih =>
      by_cases same : first = item
      · subst same
        exact ⟨[], rest, rfl, by simp, by simp [List.findIdx?_cons]⟩
      · have later : item ∈ rest := by
          rcases List.mem_cons.mp member with here | later
          · exact absurd here.symm same
          · exact later
        obtain ⟨front, back, split, absent, found⟩ := ih later
        refine ⟨first :: front, back, by rw [split]; rfl, ?_, ?_⟩
        · intro inside
          rcases List.mem_cons.mp inside with here | inside
          · exact same here.symm
          · exact absent inside
        · rw [List.findIdx?_cons, found]
          simp [same]

/-- The item before the position of an item precedes it. -/
theorem precedes_before (head : α) (front back : List α) (item : α)
    : Precedes head (front ++ item :: back) (before head (front ++ item :: back) front.length)
        item := by
  rcases List.eq_nil_or_concat front with rfl | ⟨others, last, rfl⟩
  · exact ⟨[], back, by simp [before]⟩
  · refine ⟨head :: others, back, ?_⟩
    simp [before, List.getD_eq_getElem?_getD]

/-- Replacing an item that occurs once. -/
theorem substitute_split [DecidableEq α] {front back : List α} {old : α} (new : α)
    (absent : old ∉ front) (after : old ∉ back)
    : substitute (front ++ old :: back) old new = front ++ new :: back := by
  have unchanged : ∀ items : List α, old ∉ items → substitute items old new = items := by
    intro items missing
    refine (List.map_congr_left ?_).trans (List.map_id items)
    intro item inside
    exact if_neg (fun same : item = old => missing (same ▸ inside))
  have beforeOld := unchanged front absent
  have afterOld := unchanged back after
  simp only [substitute, List.map_append, List.map_cons, if_true] at *
  rw [beforeOld, afterOld]

theorem length_substitute [DecidableEq α] (list : List α) (old new : α)
    : (substitute list old new).length = list.length :=
  List.length_map _

/-- Replacing by a fresh item keeps a list free of duplicates. -/
theorem nodup_substitute [DecidableEq α] {list : List α} {old new : α} (nodup : list.Nodup)
    (fresh : new ∉ list)
    : (substitute list old new).Nodup := by
  refine List.Nodup.map_on ?_ nodup
  intro left inLeft right inRight same
  split at same
  · split at same
    · simp_all
    · exact absurd (same ▸ inRight) fresh
  · split at same
    · exact absurd (same.symm ▸ inLeft) fresh
    · exact same

end PerpDex.LinkedList
