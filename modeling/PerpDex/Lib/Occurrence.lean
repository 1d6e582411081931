import PerpDex.Lib.DecimalText

/-! Where a text first occurs in another. -/

namespace PerpDex.Text

/-- What stands in front of the first occurrence, or the whole text. -/
def beforeFirst (needle : List Char) : List Char → List Char
  | [] => []
  | char :: text =>
      if needle.isPrefixOf (char :: text) then [] else char :: beforeFirst needle text

/-- The first occurrence of a text, between what stands in front of it and behind it. -/
structure FirstAt (needle text front rest : List Char) : Prop where
  split : text = front ++ (needle ++ rest)
  first : ∀ before after, text = before ++ (needle ++ after) → front.length ≤ before.length

/-- There is but one first occurrence. -/
theorem FirstAt.unique {needle text front rest front' rest' : List Char}
    (left : FirstAt needle text front rest) (right : FirstAt needle text front' rest')
    : front = front' ∧ rest = rest' := by
  have lengths := Nat.le_antisymm (left.first front' rest' right.split)
    (right.first front rest left.split)
  obtain ⟨sameFront, sameRest⟩ := List.append_inj (left.split.symm.trans right.split) lengths
  exact ⟨sameFront, List.append_cancel_left sameRest⟩

theorem isPrefixOf_iff {needle text : List Char}
    : needle.isPrefixOf text = true ↔ ∃ rest, text = needle ++ rest := by
  rw [List.isPrefixOf_iff_prefix]
  exact exists_congr (fun rest => eq_comm)

/-- What follows the first occurrence is found. -/
theorem afterFirst_eq_some_iff {needle text rest : List Char} (nonempty : needle ≠ [])
    : afterFirst needle text = some rest ↔ ∃ front, FirstAt needle text front rest := by
  induction text generalizing rest with
  | nil =>
      rw [afterFirst, if_neg nonempty]
      refine ⟨fun found => (by cases found), fun given => ?_⟩
      obtain ⟨front, found⟩ := given
      have pieces := List.nil_eq_append_iff.mp found.split
      exact absurd (List.append_eq_nil_iff.mp pieces.2).1 nonempty
  | cons char text ih =>
      rw [afterFirst]
      by_cases here : needle.isPrefixOf (char :: text) = true
      · rw [if_pos here]
        obtain ⟨after, split⟩ := isPrefixOf_iff.mp here
        have first : FirstAt needle (char :: text) [] after :=
          ⟨split, fun before _ _ => Nat.zero_le before.length⟩
        rw [split, List.drop_left]
        constructor
        · rintro ⟨⟩
          exact ⟨[], split ▸ first⟩
        · intro given
          obtain ⟨front, found⟩ := given
          rw [(first.unique (split ▸ found)).2]
      · rw [if_neg here, ih]
        constructor
        · intro given
          obtain ⟨front, found⟩ := given
          refine ⟨char :: front, congrArg (char :: ·) found.split, fun before after split => ?_⟩
          cases before with
          | nil => exact absurd (isPrefixOf_iff.mpr ⟨after, split⟩) here
          | cons head before =>
              exact Nat.succ_le_succ (found.first before after (List.cons.inj split).2)
        · intro given
          obtain ⟨front, found⟩ := given
          cases front with
          | nil => exact absurd (isPrefixOf_iff.mpr ⟨rest, found.split⟩) here
          | cons head front =>
              obtain ⟨rfl, split⟩ := List.cons.inj found.split
              refine ⟨front, split, fun before after later => ?_⟩
              have bound := found.first (char :: before) after (congrArg (char :: ·) later)
              exact Nat.le_of_succ_le_succ bound

/-- Nothing is found exactly if the text does not occur. -/
theorem afterFirst_eq_none_iff {needle text : List Char} (nonempty : needle ≠ [])
    : afterFirst needle text = none ↔ ¬ needle <:+: text := by
  induction text with
  | nil =>
      rw [afterFirst, if_neg nonempty]
      exact ⟨fun _ occurs => nonempty (List.infix_nil.mp occurs), fun _ => rfl⟩
  | cons char text ih =>
      rw [afterFirst, List.infix_cons_iff, ← List.isPrefixOf_iff_prefix]
      by_cases here : needle.isPrefixOf (char :: text) = true
      · rw [if_pos here]
        exact ⟨fun found => (by cases found), fun absent => absurd (.inl here) absent⟩
      · rw [if_neg here, ih, or_iff_right here]

/-- A text that occurs has a first occurrence. -/
theorem exists_firstAt {needle text : List Char} (nonempty : needle ≠ [])
    (occurs : needle <:+: text)
    : ∃ front rest, FirstAt needle text front rest := by
  cases found : afterFirst needle text with
  | none => exact absurd occurs ((afterFirst_eq_none_iff nonempty).mp found)
  | some rest =>
      obtain ⟨front, first⟩ := (afterFirst_eq_some_iff nonempty).mp found
      exact ⟨front, rest, first⟩

/-- A text whose first character has not come up before is found where it stands. -/
theorem afterFirst_append {first : Char} {needle front : List Char} (absent : first ∉ front)
    (rest : List Char)
    : afterFirst (first :: needle) (front ++ (first :: needle ++ rest)) = some rest := by
  induction front with
  | nil =>
      have here : (first :: needle).isPrefixOf (first :: (needle ++ rest)) = true := by simp
      rw [List.nil_append, List.cons_append, afterFirst, if_pos here]
      simp
  | cons char front ih =>
      have other : first ≠ char := fun same => absent (same ▸ List.mem_cons_self)
      have later : ¬ (first :: needle).isPrefixOf
          (char :: (front ++ (first :: needle ++ rest))) = true := by
        simp [List.isPrefixOf, other]
      rw [List.cons_append, afterFirst, if_neg later]
      exact ih (fun member => absent (List.mem_cons_of_mem char member))

/-- A run of characters, and what does not continue it. -/
theorem takeWhile_append {test : Char → Bool} {run rest : List Char}
    (each : ∀ char ∈ run, test char = true)
    (stops : ∀ char, rest.head? = some char → test char = false)
    : (run ++ rest).takeWhile test = run := by
  rw [List.takeWhile_append_of_pos each]
  cases rest with
  | nil => simp
  | cons char rest => simp [stops char rfl]

theorem takeWhile_ne_append_of_notMem {separator : Char} {text : List Char}
    (absent : separator ∉ text) (rest : List Char)
    : (text ++ rest).takeWhile (· ≠ separator) = text ++ rest.takeWhile (· ≠ separator) := by
  apply List.takeWhile_append_of_pos
  exact fun char member => decide_eq_true (fun same => absent (same ▸ member))

/-- A text without a separator is all that stands in front of the next one. -/
theorem takeWhile_ne_split {separator : Char} {text : List Char} (absent : separator ∉ text)
    (rest : List Char)
    : (text ++ separator :: rest).takeWhile (· ≠ separator) = text := by
  rw [takeWhile_ne_append_of_notMem absent, List.takeWhile_cons_of_neg (by simp),
    List.append_nil]

end PerpDex.Text
