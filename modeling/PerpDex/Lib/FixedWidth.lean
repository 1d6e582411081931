import Mathlib

/-! Texts of a tag and fields of fixed widths. Where no tag is the beginning of another, the
tag can be read off the front of a text, and fields whose widths are known can be read off
what follows it.
-/

namespace PerpDex.FixedWidth

variable {α : Type}

/-- Fields of the same widths are determined by the text they join to. -/
theorem fields_injective {left right : List (List α)}
    (widths : left.map List.length = right.map List.length)
    (same : left.flatten = right.flatten)
    : left = right :=
  List.eq_iff_flatten_eq.mpr ⟨same, widths⟩

/-- Records of one width are determined by the text they join to, their number included. -/
theorem records_injective {width : Nat} (pos : 0 < width) {left right : List (List α)}
    (leftSized : ∀ record ∈ left, record.length = width)
    (rightSized : ∀ record ∈ right, record.length = width)
    (same : left.flatten = right.flatten)
    : left = right := by
  have leftWidths : left.map List.length = List.replicate left.length width :=
    List.eq_replicate_iff.mpr ⟨List.length_map _, by simpa using leftSized⟩
  have rightWidths : right.map List.length = List.replicate right.length width :=
    List.eq_replicate_iff.mpr ⟨List.length_map _, by simpa using rightSized⟩
  have total := congrArg List.length same
  rw [List.length_flatten, List.length_flatten, leftWidths, rightWidths,
    List.sum_replicate_nat, List.sum_replicate_nat] at total
  refine fields_injective ?_ same
  rw [leftWidths, rightWidths, Nat.eq_of_mul_eq_mul_right pos total]

/-- A text cut into so many pieces of one width. -/
def pieces (width : Nat) : Nat → List α → List (List α)
  | 0, _ => []
  | count + 1, text => text.take width :: pieces width count (text.drop width)

/-- Records of one width are the pieces of the text they join to. -/
theorem pieces_flatten {width : Nat} {records : List (List α)}
    (sized : ∀ record ∈ records, record.length = width)
    : pieces width records.length records.flatten = records := by
  induction records with
  | nil => rfl
  | cons record records ih =>
      obtain ⟨first, others⟩ := List.forall_mem_cons.mp sized
      rw [List.length_cons, List.flatten_cons, pieces, List.take_left' first,
        List.drop_left' first, ih others]

/-- A text of whole records is cut into records. -/
theorem sized_of_mem_pieces {width count : Nat} {text : List α}
    (whole : text.length = count * width) {piece : List α}
    (member : piece ∈ pieces width count text)
    : piece.length = width := by
  induction count generalizing text with
  | zero => cases member
  | succ count ih =>
      rw [Nat.add_mul, Nat.one_mul] at whole
      rcases List.mem_cons.mp member with rfl | later
      · rw [List.length_take]
        omega
      · refine ih ?_ later
        rw [List.length_drop]
        omega

/-- The pieces of a text of whole records join to it. -/
theorem flatten_pieces {width count : Nat} {text : List α} (whole : text.length = count * width)
    : (pieces width count text).flatten = text := by
  induction count generalizing text with
  | zero =>
      rw [Nat.zero_mul] at whole
      exact (List.length_eq_zero_iff.mp whole).symm
  | succ count ih =>
      rw [Nat.add_mul, Nat.one_mul] at whole
      rw [pieces, List.flatten_cons, ih (by rw [List.length_drop]; omega), List.take_append_drop]

theorem length_flatten_of_sized {width : Nat} {records : List (List α)}
    (sized : ∀ record ∈ records, record.length = width)
    : records.flatten.length = records.length * width := by
  rw [List.length_flatten, List.map_congr_left sized, List.map_const', List.sum_replicate_nat]

/-- No tag is the beginning of another. -/
def PrefixFree {ι : Type} (tag : ι → List α) : Prop :=
  ∀ left right, tag left <+: tag right → left = right

/-- A text determines its tag and what follows. -/
theorem PrefixFree.injective {ι : Type} {tag : ι → List α} (prefixFree : PrefixFree tag)
    {left right : ι} {leftRest rightRest : List α}
    (same : tag left ++ leftRest = tag right ++ rightRest)
    : left = right ∧ leftRest = rightRest := by
  have first : tag left <+: tag right ++ rightRest := same ▸ List.prefix_append _ _
  have second : tag right <+: tag right ++ rightRest := List.prefix_append _ _
  have sameTag : left = right := by
    rcases List.prefix_or_prefix_of_prefix first second with shorter | longer
    · exact prefixFree left right shorter
    · exact (prefixFree right left longer).symm
  subst sameTag
  exact ⟨rfl, List.append_cancel_left same⟩

end PerpDex.FixedWidth
