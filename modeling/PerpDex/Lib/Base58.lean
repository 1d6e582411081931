import Mathlib

/-! Byte strings written in another base.
The bytes are the digits of one number, which is written again with the letters of an alphabet.
Zeros in front carry no weight and are kept one for one, so nothing is lost: every byte string
has a text and every text over the alphabet is that of one byte string.
-/

namespace PerpDex

namespace Base58

/-- The number of some digits, the first one most significant, in another base. -/
def change (source target : Nat) (digits : List Nat) : List Nat :=
  List.replicate (digits.takeWhile (· = 0)).length 0
    ++ (Nat.digits target (Nat.ofDigits source digits.reverse)).reverse

def encode (alphabet : List Char) (bytes : List UInt8) : String :=
  String.ofList
    ((change 256 alphabet.length (bytes.map UInt8.toNat)).map (fun digit =>
      alphabet.getD digit ' '))

def decode (alphabet : List Char) (text : String) : Option (List UInt8) :=
  if text.toList.all (· ∈ alphabet) then
    some ((change alphabet.length 256 (text.toList.map alphabet.idxOf)).map UInt8.ofNat)
  else none

-----------------------------------------------------------------------------------------
-- Changing the base and back
-----------------------------------------------------------------------------------------

section Change

variable {source target : Nat}

/-- Zeros in front of a number that does not begin with one. -/
theorem change_replicate_append (zeros : Nat) {digits : List Nat}
    (significant : digits.head? ≠ some 0)
    : change source target (List.replicate zeros 0 ++ digits)
      = List.replicate zeros 0
        ++ (Nat.digits target (Nat.ofDigits source digits.reverse)).reverse := by
  have front : ((List.replicate zeros 0 ++ digits).takeWhile (· = 0)).length = zeros := by
    rw [List.takeWhile_append_of_pos (by simp)]
    cases digits with
    | nil => simp
    | cons digit rest =>
        have nonzero : digit ≠ 0 := by simpa using significant
        simp [nonzero]
  have value : Nat.ofDigits source (List.replicate zeros 0 ++ digits).reverse
      = Nat.ofDigits source digits.reverse := by
    simp [Nat.ofDigits_append, Nat.ofDigits_replicate_zero]
  rw [change, front, value]

/-- Digits are zeros followed by the digits of a number. -/
theorem exists_eq_replicate_append (digits : List Nat)
    : ∃ zeros rest, digits = List.replicate zeros 0 ++ rest ∧ rest.head? ≠ some 0 := by
  induction digits with
  | nil => exact ⟨0, [], rfl, by simp⟩
  | cons digit rest ih =>
      by_cases zero : digit = 0
      · obtain ⟨zeros, others, isRest, significant⟩ := ih
        exact ⟨zeros + 1, others, by rw [zero, isRest, List.replicate_succ]; rfl, significant⟩
      · exact ⟨0, digit :: rest, rfl, by simpa using zero⟩

theorem digits_reverse_significant (base value : Nat)
    : (Nat.digits base value).reverse.head? ≠ some 0 := by
  intro leading
  rw [List.head?_reverse] at leading
  by_cases zero : value = 0
  · simp [zero] at leading
  · have nonempty : Nat.digits base value ≠ [] := Nat.digits_ne_nil_iff_ne_zero.mpr zero
    rw [List.getLast?_eq_getLast_of_ne_nil nonempty] at leading
    exact Nat.getLast_digit_ne_zero base zero (Option.some.inj leading)

/-- Changing the base back gives the digits again. -/
theorem change_change (sourceBase : 1 < source) {digits : List Nat}
    (small : ∀ digit ∈ digits, digit < source)
    : change target source (change source target digits) = digits := by
  obtain ⟨zeros, rest, rfl, significant⟩ := exists_eq_replicate_append digits
  rw [change_replicate_append zeros significant,
    change_replicate_append zeros (digits_reverse_significant _ _), List.reverse_reverse,
    Nat.ofDigits_digits]
  have back : Nat.digits source (Nat.ofDigits source rest.reverse) = rest.reverse := by
    refine Nat.digits_ofDigits source sourceBase _ ?_ ?_
    · intro digit member
      exact small digit (List.mem_append_right _ (List.mem_reverse.mp member))
    · intro nonempty last
      rw [List.getLast_reverse] at last
      refine significant ?_
      rw [← last]
      exact (List.head_eq_iff_head?_eq_some _).mp rfl
  rw [back, List.reverse_reverse]

theorem change_lt (targetBase : 1 < target) (digits : List Nat)
    : ∀ digit ∈ change source target digits, digit < target := by
  intro digit member
  rcases List.mem_append.mp member with zero | significant
  · rw [(List.mem_replicate.mp zero).2]
    omega
  · exact Nat.digits_lt_base targetBase (List.mem_reverse.mp significant)

end Change

-----------------------------------------------------------------------------------------
-- Texts
-----------------------------------------------------------------------------------------

section Texts

variable {alphabet : List Char} (large : 1 < alphabet.length)

include large in
theorem decode_encode (nodup : alphabet.Nodup) (bytes : List UInt8)
    : decode alphabet (encode alphabet bytes) = some bytes := by
  have written : ∀ digit ∈ change 256 alphabet.length (bytes.map UInt8.toNat),
      digit < alphabet.length := change_lt large _
  have letter : ∀ digit ∈ change 256 alphabet.length (bytes.map UInt8.toNat),
      alphabet.getD digit ' ' ∈ alphabet ∧ alphabet.idxOf (alphabet.getD digit ' ') = digit := by
    intro digit member
    have inside := written digit member
    rw [List.getD_eq_getElem _ _ inside]
    exact ⟨List.getElem_mem inside, nodup.idxOf_getElem digit inside⟩
  have letters : (encode alphabet bytes).toList.all (· ∈ alphabet) = true := by
    rw [encode, String.toList_ofList, List.all_map]
    exact List.all_eq_true.mpr (fun digit member => decide_eq_true (letter digit member).1)
  have digits : (encode alphabet bytes).toList.map alphabet.idxOf
      = change 256 alphabet.length (bytes.map UInt8.toNat) := by
    rw [encode, String.toList_ofList, List.map_map]
    exact (List.map_congr_left (fun digit member => (letter digit member).2)).trans
      (List.map_id _)
  have small : ∀ digit ∈ bytes.map UInt8.toNat, digit < 256 := by
    intro digit member
    obtain ⟨byte, -, rfl⟩ := List.mem_map.mp member
    exact byte.toNat_lt
  rw [decode, if_pos letters, digits, change_change (by omega) small, List.map_map]
  exact congrArg some ((List.map_congr_left (fun byte _ => UInt8.ofNat_toNat)).trans
    (List.map_id _))

include large in
theorem encode_of_decode {text : String} {bytes : List UInt8}
    (decoded : decode alphabet text = some bytes)
    : encode alphabet bytes = text := by
  unfold decode at decoded
  split_ifs at decoded with letters
  have inAlphabet : ∀ char ∈ text.toList, char ∈ alphabet := by simpa using letters
  have small : ∀ digit ∈ text.toList.map alphabet.idxOf, digit < alphabet.length := by
    intro digit member
    obtain ⟨char, inText, rfl⟩ := List.mem_map.mp member
    exact List.idxOf_lt_length_iff.mpr (inAlphabet char inText)
  have values : bytes.map UInt8.toNat
      = change alphabet.length 256 (text.toList.map alphabet.idxOf) := by
    rw [← Option.some.inj decoded, List.map_map]
    refine (List.map_congr_left (fun digit member => ?_)).trans (List.map_id _)
    have fits := change_lt (by omega) _ digit member
    simp only [Function.comp_apply, UInt8.toNat_ofNat', id_eq]
    omega
  rw [encode, values, change_change large small, List.map_map]
  have chars : text.toList.map ((fun digit => alphabet.getD digit ' ') ∘ alphabet.idxOf)
      = text.toList := by
    refine (List.map_congr_left (fun char member => ?_)).trans (List.map_id _)
    have inside := List.idxOf_lt_length_iff.mpr (inAlphabet char member)
    rw [Function.comp_apply, List.getD_eq_getElem _ _ inside]
    exact List.getElem_idxOf inside
  rw [chars, String.ofList_toList]

end Texts

end Base58

end PerpDex
