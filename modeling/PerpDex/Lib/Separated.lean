import Mathlib.Data.List.Basic
import Mathlib.Data.Char

/-! Fields joined by a separator.
A field in which the separator does not occur can be told from what follows it, and one at the
end from what stands before it. In UTF-8 an ASCII byte stands for its character only, so a text
without the separator has none in its bytes.
-/

namespace PerpDex

namespace Separated

section Fields

variable {α : Type} {separator : α}

/-- The field in front of the first separator. -/
theorem front_unique
    : ∀ {front front' : List α} {back back' : List α},
      separator ∉ front → separator ∉ front'
      → front ++ separator :: back = front' ++ separator :: back'
      → front = front' ∧ back = back'
  | [], [], _, _, _, _, same => ⟨rfl, (List.cons.inj same).2⟩
  | [], first :: rest, _, _, _, absent, same =>
      absurd ((List.cons.inj same).1 ▸ List.mem_cons_self) absent
  | first :: rest, [], _, _, absent, _, same =>
      absurd ((List.cons.inj same).1.symm ▸ List.mem_cons_self) absent
  | first :: rest, first' :: rest', _, _, absent, absent', same => by
      obtain ⟨sameFirst, sameRest⟩ := List.cons.inj same
      obtain ⟨equal, sameBack⟩ := front_unique
        (fun member => absent (List.mem_cons_of_mem _ member))
        (fun member => absent' (List.mem_cons_of_mem _ member)) sameRest
      exact ⟨by rw [sameFirst, equal], sameBack⟩

/-- The field behind the last separator. -/
theorem back_unique {front front' back back' : List α} (absent : separator ∉ back)
    (absent' : separator ∉ back')
    (same : front ++ separator :: back = front' ++ separator :: back')
    : front = front' ∧ back = back' := by
  have reversed := congrArg List.reverse same
  simp only [List.reverse_append, List.reverse_cons, List.append_assoc, List.singleton_append]
    at reversed
  obtain ⟨sameBack, sameFront⟩ := front_unique
    (fun member => absent (List.mem_reverse.mp member))
    (fun member => absent' (List.mem_reverse.mp member)) reversed
  exact ⟨List.reverse_injective sameFront, List.reverse_injective sameBack⟩

end Fields

section Utf8

/-- A byte below 128 encodes one character only. -/
theorem toNat_of_mem_utf8EncodeChar {char : Char} {byte : UInt8}
    (member : byte ∈ String.utf8EncodeChar char) (ascii : byte.toNat < 0x80)
    : char.toNat = byte.toNat := by
  have high : ∀ value, 0x80 ≤ value → value < 0x100 → byte ≠ UInt8.ofNat value := by
    rintro value large small rfl
    rw [UInt8.toNat_ofNat'] at ascii
    omega
  unfold String.utf8EncodeChar at member
  change byte ∈ ite (char.toNat ≤ 0x7F) _ _ at member
  split_ifs at member with one two three
  · obtain rfl : byte = UInt8.ofNat char.toNat := List.mem_singleton.mp member
    rw [UInt8.toNat_ofNat']
    omega
  · rcases List.mem_pair.mp member with isFirst | isSecond
    · exact absurd isFirst (high _ (by omega) (by omega))
    · exact absurd isSecond (high _ (by omega) (by omega))
  · simp only [List.mem_cons, List.not_mem_nil, or_false] at member
    rcases member with isFirst | isSecond | isThird
    · exact absurd isFirst (high _ (by omega) (by omega))
    · exact absurd isSecond (high _ (by omega) (by omega))
    · exact absurd isThird (high _ (by omega) (by omega))
  · simp only [List.mem_cons, List.not_mem_nil, or_false] at member
    rcases member with isFirst | isSecond | isThird | isFourth
    · exact absurd isFirst (high _ (by omega) (by omega))
    · exact absurd isSecond (high _ (by omega) (by omega))
    · exact absurd isThird (high _ (by omega) (by omega))
    · exact absurd isFourth (high _ (by omega) (by omega))

/-- A byte that continues a character. -/
def IsContinuation (byte : UInt8) : Prop := 0x80 ≤ byte.toNat ∧ byte.toNat < 0xC0

theorem isContinuation_ofNat (value : Nat)
    : IsContinuation (UInt8.ofNat (value % 64 + 128)) := by
  rw [IsContinuation, UInt8.toNat_ofNat']
  omega

/-- A character is one byte below 128, or two bytes, or more, and a byte after the first
continues it.
-/
inductive Encoded (char : Char) : Prop where
  | one (size : char.utf8Size = 1) (ascii : char.toNat < 0x80)
      (bytes : String.utf8EncodeChar char = [UInt8.ofNat char.toNat])
  | two (size : char.utf8Size = 2) (first second : UInt8) (lead : 0xC0 ≤ first.toNat)
      (tail : IsContinuation second) (bytes : String.utf8EncodeChar char = [first, second])
  | more (size : 2 < char.utf8Size) (first second third : UInt8) (rest : List UInt8)
      (lead : 0xC0 ≤ first.toNat) (tail : IsContinuation second)
      (next : IsContinuation third)
      (bytes : String.utf8EncodeChar char = first :: second :: third :: rest)

theorem encoded (char : Char) : Encoded char := by
  have leads : ∀ value, 0xC0 ≤ value → value < 0x100 → 0xC0 ≤ (UInt8.ofNat value).toNat := by
    intro value large small
    rw [UInt8.toNat_ofNat']
    omega
  have bytes : String.utf8EncodeChar char =
      if char.toNat ≤ 0x7F then [UInt8.ofNat char.toNat]
      else if char.toNat ≤ 0x7FF then
        [UInt8.ofNat (char.toNat / 64 % 32 + 192), UInt8.ofNat (char.toNat % 64 + 128)]
      else if char.toNat ≤ 0xFFFF then
        [UInt8.ofNat (char.toNat / 4096 % 16 + 224), UInt8.ofNat (char.toNat / 64 % 64 + 128),
          UInt8.ofNat (char.toNat % 64 + 128)]
      else
        [UInt8.ofNat (char.toNat / 262144 % 8 + 240), UInt8.ofNat (char.toNat / 4096 % 64 + 128),
          UInt8.ofNat (char.toNat / 64 % 64 + 128), UInt8.ofNat (char.toNat % 64 + 128)] := rfl
  have size : char.utf8Size =
      if char.toNat ≤ 0x7F then 1
      else if char.toNat ≤ 0x7FF then 2
      else if char.toNat ≤ 0xFFFF then 3
      else 4 := rfl
  split_ifs at bytes size with isOne isTwo isThree
  · exact .one size (by omega) bytes
  · exact .two size _ _ (leads _ (by omega) (by omega)) (isContinuation_ofNat _) bytes
  · exact .more (by omega) _ _ _ _ (leads _ (by omega) (by omega)) (isContinuation_ofNat _)
      (isContinuation_ofNat _) bytes
  · exact .more (by omega) _ _ _ _ (leads _ (by omega) (by omega)) (isContinuation_ofNat _)
      (isContinuation_ofNat _) bytes

/-- The bytes of a text are those of its characters. -/
theorem toUTF8_eq (text : String)
    : text.toUTF8.data.toList = text.toList.flatMap String.utf8EncodeChar := by
  rw [String.toUTF8, ← String.utf8Encode_toList, List.utf8Encode, List.data_toByteArray]

/-- An ASCII character that is not in a text is not in its bytes. -/
theorem notMem_toUTF8 {text : String} {char : Char} (ascii : char.toNat < 0x80)
    (absent : char ∉ text.toList)
    : UInt8.ofNat char.toNat ∉ text.toUTF8.data.toList := by
  intro member
  rw [toUTF8_eq] at member
  obtain ⟨other, inText, encoded⟩ := List.mem_flatMap.mp member
  have value : (UInt8.ofNat char.toNat).toNat = char.toNat := by
    rw [UInt8.toNat_ofNat']
    omega
  have same := toNat_of_mem_utf8EncodeChar encoded (by omega)
  rw [value] at same
  exact absent (Char.toNat_inj.mp same ▸ inText)

theorem toUTF8_injective {left right : String}
    (same : left.toUTF8.data.toList = right.toUTF8.data.toList)
    : left = right := by
  have bytes : left.toByteArray = right.toByteArray := ByteArray.ext (Array.toList_inj.mp same)
  exact String.toByteArray_inj.mp bytes

end Utf8

end Separated

end PerpDex
