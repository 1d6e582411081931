import Mathlib

/-! Hexadecimal text: two digits a byte, written in lower case, read in either case.
Keys in hexadecimal are compared in lower case, or up to the case of ASCII letters.
-/

namespace PerpDex

namespace Hex

def digitChar (value : Nat) : Char :=
  if value < 10 then Char.ofNat (48 + value) else Char.ofNat (87 + value)

def digitValue (char : Char) : Option Nat :=
  let code := char.toNat
  if 48 ≤ code ∧ code ≤ 57 then some (code - 48)
  else if 97 ≤ code ∧ code ≤ 102 then some (code - 87)
  else if 65 ≤ code ∧ code ≤ 70 then some (code - 55)
  else none

def encodeChars : List UInt8 → List Char
  | [] => []
  | byte :: rest =>
      digitChar (byte.toNat / 16) :: digitChar (byte.toNat % 16) :: encodeChars rest

def encode (bytes : List UInt8) : String := String.ofList (encodeChars bytes)

/-- The same digits in upper case. -/
def encodeUpper (bytes : List UInt8) : String :=
  String.ofList ((encodeChars bytes).map Char.toUpper)

/-- An odd number of digits or a foreign character is an error. -/
def decodeChars : List Char → Option (List UInt8)
  | [] => some []
  | [_] => none
  | high :: low :: rest => do
      let upper ← digitValue high
      let lower ← digitValue low
      let bytes ← decodeChars rest
      some (UInt8.ofNat (16 * upper + lower) :: bytes)

def decode (text : String) : Option (List UInt8) := decodeChars text.toList

/-- Without any number of `0x` in front. -/
def trimStart0x : List Char → List Char
  | '0' :: 'x' :: rest => trimStart0x rest
  | text => text

/-- Lower case for the ASCII letters alone. -/
def toAsciiLowercase (text : String) : String := String.ofList (text.toList.map Char.toLower)

def eqIgnoreAsciiCase (left right : String) : Bool :=
  toAsciiLowercase left == toAsciiLowercase right

theorem digitValue_digitChar : ∀ value < 16, digitValue (digitChar value) = some value := by
  decide

theorem decodeChars_encodeChars (bytes : List UInt8)
    : decodeChars (encodeChars bytes) = some bytes := by
  induction bytes with
  | nil => rfl
  | cons byte rest ih =>
      have bound := byte.toNat_lt
      have upper := digitValue_digitChar (byte.toNat / 16) (by omega)
      have lower := digitValue_digitChar (byte.toNat % 16) (by omega)
      have joined : 16 * (byte.toNat / 16) + byte.toNat % 16 = byte.toNat := by omega
      simp only [encodeChars, decodeChars, upper, lower, ih, Option.bind_eq_bind,
        Option.bind_some, joined, UInt8.ofNat_toNat]

/-- Reading succeeds exactly on an even number of digits. -/
theorem decodeChars_isSome_iff (chars : List Char)
    : (decodeChars chars).isSome
      ↔ chars.length % 2 = 0 ∧ ∀ char ∈ chars, (digitValue char).isSome := by
  induction chars using decodeChars.induct with
  | case1 => simp [decodeChars]
  | case2 char => simp [decodeChars]
  | case3 high low rest ih =>
      cases upper : digitValue high with
      | none => simp [decodeChars, upper]
      | some upperValue =>
          cases lower : digitValue low with
          | none => simp [decodeChars, upper, lower]
          | some lowerValue =>
              have longer : (high :: low :: rest).length % 2 = rest.length % 2 := by
                rw [List.length_cons, List.length_cons]
                omega
              have ends : (decodeChars (high :: low :: rest)).isSome
                  = (decodeChars rest).isSome := by
                rw [decodeChars, upper, lower]
                cases decodeChars rest <;> rfl
              rw [longer, ends]
              simpa [upper, lower] using ih

/-- Reading inverts writing. -/
theorem decode_encode (bytes : List UInt8) : decode (encode bytes) = some bytes := by
  rw [decode, encode, String.toList_ofList, decodeChars_encodeChars]

/-- Hexadecimal text has no `0x` in front. -/
theorem trimStart0x_encodeChars (bytes : List UInt8)
    : trimStart0x (encodeChars bytes) = encodeChars bytes := by
  have noX : ∀ value < 16, digitChar value ≠ 'x' := by decide
  cases bytes with
  | nil => rfl
  | cons byte rest =>
      have low := noX (byte.toNat % 16) (by omega)
      unfold encodeChars trimStart0x
      split
      · rename_i given
        exact absurd (List.cons.inj (List.cons.inj given).2).1 low
      · rfl

end Hex

end PerpDex
