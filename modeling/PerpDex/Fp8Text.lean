import PerpDex.Lib.DecimalText
import PerpDex.Types

/-! The text form of FP8 values.
Every value survives being displayed and read back, the most negative one included: its
magnitude wraps on the way in and the negation wraps it back.
-/

namespace PerpDex

namespace FP8

open Text

/-- Why a text is not read as a value: it is not a number, or slicing its fraction at the
eighth byte panics inside a character.
-/
inductive FromStrError where
  | invalid
  | panicked
deriving DecidableEq, Repr

/-- An `i64` in decimal notation. -/
def parseI64 (chars : List Char) : Except FromStrError Int :=
  match parseInt chars with
  | some value => if I64Range value then .ok value else .error .invalid
  | none => .error .invalid

def fromChars (chars : List Char) : Except FromStrError FP8 := do
  let chars := trim chars
  let negative := chars.head? = some '-'
  let chars := chars.dropWhile (· = '-')
  let (wholeStr, fracStr) := (splitOnce '.' chars).getD (chars, [])
  let whole ← if wholeStr = [] then .ok 0 else parseI64 wholeStr
  match takeBytes 8 (padRight 8 '0' fracStr) with
  | none => .error .panicked
  | some fracPadded =>
      let frac ← parseI64 fracPadded
      let value := wrapI64 (wrapI64 (whole * fp8Scale) + frac)
      .ok (ofRaw (if negative then -value else value))

/-- `FromStr`: trim, split at the point, pad or cut the fraction to eight digits. -/
def fromStr (text : String) : Except FromStrError FP8 := fromChars text.toList

def displayChars (value : FP8) : List Char :=
  (if value.raw < 0 then ['-'] else [])
  ++ Nat.toDigits 10 (value.raw.natAbs / 100_000_000)
  ++ '.' :: (Nat.toDigits 10 (value.raw.natAbs % 100_000_000)).leftpad 8 '0'

/-- `Display`: sign, whole part, and exactly eight decimals. -/
def display (value : FP8) : String := String.ofList value.displayChars

example : fromStr "-1.25" = .ok (ofRaw (-125_000_000)) := by decide

theorem leftpad_digits (value : Nat)
    : ∀ char ∈ (Nat.toDigits 10 value).leftpad 8 '0', char.isDigit = true := by
  intro char member
  rcases List.mem_append.mp member with zero | digit
  · rw [(List.mem_replicate.mp zero).2]
    decide
  · exact toDigits_isDigit digit

theorem leftpad_length {value : Nat} (small : value < 100_000_000)
    : ((Nat.toDigits 10 value).leftpad 8 '0').length = 8 := by
  have short := (Nat.length_toDigits_le_iff (b := 10) (by decide) (by decide)).mpr
    (show value < 10 ^ 8 by exact small)
  simp only [List.length_leftpad]
  omega

theorem displayChars_clean (value : FP8)
    : ∀ char ∈ value.displayChars, isWhiteSpace char = false := by
  intro char member
  simp only [displayChars, List.append_assoc, List.mem_append, List.mem_cons] at member
  rcases member with sign | whole | rfl | frac
  · split_ifs at sign
    · rw [List.mem_singleton.mp sign]
      decide
    · exact absurd sign List.not_mem_nil
  · exact (digit_clean (toDigits_isDigit whole)).1
  · decide
  · exact (digit_clean (leftpad_digits _ char frac)).1

theorem parseI64_of_parseInt {chars : List Char} {value : Nat} (small : value < 2 ^ 63)
    (read : parseInt chars = some (value : Int))
    : parseI64 chars = .ok (value : Int) := by
  have fits : I64Range value := ⟨by omega, by omega⟩
  simp only [parseI64, read, if_pos fits]

/-- Reading a text whose parts have been read. -/
theorem fromChars_parts {chars whole frac digits : List Char} {wholeValue fracValue : Int}
    (trimmed : trim chars = chars)
    (split : splitOnce '.' (chars.dropWhile (· = '-')) = some (whole, frac))
    (nonempty : whole ≠ []) (wholeRead : parseI64 whole = .ok wholeValue)
    (sliced : takeBytes 8 (padRight 8 '0' frac) = some digits)
    (fracRead : parseI64 digits = .ok fracValue)
    : fromChars chars
      = .ok
          (ofRaw
            (if chars.head? = some '-' then
              -wrapI64 (wrapI64 (wholeValue * fp8Scale) + fracValue)
            else wrapI64 (wrapI64 (wholeValue * fp8Scale) + fracValue))) := by
  simp only [fromChars, trimmed, split, Option.getD_some, if_neg nonempty, wholeRead, sliced,
    fracRead]
  rfl

/-- The minus sign is recognised and removed; digits keep it from eating more. -/
theorem displayChars_sign (value : FP8)
    : (value.displayChars.head? = some '-' ↔ value.raw < 0)
      ∧ value.displayChars.dropWhile (· = '-')
        = Nat.toDigits 10 (value.raw.natAbs / 100_000_000)
          ++ '.' :: (Nat.toDigits 10 (value.raw.natAbs % 100_000_000)).leftpad 8 '0' := by
  obtain ⟨first, rest, digitsEq⟩ := List.exists_cons_of_ne_nil
    (@Nat.toDigits_ne_nil (value.raw.natAbs / 100_000_000) 10)
  have digit : first.isDigit = true :=
    @toDigits_isDigit (value.raw.natAbs / 100_000_000) first
      (digitsEq ▸ List.mem_cons_self)
  have unsigned := (digit_clean digit).2.2.2.1
  simp only [displayChars, digitsEq]
  by_cases negative : value.raw < 0
  · simp [negative, unsigned]
  · simp [negative, unsigned]

/-- Reading a displayed value gives the value back. -/
theorem fromStr_display (value : FP8) : fromStr value.display = .ok value := by
  obtain ⟨lower, upper⟩ := value.inRange
  obtain ⟨signIff, unsigned⟩ := displayChars_sign value
  generalize wholeDef : value.raw.natAbs / 100_000_000 = whole at unsigned
  generalize fracDef : value.raw.natAbs % 100_000_000 = frac at unsigned
  have fracSmall : frac < 100_000_000 := by omega
  have magnitude : (value.raw.natAbs : Int) = whole * 100_000_000 + frac := by omega
  have noPoint : '.' ∉ Nat.toDigits 10 whole := fun member =>
    absurd (toDigits_isDigit member) (by decide)
  have sliced : takeBytes 8 (padRight 8 '0' ((Nat.toDigits 10 frac).leftpad 8 '0'))
      = some ((Nat.toDigits 10 frac).leftpad 8 '0') := by
    have ascii := takeBytes_ascii (fun char member =>
      (digit_clean (leftpad_digits frac char member)).2.1)
    rw [leftpad_length fracSmall] at ascii
    rw [padRight, leftpad_length fracSmall]
    simpa using ascii
  have restored : ofRaw (if value.raw < 0 then -wrapI64 (wrapI64 (whole * fp8Scale) + frac)
      else wrapI64 (wrapI64 (whole * fp8Scale) + frac)) = value := by
    have inner : wrapI64 (whole * fp8Scale) = whole * 100_000_000 :=
      wrapI64_eq ⟨by simp only [fp8Scale]; omega, by simp only [fp8Scale]; omega⟩
    rw [inner, ← magnitude]
    apply FP8.ext
    split_ifs with negative
    · have back : -(value.raw.natAbs : Int) = value.raw := by omega
      have negated := wrapI64_neg value.raw.natAbs
      rw [raw_wrap, negated, back, wrapI64_eq value.inRange]
    · have same : (value.raw.natAbs : Int) = value.raw := by omega
      rw [same, wrapI64_eq value.inRange, ofRaw_raw]
  rw [fromStr, display, String.toList_ofList, fromChars_parts
    (trim_eq_self (displayChars_clean value))
    (by rw [unsigned]; exact splitOnce_append noPoint _) Nat.toDigits_ne_nil
    (parseI64_of_parseInt (by omega) (parseInt_toDigits whole)) sliced
    (parseI64_of_parseInt (by omega) (parseInt_leftpad 8 frac))]
  simp only [signIff]
  exact congrArg Except.ok restored

end FP8

end PerpDex
