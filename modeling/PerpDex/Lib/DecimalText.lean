import Mathlib

/-! Text operations on lists of characters, and signed decimal numbers.
Reading accepts an optional sign and at least one ASCII digit; writing is the usual
positional notation, and reading inverts it.
-/

namespace PerpDex

namespace Text

/-- Characters with the Unicode `White_Space` property. -/
def isWhiteSpace (char : Char) : Bool :=
  let code := char.toNat
  (9 ≤ code && code ≤ 13) || code = 0x20 || code = 0x85 || code = 0xA0 || code = 0x1680
  || (0x2000 ≤ code && code ≤ 0x200A) || code = 0x2028 || code = 0x2029 || code = 0x202F
  || code = 0x205F || code = 0x3000

/-- Drop white space at both ends. -/
def trim (chars : List Char) : List Char :=
  ((chars.dropWhile isWhiteSpace).reverse.dropWhile isWhiteSpace).reverse

/-- Split at the first occurrence of a separator, which is dropped. -/
def splitOnce (separator : Char) : List Char → Option (List Char × List Char)
  | [] => none
  | char :: rest =>
      if char = separator then some ([], rest)
      else (splitOnce separator rest).map (fun (front, back) => (char :: front, back))

/-- What follows the first occurrence of a text. -/
def afterFirst (needle : List Char) : List Char → Option (List Char)
  | [] => if needle = [] then some [] else none
  | char :: rest =>
      if needle.isPrefixOf (char :: rest) then some ((char :: rest).drop needle.length)
      else afterFirst needle rest

/-- Pad on the right to a number of characters. -/
def padRight (width : Nat) (fill : Char) (chars : List Char) : List Char :=
  chars ++ List.replicate (width - chars.length) fill

/-- The first `count` bytes of the UTF-8 encoding; `none` if they end inside a character
or the text is shorter.
-/
def takeBytes : Nat → List Char → Option (List Char)
  | 0, _ => some []
  | _ + 1, [] => none
  | count + 1, char :: rest =>
      if char.utf8Size ≤ count + 1 then
        (takeBytes (count + 1 - char.utf8Size) rest).map (char :: ·)
      else none

/-- The value of a nonempty run of ASCII digits. -/
def parseNat (chars : List Char) : Option Nat :=
  if chars ≠ [] ∧ chars.all Char.isDigit then some (Nat.ofDigitChars 10 chars 0) else none

/-- The value of digits after an optional sign. -/
def parseInt : List Char → Option Int
  | '+' :: digits => (parseNat digits).map (fun value => (value : Int))
  | '-' :: digits => (parseNat digits).map (fun value => -(value : Int))
  | digits => (parseNat digits).map (fun value => (value : Int))

/-- The value of digits with at most one point among them. -/
def parseUnsigned (chars : List Char) : Option ℚ :=
  let (whole, frac) := (splitOnce '.' chars).getD (chars, [])
  (parseNat (whole ++ frac)).map (fun digits : ℕ => (digits : ℚ) / 10 ^ frac.length)

/-- The value of a decimal numeral, of any size and with any number of decimals. -/
def parseDecimal : List Char → Option ℚ
  | '+' :: chars => parseUnsigned chars
  | '-' :: chars => (parseUnsigned chars).map (fun value => -value)
  | chars => parseUnsigned chars

theorem dropWhile_eq_self {test : Char → Bool} {chars : List Char}
    (clean : ∀ char, chars.head? = some char → test char = false)
    : chars.dropWhile test = chars := by
  cases chars with
  | nil => rfl
  | cons char rest => simp [clean char rfl]

/-- Text without white space is not trimmed. -/
theorem trim_eq_self {chars : List Char} (clean : ∀ char ∈ chars, isWhiteSpace char = false)
    : trim chars = chars := by
  have front : chars.dropWhile isWhiteSpace = chars :=
    dropWhile_eq_self (fun char first => clean char (List.mem_of_mem_head? first))
  have back : chars.reverse.dropWhile isWhiteSpace = chars.reverse := by
    refine dropWhile_eq_self (fun char first => clean char ?_)
    exact List.mem_reverse.mp (List.mem_of_mem_head? first)
  rw [trim, front, back, List.reverse_reverse]

/-- The first separator splits the text it was put into. -/
theorem splitOnce_append {separator : Char} {front : List Char} (absent : separator ∉ front)
    (back : List Char)
    : splitOnce separator (front ++ separator :: back) = some (front, back) := by
  induction front with
  | nil => simp [splitOnce]
  | cons char rest ih =>
      have apart : char ≠ separator := fun same => absent (same ▸ List.mem_cons_self)
      have later := ih (fun member => absent (List.mem_cons_of_mem _ member))
      simp [splitOnce, apart, later]

theorem splitOnce_eq_none {separator : Char} {chars : List Char} (absent : separator ∉ chars)
    : splitOnce separator chars = none := by
  induction chars with
  | nil => rfl
  | cons char rest ih =>
      have apart : char ≠ separator := fun same => absent (same ▸ List.mem_cons_self)
      have later := ih (fun member => absent (List.mem_cons_of_mem _ member))
      simp [splitOnce, apart, later]

/-- In a text of one-byte characters, bytes are characters. -/
theorem takeBytes_take {chars : List Char} (ascii : ∀ char ∈ chars, char.utf8Size = 1)
    {count : Nat} (enough : count ≤ chars.length)
    : takeBytes count chars = some (chars.take count) := by
  induction chars generalizing count with
  | nil =>
      obtain rfl : count = 0 := by simpa using enough
      simp [takeBytes]
  | cons char rest ih =>
      cases count with
      | zero => simp [takeBytes]
      | succ count =>
          have one := ascii char List.mem_cons_self
          have later := ih (fun other member => ascii other (List.mem_cons_of_mem _ member))
            (Nat.le_of_succ_le_succ enough)
          simp [takeBytes, one, later]

/-- A text of one-byte characters is its own prefix of that many bytes. -/
theorem takeBytes_ascii {chars : List Char} (ascii : ∀ char ∈ chars, char.utf8Size = 1)
    : takeBytes chars.length chars = some chars := by
  rw [takeBytes_take ascii le_rfl, List.take_length]

/-- The pieces between separators, one separator at a time. -/
theorem splitOn_eq (separator : Char) (chars : List Char)
    : chars.splitOn separator
      = ((splitOnce separator chars).map (fun parts =>
          parts.1 :: parts.2.splitOn separator)).getD [chars] := by
  induction chars with
  | nil => rfl
  | cons char rest ih =>
      rw [List.splitOn_cons_eq_if_modifyHead, splitOnce]
      by_cases same : char = separator
      · simp [same]
      · rw [ih]
        cases splitOnce separator rest <;> simp [same]

/-- Bytes are taken where a front part of the text has just as many. -/
theorem takeBytes_isSome_iff {count : Nat} {chars : List Char}
    : (takeBytes count chars).isSome
      ↔ ∃ front, front <+: chars ∧ (front.map Char.utf8Size).sum = count := by
  induction chars generalizing count with
  | nil =>
      cases count with
      | zero => simp [takeBytes]
      | succ count => simp [takeBytes]
  | cons char rest ih =>
      have size := char.utf8Size_pos
      cases count with
      | zero => exact ⟨fun _ => ⟨[], List.nil_prefix, rfl⟩, fun _ => by simp [takeBytes]⟩
      | succ count =>
          rw [takeBytes]
          constructor
          · intro taken
            split at taken
            · rename_i fits
              rw [Option.isSome_map, ih] at taken
              obtain ⟨front, isFront, total⟩ := taken
              refine ⟨char :: front, List.cons_prefix_cons.mpr ⟨rfl, isFront⟩, ?_⟩
              rw [List.map_cons, List.sum_cons, total]
              omega
            · cases taken
          · intro given
            obtain ⟨front, isFront, total⟩ := given
            cases front with
            | nil => cases total
            | cons first front =>
                obtain ⟨rfl, shorter⟩ := List.cons_prefix_cons.mp isFront
                rw [List.map_cons, List.sum_cons] at total
                rw [if_pos (by omega), Option.isSome_map, ih]
                exact ⟨front, shorter, by omega⟩

theorem padRight_eq_self {width : Nat} (fill : Char) {chars : List Char}
    (long : width ≤ chars.length)
    : padRight width fill chars = chars := by
  rw [padRight, Nat.sub_eq_zero_of_le long, List.replicate_zero, List.append_nil]

theorem length_padRight (width : Nat) (fill : Char) (chars : List Char)
    : (padRight width fill chars).length = max width chars.length := by
  rw [padRight, List.length_append, List.length_replicate]
  omega

/-- A text that was cut and padded already is not cut or padded differently. -/
theorem take_padRight_cut (width : Nat) (fill : Char) (chars : List Char)
    : (padRight width fill (padRight width fill (chars.take width))).take width
      = (padRight width fill chars).take width := by
  have padded : width ≤ (padRight width fill (chars.take width)).length := by
    rw [length_padRight]
    exact Nat.le_max_left _ _
  rw [padRight_eq_self fill padded]
  rcases Nat.le_total chars.length width with short | long
  · rw [List.take_of_length_le short]
  · rw [padRight_eq_self fill long,
      padRight_eq_self fill (by rw [List.length_take, Nat.min_eq_left long]), List.take_take,
      Nat.min_self]

-----------------------------------------------------------------------------------------
-- Digits
-----------------------------------------------------------------------------------------

/-- A decimal digit is an ASCII character other than blanks, signs and the point. -/
theorem digit_clean {char : Char} (digit : char.isDigit = true)
    : isWhiteSpace char = false ∧ char.utf8Size = 1 ∧ char ≠ '+' ∧ char ≠ '-' ∧ char ≠ '.' := by
  simp only [Char.isDigit, Bool.and_eq_true, decide_eq_true_eq] at digit
  obtain ⟨lower, upper⟩ := digit
  have low : 48 ≤ char.toNat := lower
  have high : char.toNat ≤ 57 := upper
  refine ⟨?_, ?_, ?_, ?_, ?_⟩
  · simp only [isWhiteSpace, Bool.or_eq_false_iff, Bool.and_eq_false_iff, decide_eq_false_iff_not]
    omega
  · have small : char.val ≤ 127 := by
      rw [UInt32.le_iff_toNat_le]
      exact high.trans (by decide)
    simp [Char.utf8Size, small]
  all_goals
    rintro rfl
    revert low high
    decide

theorem toDigits_isDigit {value : Nat} {char : Char} (member : char ∈ Nat.toDigits 10 value)
    : char.isDigit = true :=
  Nat.isDigit_of_mem_toDigits (by decide) (by decide) member

theorem parseNat_eq_some {chars : List Char} (nonempty : chars ≠ [])
    (digits : ∀ char ∈ chars, char.isDigit = true)
    : parseNat chars = some (Nat.ofDigitChars 10 chars 0) :=
  if_pos ⟨nonempty, List.all_eq_true.mpr digits⟩

/-- Digits are read without a sign. -/
theorem parseInt_digits {chars : List Char} (nonempty : chars ≠ [])
    (digits : ∀ char ∈ chars, char.isDigit = true)
    : parseInt chars = some (Nat.ofDigitChars 10 chars 0 : Int) := by
  have value := parseNat_eq_some nonempty digits
  cases chars with
  | nil => exact absurd rfl nonempty
  | cons char rest =>
      obtain ⟨_, _, plus, minus, _⟩ := digit_clean (digits char List.mem_cons_self)
      rw [parseInt, value]
      · rfl
      · intro _ same
        exact plus (List.cons.inj same).1
      · intro _ same
        exact minus (List.cons.inj same).1

/-- Digits in two parts. -/
theorem ofDigitChars_append_zero (front back : List Char)
    : Nat.ofDigitChars 10 (front ++ back) 0
      = Nat.ofDigitChars 10 front 0 * 10 ^ back.length + Nat.ofDigitChars 10 back 0 := by
  rw [Nat.ofDigitChars_append, Nat.ofDigitChars_eq_ofDigitChars_zero, Nat.mul_comm]

theorem ofDigitChars_lt {chars : List Char} (digits : ∀ char ∈ chars, char.isDigit = true)
    : Nat.ofDigitChars 10 chars 0 < 10 ^ chars.length := by
  induction chars with
  | nil => simp
  | cons char rest ih =>
      have later := ih (fun other member => digits other (List.mem_cons_of_mem _ member))
      have digit := digits char List.mem_cons_self
      simp only [Char.isDigit, Bool.and_eq_true, decide_eq_true_eq] at digit
      have high : char.toNat ≤ 57 := digit.2
      have isFirst : Nat.ofDigitChars 10 [char] 0 = char.toNat - 48 := by
        simp [Nat.ofDigitChars]
      have split := ofDigitChars_append_zero [char] rest
      rw [List.singleton_append, isFirst] at split
      rw [split, List.length_cons, Nat.pow_succ]
      have leading : (char.toNat - 48) * 10 ^ rest.length ≤ 9 * 10 ^ rest.length :=
        Nat.mul_le_mul_right _ (by omega)
      omega

/-- Cutting or padding a fraction to a number of digits truncates the decimal number. -/
theorem ofDigitChars_cut {whole frac : List Char} (digits : ∀ char ∈ frac, char.isDigit = true)
    (width : Nat)
    : Nat.ofDigitChars 10 (whole ++ frac) 0 * 10 ^ width / 10 ^ frac.length
      = Nat.ofDigitChars 10 whole 0 * 10 ^ width
        + Nat.ofDigitChars 10 ((padRight width '0' frac).take width) 0 := by
  have positive : 0 < 10 ^ frac.length := Nat.pow_pos (by decide)
  rw [ofDigitChars_append_zero, Nat.add_mul, Nat.mul_right_comm, Nat.add_comm,
    Nat.add_mul_div_right _ _ positive, Nat.add_comm]
  congr 1
  rcases Nat.le_total frac.length width with short | long
  · have padded : (padRight width '0' frac).take width = padRight width '0' frac := by
      refine List.take_of_length_le ?_
      simp only [padRight, List.length_append, List.length_replicate]
      omega
    have scale : 10 ^ width = 10 ^ (width - frac.length) * 10 ^ frac.length := by
      rw [← Nat.pow_add, Nat.sub_add_cancel short]
    rw [padded, padRight, ofDigitChars_append_zero, List.length_replicate,
      Nat.ofDigitChars_replicate_zero, Nat.mul_zero, Nat.add_zero, scale, ← Nat.mul_assoc,
      Nat.mul_div_cancel _ positive]
  · have unpadded : padRight width '0' frac = frac := by
      rw [padRight, Nat.sub_eq_zero_of_le long]
      simp
    have halves := ofDigitChars_append_zero (frac.take width) (frac.drop width)
    rw [List.take_append_drop, List.length_drop] at halves
    have small : Nat.ofDigitChars 10 (frac.drop width) 0 < 10 ^ (frac.length - width) := by
      rw [← List.length_drop]
      exact ofDigitChars_lt (fun char member => digits char (List.mem_of_mem_drop member))
    have scale : 10 ^ frac.length = 10 ^ (frac.length - width) * 10 ^ width := by
      rw [← Nat.pow_add, Nat.sub_add_cancel long]
    rw [unpadded, scale, Nat.mul_div_mul_right _ _ (Nat.pow_pos (by decide)), halves,
      Nat.add_comm, Nat.add_mul_div_right _ _ (Nat.pow_pos (by decide)),
      Nat.div_eq_of_lt small, Nat.zero_add]

/-- Reading inverts writing. -/
theorem parseInt_toDigits (value : Nat)
    : parseInt (Nat.toDigits 10 value) = some (value : Int) := by
  rw [parseInt_digits Nat.toDigits_ne_nil (fun _ member => toDigits_isDigit member),
    Nat.ofDigitChars_ten_toDigits]

/-- Zeros in front do not change the value read. -/
theorem parseInt_leftpad (width value : Nat)
    : parseInt ((Nat.toDigits 10 value).leftpad width '0') = some (value : Int) := by
  have digits : ∀ char ∈ (Nat.toDigits 10 value).leftpad width '0', char.isDigit = true := by
    intro char member
    rcases List.mem_append.mp member with zero | digit
    · rw [(List.mem_replicate.mp zero).2]
      decide
    · exact toDigits_isDigit digit
  have nonempty : (Nat.toDigits 10 value).leftpad width '0' ≠ [] := by
    simp [List.leftpad, Nat.toDigits_ne_nil]
  rw [parseInt_digits nonempty digits, List.leftpad, Nat.ofDigitChars_append,
    Nat.ofDigitChars_replicate_zero, Nat.mul_zero, Nat.ofDigitChars_ten_toDigits]

end Text

end PerpDex
