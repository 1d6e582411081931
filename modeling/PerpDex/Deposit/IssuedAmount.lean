import PerpDex.Deposit.Cursor
import PerpDex.Fp8Exact

/-! Which issued-currency values are credited for what they are. The amount of an event is cut
out of the value's text around the decimal point, and a node writes large and small values
with an exponent behind the digits.
-/

namespace PerpDex

namespace DepositMonitor

open FP8 Text

-----------------------------------------------------------------------------------------
-- Values as a node writes them
-----------------------------------------------------------------------------------------

/-- `e`, an optional sign and digits. -/
structure Exponent where
  sign : Option Char
  digits : List Char
  isSign : sign = none ∨ sign = some '+' ∨ sign = some '-'
  areDigits : ∀ char ∈ digits, char.isDigit = true
  nonempty : digits ≠ []

def Exponent.chars (exponent : Exponent) : List Char :=
  'e' :: (exponent.sign.toList ++ exponent.digits)

def Exponent.value (exponent : Exponent) : Int :=
  let magnitude : Int := Nat.ofDigitChars 10 exponent.digits 0
  if exponent.sign = some '-' then -magnitude else magnitude

/-- An optional minus sign, digits, an optional fraction and an optional exponent. -/
structure IssuedValue where
  mantissa : Numeral
  exponent : Option Exponent
  whole : mantissa.whole ≠ []
  frac : mantissa.pointed = true → mantissa.frac ≠ []

/-- Negative values and two spellings of zero are passed over. -/
def PassedOver (text : String) : Prop :=
  text.toList.head? = some '-' ∨ text = "0" ∨ text = "0.00000000"

/-- Toward zero. -/
def truncate (value : ℚ) : Int := if 0 ≤ value then ⌊value⌋ else ⌈value⌉

namespace IssuedValue

variable (value : IssuedValue)

def exponentChars : List Char := (value.exponent.map Exponent.chars).getD []

def text : String := String.ofList (value.mantissa.chars ++ value.exponentChars)

def power : Int := (value.exponent.map Exponent.value).getD 0

/-- The digits as a number, without point, sign and exponent. -/
def digits : Nat := Nat.ofDigitChars 10 (value.mantissa.whole ++ value.mantissa.frac) 0

/-- The number that is written. -/
def number : ℚ :=
  (if value.mantissa.negative then -1 else 1) * value.digits
    * 10 ^ (value.power - value.mantissa.frac.length)

/-- The number in units of ten to the minus eighth, truncated. -/
def truncated : Int := truncate (value.number * 10 ^ 8)

theorem truncated_nonpos (negative : value.mantissa.negative = true) : value.truncated ≤ 0 := by
  have scale : (0 : ℚ) ≤ 10 ^ (value.power - value.mantissa.frac.length) := by positivity
  have below : value.number * 10 ^ 8 ≤ 0 := by
    rw [number, if_pos negative]
    have product : (0 : ℚ) ≤ value.digits * 10 ^ (value.power - value.mantissa.frac.length) := by
      positivity
    linarith
  rw [truncated, truncate]
  split
  · rename_i above
    rw [le_antisymm below above, Int.floor_zero]
  · exact Int.ceil_le.mpr (by simpa using below)

/-- The digits up to the eighth decimal, where the exponent does not count. -/
theorem floor_mantissa (positive : value.mantissa.negative = false)
    : ⌊(value.digits : ℚ) * 10 ^ 8 / 10 ^ value.mantissa.frac.length⌋
      = value.mantissa.truncated := by
  have asNat : (value.digits : ℚ) * 10 ^ 8 / 10 ^ value.mantissa.frac.length
      = ((value.digits * 10 ^ 8 : Nat) : ℚ) / ((10 ^ value.mantissa.frac.length : Nat) : ℚ) := by
    push_cast
    rfl
  rw [asNat, Rat.floor_natCast_div_natCast, Numeral.truncated, positive]
  simp only [Bool.false_eq_true, if_false, digits]
  push_cast
  rw [Int.tdiv_eq_ediv_of_nonneg (by positivity)]

/-- A number that is not negative, scaled by its exponent. -/
theorem truncated_eq_floor (positive : value.mantissa.negative = false)
    : value.truncated
      = ⌊(value.digits : ℚ) * 10 ^ 8 / 10 ^ value.mantissa.frac.length * 10 ^ value.power⌋ := by
  have scaled : value.number * 10 ^ 8
      = (value.digits : ℚ) * 10 ^ 8 / 10 ^ value.mantissa.frac.length * 10 ^ value.power := by
    rw [number, positive, zpow_sub₀ (by norm_num), zpow_natCast]
    simp only [Bool.false_eq_true, if_false, one_mul]
    ring
  have above : 0 ≤ value.number * 10 ^ 8 := by
    rw [scaled]
    positivity
  rw [truncated, truncate, if_pos above, scaled]

/-- Where the exponent is zero the digits are the value. -/
theorem truncated_of_power_zero (positive : value.mantissa.negative = false)
    (noPower : value.power = 0)
    : value.truncated = value.mantissa.truncated := by
  rw [value.truncated_eq_floor positive, noPower, zpow_zero, mul_one,
    value.floor_mantissa positive]

/-- Any other exponent changes a value that is not below the unit. -/
theorem truncated_ne_of_power_ne_zero (positive : value.mantissa.negative = false)
    (powered : value.power ≠ 0) (counts : 0 < value.truncated)
    : value.truncated ≠ value.mantissa.truncated := by
  intro same
  rw [value.truncated_eq_floor positive, ← value.floor_mantissa positive] at same
  rw [value.truncated_eq_floor positive, same] at counts
  generalize unscaled : (value.digits : ℚ) * 10 ^ 8 / 10 ^ value.mantissa.frac.length = base
    at same counts
  have baseBelow := Int.floor_le base
  have baseAbove := Int.lt_floor_add_one base
  have atLeastOne : (1 : ℚ) ≤ ⌊base⌋ := by exact_mod_cast counts
  rcases Int.lt_or_gt_of_ne powered with down | up
  · have small : (10 : ℚ) ^ value.power ≤ 10 ^ (-1 : Int) :=
      zpow_le_zpow_right₀ (by norm_num) (by omega)
    have scaledBelow := Int.floor_le (base * 10 ^ value.power)
    rw [same] at scaledBelow
    have shrunk : base * 10 ^ value.power ≤ base * 10 ^ (-1 : Int) :=
      mul_le_mul_of_nonneg_left small (by linarith)
    norm_num at shrunk
    linarith
  · have large : (10 : ℚ) ^ (1 : Int) ≤ 10 ^ value.power :=
      zpow_le_zpow_right₀ (by norm_num) (by omega)
    have scaledAbove := Int.lt_floor_add_one (base * 10 ^ value.power)
    rw [same] at scaledAbove
    have grown : base * 10 ^ (1 : Int) ≤ base * 10 ^ value.power :=
      mul_le_mul_of_nonneg_left large (by linarith)
    norm_num at grown
    linarith

end IssuedValue

-----------------------------------------------------------------------------------------
-- The amount that is cut out
-----------------------------------------------------------------------------------------

theorem sum_utf8Size {chars : List Char} (ascii : ∀ char ∈ chars, char.utf8Size = 1)
    : (chars.map Char.utf8Size).sum = chars.length := by
  rw [List.map_congr_left ascii]
  simp

theorem cutFraction_ascii {frac : List Char} (ascii : ∀ char ∈ frac, char.utf8Size = 1)
    : cutFraction frac = some (frac.take 8) := by
  rw [cutFraction, sum_utf8Size ascii]
  split
  · rename_i short
    rw [List.take_of_length_le short]
  · rename_i long
    exact takeBytes_take ascii (Nat.le_of_not_le long)

theorem fp8Amount_pointed {front back : List Char} (noPoint : '.' ∉ front) (once : '.' ∉ back)
    (ascii : ∀ char ∈ back, char.utf8Size = 1)
    : fp8Amount (String.ofList (front ++ '.' :: back))
      = some (String.ofList (front ++ '.' :: padRight 8 '0' (back.take 8))) := by
  rw [fp8Amount, String.toList_ofList, splitOnce_append noPoint]
  simp only [Option.getD_some, splitOnce_eq_none once, Option.map_none, Option.getD_none,
    cutFraction_ascii ascii, Option.map_some]

theorem fp8Amount_unpointed {chars : List Char} (noPoint : '.' ∉ chars)
    : fp8Amount (String.ofList chars)
      = some (String.ofList (chars ++ '.' :: padRight 8 '0' [])) := by
  rw [fp8Amount, String.toList_ofList, splitOnce_eq_none noPoint]
  rfl

/-- A foreign character in front of the point, or among the decimals before they are padded. -/
theorem fromStr_padded_foreign {lead kept : List Char}
    (leadClean : ∀ char ∈ lead, char ≠ '.' ∧ isWhiteSpace char = false)
    (unsigned : (lead ++ '.' :: padRight 8 '0' kept).head? ≠ some '-')
    (keptClean : ∀ char ∈ kept, char.utf8Size = 1 ∧ isWhiteSpace char = false)
    (few : kept.length ≤ 8) (char : Char) (member : char ∈ lead ++ kept)
    (foreign : ¬ (char.isDigit = true ∨ char = '+' ∨ char = '-'))
    : fromStr (String.ofList (lead ++ '.' :: padRight 8 '0' kept)) = .error .invalid := by
  have padded : ∀ char ∈ padRight 8 '0' kept,
      char.utf8Size = 1 ∧ isWhiteSpace char = false := by
    intro char member
    rcases List.mem_append.mp member with part | zero
    · exact keptClean char part
    · rw [(List.mem_replicate.mp zero).2]
      decide
  refine fromStr_foreign ?_ unsigned (fun point => (leadClean '.' point).1 rfl)
    (fun char member => (padded char member).1) ?_ char ?_ foreign
  · intro char member
    rcases List.mem_append.mp member with inLead | inBack
    · exact (leadClean char inLead).2
    · rcases List.mem_cons.mp inBack with rfl | inPart
      · decide
      · exact (padded char inPart).2
  · rw [length_padRight]
    exact Nat.max_eq_left few
  · rcases List.mem_append.mp member with inLead | inKept
    · exact List.mem_append_left _ inLead
    · exact List.mem_append_right _ (List.mem_append_left _ inKept)

theorem Exponent.clean (exponent : Exponent) {char : Char} (member : char ∈ exponent.chars)
    : char ≠ '.' ∧ char.utf8Size = 1 ∧ isWhiteSpace char = false := by
  rcases List.mem_cons.mp member with rfl | member
  · decide
  · rcases List.mem_append.mp member with sign | digit
    · rcases exponent.isSign with none | plus | minus
      · simp [none] at sign
      · obtain rfl : char = '+' := by simpa [plus, eq_comm] using sign
        decide
      · obtain rfl : char = '-' := by simpa [minus, eq_comm] using sign
        decide
    · obtain ⟨white, size, -, -, point⟩ := digit_clean (exponent.areDigits char digit)
      exact ⟨point, size, white⟩

namespace IssuedValue

variable (value : IssuedValue)

/-- The sign and the digits in front of the point. -/
def front : List Char := (if value.mantissa.negative then ['-'] else []) ++ value.mantissa.whole

theorem text_eq
    : value.text
      = String.ofList
        (value.front
          ++ ((if value.mantissa.pointed then '.' :: value.mantissa.frac else [])
            ++ value.exponentChars)) := by
  rw [text, Numeral.chars, Numeral.unsigned, front]
  split <;> simp

theorem exponentChars_clean {char : Char} (member : char ∈ value.exponentChars)
    : char ≠ '.' ∧ char.utf8Size = 1 ∧ isWhiteSpace char = false := by
  rw [exponentChars] at member
  cases written : value.exponent with
  | none => simp [written] at member
  | some exponent =>
      rw [written] at member
      exact exponent.clean member

theorem front_clean {char : Char} (member : char ∈ value.front)
    : char ≠ '.' ∧ isWhiteSpace char = false := by
  rcases List.mem_append.mp member with sign | digit
  · split at sign
    · obtain rfl : char = '-' := by simpa using sign
      decide
    · cases sign
  · obtain ⟨white, -, -, -, point⟩ := digit_clean (value.mantissa.wholeDigits char digit)
    exact ⟨point, white⟩

/-- The amount of the event for a value. -/
def amount : List Char :=
  if value.mantissa.pointed then
    value.front ++ '.' :: padRight 8 '0' ((value.mantissa.frac ++ value.exponentChars).take 8)
  else value.front ++ value.exponentChars ++ '.' :: padRight 8 '0' []

theorem fp8Amount_text : fp8Amount value.text = some (String.ofList value.amount) := by
  have noPointFront : '.' ∉ value.front := fun member => (value.front_clean member).1 rfl
  have noPointBack : '.' ∉ value.exponentChars :=
    fun member => (value.exponentChars_clean member).1 rfl
  rw [value.text_eq, amount]
  by_cases pointed : value.mantissa.pointed = true
  · rw [if_pos pointed, if_pos pointed, List.cons_append]
    have parts : ∀ char ∈ value.mantissa.frac ++ value.exponentChars,
        char ≠ '.' ∧ char.utf8Size = 1 := by
      intro char member
      rcases List.mem_append.mp member with digit | later
      · obtain ⟨-, size, -, -, point⟩ := digit_clean (value.mantissa.fracDigits char digit)
        exact ⟨point, size⟩
      · obtain ⟨point, size, -⟩ := value.exponentChars_clean later
        exact ⟨point, size⟩
    exact fp8Amount_pointed noPointFront (fun member => (parts '.' member).1 rfl)
      (fun char member => (parts char member).2)
  · rw [if_neg pointed, if_neg pointed, List.nil_append]
    refine fp8Amount_unpointed ?_
    rw [List.mem_append, not_or]
    exact ⟨noPointFront, noPointBack⟩

-----------------------------------------------------------------------------------------
-- How the amount is read back
-----------------------------------------------------------------------------------------

/-- The amount as a numeral, where no exponent gets into it. -/
def amountNumeral : Numeral where
  negative := false
  whole := value.mantissa.whole
  pointed := true
  frac := padRight 8 '0' (value.mantissa.frac.take 8)
  wholeDigits := value.mantissa.wholeDigits
  fracDigits := by
    intro char member
    rcases List.mem_append.mp member with digit | zero
    · exact value.mantissa.fracDigits char (List.mem_of_mem_take digit)
    · rw [(List.mem_replicate.mp zero).2]
      decide
  nonempty := fun nothing => value.whole (List.append_eq_nil_iff.mp nothing).1
  unpointed := by simp

/-- The exponent does not get into the amount: there is none, or it stands behind the eighth
decimal.
-/
def Uncut : Prop := value.exponent = none ∨ 8 ≤ value.mantissa.frac.length

theorem amount_eq (positive : value.mantissa.negative = false) (uncut : value.Uncut)
    : value.amount = value.amountNumeral.chars := by
  have chars : value.amountNumeral.chars
      = value.mantissa.whole ++ '.' :: padRight 8 '0' (value.mantissa.frac.take 8) := rfl
  have front : value.front = value.mantissa.whole := by simp [front, positive]
  rw [chars, amount, front]
  rcases uncut with none | long
  · have noExponent : value.exponentChars = [] := by simp [exponentChars, none]
    rw [noExponent, List.append_nil, List.append_nil]
    by_cases pointed : value.mantissa.pointed = true
    · rw [if_pos pointed]
    · rw [if_neg pointed, value.mantissa.unpointed (by simpa using pointed)]
      rfl
  · have pointed : value.mantissa.pointed = true := by
      by_contra unpointed
      rw [value.mantissa.unpointed (by simpa using unpointed)] at long
      cases long
    rw [if_pos pointed, List.take_append_of_le_length long]

theorem amountNumeral_truncated (positive : value.mantissa.negative = false)
    : value.amountNumeral.truncated = value.mantissa.truncated := by
  have decimals : value.amountNumeral.fracValue = value.mantissa.fracValue := by
    rw [Numeral.fracValue, Numeral.fracValue]
    exact congrArg (Nat.ofDigitChars 10 · 0) (take_padRight_cut 8 '0' value.mantissa.frac)
  rw [Numeral.truncated_eq, Numeral.truncated_eq, positive, decimals]
  rfl

/-- A part of an amount: no white space, one byte for each character. -/
theorem part_clean {char : Char}
    (member : char ∈ value.mantissa.frac ++ value.exponentChars)
    : char ≠ '.' ∧ char.utf8Size = 1 ∧ isWhiteSpace char = false := by
  rcases List.mem_append.mp member with digit | later
  · obtain ⟨white, size, -, -, point⟩ := digit_clean (value.mantissa.fracDigits char digit)
    exact ⟨point, size, white⟩
  · exact value.exponentChars_clean later

theorem front_head (positive : value.mantissa.negative = false) (rest : List Char)
    : (value.front ++ rest).head? ≠ some '-' := by
  rw [front, positive]
  cases digits : value.mantissa.whole with
  | nil => exact absurd digits value.whole
  | cons digit others =>
      have isDigit := value.mantissa.wholeDigits digit (digits ▸ List.mem_cons_self)
      simpa using (digit_clean isDigit).2.2.2.1

/-- With an exponent in it, the amount is not read. -/
theorem fromStr_amount_cut (positive : value.mantissa.negative = false) (cut : ¬ value.Uncut)
    : fromStr (String.ofList value.amount) = .error .invalid := by
  obtain ⟨present, short⟩ := not_or.mp cut
  obtain ⟨exponent, written⟩ := Option.ne_none_iff_exists'.mp present
  have chars : value.exponentChars = 'e' :: (exponent.sign.toList ++ exponent.digits) := by
    simp [exponentChars, written, Exponent.chars]
  rw [amount]
  by_cases pointed : value.mantissa.pointed = true
  · rw [if_pos pointed]
    refine fromStr_padded_foreign (fun _ => value.front_clean) (value.front_head positive _)
      (fun _ member => (value.part_clean (List.mem_of_mem_take member)).2)
      (List.length_take_le 8 _) 'e' ?_ (by decide)
    -- the exponent begins within the first eight decimals
    obtain ⟨left, room⟩ : ∃ left, 8 - value.mantissa.frac.length = left + 1 :=
      ⟨7 - value.mantissa.frac.length, by omega⟩
    rw [List.take_append, chars, room]
    simp
  · rw [if_neg pointed]
    have leadClean : ∀ char ∈ value.front ++ value.exponentChars,
        char ≠ '.' ∧ isWhiteSpace char = false := by
      intro char member
      rcases List.mem_append.mp member with inFront | later
      · exact value.front_clean inFront
      · obtain ⟨point, -, white⟩ := value.exponentChars_clean later
        exact ⟨point, white⟩
    have unsigned : (value.front ++ value.exponentChars ++ '.' :: padRight 8 '0' []).head?
        ≠ some '-' := by
      rw [List.append_assoc]
      exact value.front_head positive _
    refine fromStr_padded_foreign leadClean unsigned (by simp) (by simp) 'e' ?_ (by decide)
    rw [chars]
    simp

-----------------------------------------------------------------------------------------
-- Which values come through
-----------------------------------------------------------------------------------------

/-- The digits in the amount say what the whole value says: there is no exponent, or it stands
behind the eighth decimal and is zero, or the digits are so many that they come out right by
wrapping.
-/
def DigitsSuffice : Prop :=
  value.exponent = none
  ∨ (8 ≤ value.mantissa.frac.length
    ∧ (value.power = 0
      ∨ (2 ^ 63 ≤ value.mantissa.truncated ∧ value.mantissa.wholeValue < 2 ^ 63
        ∧ wrapI64 value.mantissa.truncated = value.truncated)))

theorem mantissa_truncated_nonneg (positive : value.mantissa.negative = false)
    : 0 ≤ value.mantissa.truncated := by
  rw [Numeral.truncated_eq, positive, fp8Scale]
  simp only [Bool.false_eq_true, if_false]
  omega

/-- An amount without exponent is read as its digits, whatever they wrap to. -/
theorem fromStr_amount (positive : value.mantissa.negative = false) (uncut : value.Uncut)
    : fromStr (String.ofList value.amount)
      = if value.mantissa.wholeValue < 2 ^ 63 then .ok (ofRaw value.mantissa.truncated)
        else .error .invalid := by
  rw [value.amount_eq positive uncut, fromStr_numeral, value.amountNumeral_truncated positive]
  rfl

/-- Digits that come out right are read as the value. -/
theorem fromStr_amount_of_digitsSuffice (positive : value.mantissa.negative = false)
    (counts : 0 < value.truncated) (fits : value.truncated < 2 ^ 63)
    (suffice : value.DigitsSuffice)
    : ∃ amount, fromStr (String.ofList value.amount) = .ok amount
        ∧ amount.raw = value.truncated := by
  have readsAs : ∀ (uncut : value.Uncut) (small : value.mantissa.wholeValue < 2 ^ 63)
      (wraps : wrapI64 value.mantissa.truncated = value.truncated),
      ∃ amount, fromStr (String.ofList value.amount) = .ok amount
        ∧ amount.raw = value.truncated := by
    intro uncut small wraps
    exact ⟨_, (value.fromStr_amount positive uncut).trans (if_pos small), wraps⟩
  have unpowered : ∀ (uncut : value.Uncut) (noPower : value.power = 0),
      ∃ amount, fromStr (String.ofList value.amount) = .ok amount
        ∧ amount.raw = value.truncated := by
    intro uncut noPower
    have same := value.truncated_of_power_zero positive noPower
    have range : I64Range value.mantissa.truncated := ⟨by omega, by omega⟩
    exact readsAs uncut (value.mantissa.wholeValue_lt range) ((wrapI64_eq range).trans same.symm)
  rcases suffice with none | ⟨long, noPower | ⟨-, small, wraps⟩⟩
  · exact unpowered (.inl none) (by simp [power, none])
  · exact unpowered (.inr long) noPower
  · exact readsAs (.inr long) small wraps

/-- What is read as the value has digits that come out right. -/
theorem digitsSuffice_of_fromStr_amount (positive : value.mantissa.negative = false)
    (counts : 0 < value.truncated) {amount : FP8}
    (read : fromStr (String.ofList value.amount) = .ok amount)
    (same : amount.raw = value.truncated)
    : value.DigitsSuffice := by
  by_cases uncut : value.Uncut
  · rw [value.fromStr_amount positive uncut] at read
    split_ifs at read with small
    rw [← Except.ok.inj read, raw_wrap] at same
    rcases uncut with none | long
    · exact .inl none
    · refine .inr ⟨long, ?_⟩
      rcases lt_or_ge value.mantissa.truncated (2 ^ 63) with inRange | beyond
      · have above := value.mantissa_truncated_nonneg positive
        rw [wrapI64_eq ⟨by omega, inRange⟩] at same
        refine .inl ?_
        by_contra powered
        exact value.truncated_ne_of_power_ne_zero positive powered counts same.symm
      · exact .inr ⟨beyond, small, same⟩
  · rw [value.fromStr_amount_cut positive uncut] at read
    cases read

/-- The amount reads as the value exactly if the value fits and its digits suffice. -/
theorem fromStr_amount_iff (positive : value.mantissa.negative = false)
    (counts : 0 < value.truncated)
    : (∃ amount, fromStr (String.ofList value.amount) = .ok amount
        ∧ amount.raw = value.truncated)
      ↔ value.truncated < 2 ^ 63 ∧ value.DigitsSuffice := by
  constructor
  · rintro ⟨amount, read, same⟩
    exact ⟨same ▸ amount.inRange.2,
      value.digitsSuffice_of_fromStr_amount positive counts read same⟩
  · rintro ⟨fits, suffice⟩
    exact value.fromStr_amount_of_digitsSuffice positive counts fits suffice

theorem head_text : value.text.toList.head? = some '-' ↔ value.mantissa.negative = true := by
  rw [value.text_eq, String.toList_ofList]
  constructor
  · intro minus
    by_contra positive
    exact value.front_head (by simpa using positive) _ minus
  · intro negative
    simp [front, negative]

/-- Zeros are zero, however many of them. -/
theorem truncated_of_zeros (zeros : ∀ char ∈ value.text.toList, char = '0' ∨ char = '.')
    : value.truncated = 0 := by
  have isZero : ∀ char ∈ value.mantissa.whole ++ value.mantissa.frac, char = '0' := by
    intro char member
    have digit : char.isDigit = true := by
      rcases List.mem_append.mp member with whole | frac
      · exact value.mantissa.wholeDigits char whole
      · exact value.mantissa.fracDigits char frac
    refine (zeros char ?_).resolve_right (digit_clean digit).2.2.2.2
    rw [text, String.toList_ofList, Numeral.chars, Numeral.unsigned]
    by_cases pointed : value.mantissa.pointed = true
    · rcases List.mem_append.mp member with whole | frac
      · split <;> simp [whole]
      · split <;> simp [frac]
    · rw [value.mantissa.unpointed (by simpa using pointed), List.append_nil] at member
      split <;> simp [member]
  have noDigits : value.digits = 0 := by
    rw [digits, List.eq_replicate_of_mem isZero, Nat.ofDigitChars_replicate_zero, Nat.mul_zero]
  simp [truncated, number, noDigits, truncate]

/-- A value that is passed over is not positive. -/
theorem truncated_nonpos_of_passedOver (passed : PassedOver value.text)
    : value.truncated ≤ 0 := by
  rcases passed with minus | zero | zero
  · exact value.truncated_nonpos (value.head_text.mp minus)
  · refine (value.truncated_of_zeros ?_).le
    rw [zero, show "0".toList = ['0'] from rfl]
    simp
  · refine (value.truncated_of_zeros ?_).le
    rw [zero, show "0.00000000".toList = '0' :: '.' :: List.replicate 8 '0' from rfl]
    simp

end IssuedValue

-----------------------------------------------------------------------------------------
-- Other texts
-----------------------------------------------------------------------------------------

/-- What stands between the first point and the next one. -/
def decimals (text : String) : List Char := ((text.toList.splitOn '.')[1]?).getD []

/-- The eighth byte is the last one of a character, or there are no more than eight. -/
def CutsBetween (chars : List Char) : Prop :=
  (chars.map Char.utf8Size).sum ≤ 8
  ∨ ∃ front, front <+: chars ∧ (front.map Char.utf8Size).sum = 8

theorem cutFraction_isSome_iff (frac : List Char)
    : (cutFraction frac).isSome ↔ CutsBetween frac := by
  rw [cutFraction, CutsBetween]
  split
  · rename_i short
    exact ⟨fun _ => .inl short, fun _ => rfl⟩
  · rename_i long
    rw [takeBytes_isSome_iff]
    exact ⟨.inr, fun given => given.resolve_left long⟩

/-- Cutting the amount out of a text does not panic exactly if its decimals are cut between
characters.
-/
theorem fp8Amount_isSome_iff (text : String)
    : (fp8Amount text).isSome ↔ CutsBetween (decimals text) := by
  have split : decimals text
      = ((splitOnce '.' (((splitOnce '.' text.toList).getD (text.toList, [])).2)).map
          Prod.fst).getD ((splitOnce '.' text.toList).getD (text.toList, [])).2 := by
    rw [decimals, splitOn_eq]
    cases splitOnce '.' text.toList with
    | none => rfl
    | some parts =>
        simp only [Option.map_some, Option.getD_some, List.getElem?_cons_succ]
        rw [splitOn_eq]
        cases splitOnce '.' parts.2 <;> rfl
  rw [fp8Amount, Option.isSome_map, cutFraction_isSome_iff, split]

-----------------------------------------------------------------------------------------
-- The scan
-----------------------------------------------------------------------------------------

/-- A successful payment of an issued currency to the escrow. Its sender is not operator
capital.
-/
structure IssuedPayment (monitor : XrplMonitor) (entry : Json) (text : String) : Prop where
  succeeded : ((entry.index "meta").index "TransactionResult").asStr = some "tesSUCCESS"
  payment : ((entry.index "tx").index "TransactionType").asStr = some "Payment"
  toEscrow : ((entry.index "tx").index "Destination").asStr = some monitor.escrowAddress
  issued
    : ∃ members,
        paidAmount (entry.index "tx") (entry.index "meta") = .object members
        ∧ members.lookup "value" = some (.string text)
  user
    : ∃ sender,
        ((entry.index "tx").index "Account").asStr = some sender
        ∧ sender ∉ monitor.operatorCapital
  hashed : ∃ hash, ((entry.index "tx").index "hash").asStr = some hash

/-- The entry is scanned among others, in which nothing panics and which stand for the deposits
before and after.
-/
structure ScannedAmong (monitor : XrplMonitor) (pages : List Json) (entry : Json)
    (before after : List DepositEvent) : Prop where
  linked : Linked pages
  listed
    : ∃ front back frontFound backFound,
        pages.flatMap pageTxs = front ++ entry :: back
        ∧ front.mapM (depositOf monitor) = some frontFound
        ∧ back.mapM (depositOf monitor) = some backFound
        ∧ frontFound.reduceOption = before ∧ backFound.reduceOption = after

/-- A deposit is emitted for a positive value and no other, with an amount that reads as the
value truncated to eight decimals.
-/
def CreditedExactly (monitor : XrplMonitor) (pages : List Json) (lastLedger : Nat)
    (before after : List DepositEvent) (value : IssuedValue) : Prop :=
  ∃ (outcome : Option DepositEvent) (newLedger : Nat),
    scanPages monitor lastLedger pages = some (before ++ outcome.toList ++ after, newLedger)
    ∧ (outcome.isSome ↔ 0 < value.truncated)
    ∧ ∀ deposit, outcome = some deposit →
        ∃ amount, fromStr deposit.amount = .ok amount ∧ amount.raw = value.truncated

section Scan

variable {monitor : XrplMonitor} {entry : Json} {text : String}

/-- The deposit of an issued payment, apart from its amount. -/
theorem IssuedPayment.depositOf_eq (payment : IssuedPayment monitor entry text)
    : ∃ deposit : String → DepositEvent,
        (∀ amount, (deposit amount).amount = amount)
        ∧ ((PassedOver text ∧ depositOf monitor entry = (fp8Amount text).map (fun _ => none))
          ∨ (¬ PassedOver text
            ∧ depositOf monitor entry = (fp8Amount text).map (fun cut => some (deposit cut)))) := by
  obtain ⟨succeeded, isPayment, toEscrow, ⟨members, paid, named⟩, ⟨sender, hasSender, user⟩,
    hash, hashed⟩ := payment
  have value : amountValue monitor (.object members) = some text := by
    simp [amountValue, named, Json.asStr]
  refine ⟨fun amount =>
    { sender
      amount
      txHash := lowerHash hash
      destinationTag := ((entry.index "tx").index "DestinationTag").asU64.map UInt64.toUInt32
      ledgerIndex := (entryLedger entry).getD 0
      isXrp := false }, fun _ => rfl, ?_⟩
  by_cases passed : PassedOver text
  · refine .inl ⟨passed, ?_⟩
    simp only [depositOf, succeeded, isPayment, toEscrow, ne_eq, not_true_eq_false, if_false,
      paid, value]
    cases fp8Amount text with
    | none => rfl
    | some cut => exact if_pos passed
  · refine .inr ⟨passed, ?_⟩
    simp only [depositOf, succeeded, isPayment, toEscrow, ne_eq, not_true_eq_false, if_false,
      paid, value]
    cases fp8Amount text with
    | none => rfl
    | some cut =>
        have kept : ¬ (text.toList.head? = some '-' ∨ text = "0" ∨ text = "0.00000000") := passed
        simp [kept, hasSender, user, hashed, Json.isObject]

/-- What the entry stands for is put between the deposits before and after it. -/
theorem ScannedAmong.scanPages_eq {pages : List Json} {before after : List DepositEvent}
    (scanned : ScannedAmong monitor pages entry before after) (lastLedger : Nat)
    : ∃ newLedger,
        scanPages monitor lastLedger pages
        = (depositOf monitor entry).map (fun outcome =>
            (before ++ outcome.toList ++ after, newLedger)) := by
  obtain ⟨linked, front, back, frontFound, backFound, listed, readFront, readBack, rfl, rfl⟩ :=
    scanned
  refine ⟨capToComplete ((pages.flatMap pageTxs).foldl raise lastLedger) (pendingMarker pages)
    lastLedger, ?_⟩
  rw [DepositMonitor.scanPages_eq linked, listed, List.mapM_append, readFront, List.mapM_cons,
    readBack]
  cases depositOf monitor entry with
  | none => rfl
  | some outcome =>
      cases outcome with
      | none => simp [List.reduceOption_append, List.reduceOption_cons_of_none]
      | some deposit => simp [List.reduceOption_append, List.reduceOption_cons_of_some]

end Scan

/-- Where the digits suffice, or the value is passed over, it is credited for what it is. -/
theorem creditedExactly_iff {monitor : XrplMonitor} {entry : Json} {pages : List Json}
    {before after : List DepositEvent} {value : IssuedValue} {lastLedger : Nat}
    (payment : IssuedPayment monitor entry value.text)
    (scanned : ScannedAmong monitor pages entry before after)
    : CreditedExactly monitor pages lastLedger before after value
      ↔ PassedOver value.text
        ∨ (0 < value.truncated ∧ value.truncated < 2 ^ 63 ∧ value.DigitsSuffice) := by
  obtain ⟨deposit, amountOf, eq⟩ := payment.depositOf_eq
  obtain ⟨newLedger, scan⟩ := scanned.scanPages_eq lastLedger
  rw [value.fp8Amount_text, Option.map_some, Option.map_some] at eq
  rcases eq with ⟨passed, found⟩ | ⟨kept, found⟩
  · refine ⟨fun _ => .inl passed, fun _ => ⟨none, newLedger, ?_, ?_, ?_⟩⟩
    · rw [scan, found, Option.map_some]
    · have notPositive := value.truncated_nonpos_of_passedOver passed
      constructor
      · intro emitted
        cases emitted
      · intro positive
        omega
    · intro _ nothing
      cases nothing
  · rw [or_iff_right kept]
    have positive : value.mantissa.negative = false := by
      by_contra negative
      exact kept (.inl (value.head_text.mpr (by simpa using negative)))
    rw [found, Option.map_some] at scan
    constructor
    · intro credited
      obtain ⟨outcome, _, same, emitted, reads⟩ := credited
      rw [scan] at same
      have outcomeIs : outcome = some (deposit (String.ofList value.amount)) := by
        have lists := (Prod.mk.inj (Option.some.inj same)).1
        have middle := List.append_cancel_left (List.append_cancel_right lists)
        cases outcome with
        | none => cases middle
        | some other => exact congrArg some (List.cons.inj middle).1.symm
      have counts := emitted.mp (by rw [outcomeIs]; rfl)
      obtain ⟨amount, read, equals⟩ := reads _ outcomeIs
      rw [amountOf] at read
      exact ⟨counts, (value.fromStr_amount_iff positive counts).mp ⟨amount, read, equals⟩⟩
    · intro given
      obtain ⟨counts, fits⟩ := given
      refine ⟨_, newLedger, scan, iff_of_true rfl counts, ?_⟩
      intro emitted same
      rw [← Option.some.inj same, amountOf]
      exact (value.fromStr_amount_iff positive counts).mpr fits

/-- A scan credits an issued payment for what it is, and does not panic on a text that is no
value, exactly if the text is passed over, or writes a positive value that fits with digits
that suffice, or is no value and has decimals that are cut between characters.
-/
theorem issued_payment_credited_iff {monitor : XrplMonitor} {entry : Json} {pages : List Json}
    {before after : List DepositEvent} {text : String} (lastLedger : Nat)
    (payment : IssuedPayment monitor entry text)
    (scanned : ScannedAmong monitor pages entry before after)
    : ((∀ value : IssuedValue, value.text = text →
          CreditedExactly monitor pages lastLedger before after value)
        ∧ ((¬ ∃ value : IssuedValue, value.text = text) →
            (scanPages monitor lastLedger pages).isSome))
      ↔ (∀ value : IssuedValue, value.text = text →
          PassedOver text
          ∨ (0 < value.truncated ∧ value.truncated < 2 ^ 63 ∧ value.DigitsSuffice))
        ∧ ((¬ ∃ value : IssuedValue, value.text = text) → CutsBetween (decimals text)) := by
  refine and_congr (forall_congr' fun value => forall_congr' fun same => ?_)
    (forall_congr' fun _ => ?_)
  · subst same
    exact creditedExactly_iff payment scanned
  · obtain ⟨deposit, -, eq⟩ := payment.depositOf_eq
    obtain ⟨newLedger, scan⟩ := scanned.scanPages_eq lastLedger
    rw [scan, Option.isSome_map, ← fp8Amount_isSome_iff]
    rcases eq with ⟨-, found⟩ | ⟨-, found⟩ <;> rw [found, Option.isSome_map]

/-- A payment of an issued currency to the escrow. -/
def issuedEntry (text : String) : Json :=
  .object
    [("tx", .object
        [("TransactionType", .string "Payment"), ("Account", .string "rDepositor"),
          ("Destination", .string "rEscrow"),
          ("Amount", .object [("currency", .string "USD"), ("value", .string text)]),
          ("hash", .string "AB"), ("ledger_index", .number (.posInt 101))]),
      ("meta", .object [("TransactionResult", .string "tesSUCCESS")])]

/-- The payment is the only entry of the only page. -/
def issuedPages (text : String) : List Json :=
  [.object [("transactions", .array [issuedEntry text])]]

theorem issuedEntry_payment (text : String)
    : IssuedPayment sampleMonitor (issuedEntry text) text :=
  ⟨rfl, rfl, rfl, ⟨_, rfl, rfl⟩, ⟨_, rfl, List.not_mem_nil⟩, ⟨_, rfl⟩⟩

theorem issuedPages_scanned (text : String)
    : ScannedAmong sampleMonitor (issuedPages text) (issuedEntry text) [] [] :=
  ⟨fun _ member => absurd member List.not_mem_nil, [], [], [], [], rfl, rfl, rfl, rfl, rfl⟩

/-- One and a half. -/
def oneAndAHalf : Numeral where
  negative := false
  whole := ['1']
  pointed := true
  frac := ['5']
  wholeDigits := by simp
  fracDigits := by simp
  nonempty := by decide
  unpointed := by decide

/-- One and a half, as a node writes it. -/
def oneAndAHalfIssued : IssuedValue where
  mantissa := oneAndAHalf
  exponent := none
  whole := by decide
  frac := fun _ => by decide

/-- One and a half is credited as that. -/
theorem issued_payment_credited_oneAndAHalf
    : oneAndAHalfIssued.text = "1.5"
      ∧ CreditedExactly sampleMonitor (issuedPages "1.5") 100 [] [] oneAndAHalfIssued := by
  refine ⟨rfl, ((issued_payment_credited_iff 100 (issuedEntry_payment "1.5")
    (issuedPages_scanned "1.5")).mpr ⟨?_, fun _ => ?_⟩).1 oneAndAHalfIssued rfl⟩
  · intro value same
    have chars : value.mantissa.chars ++ value.exponentChars = ['1', '.', '5'] := by
      have lists := congrArg String.toList same
      rwa [IssuedValue.text, String.toList_ofList] at lists
    have noExponent : value.exponent = none := by
      by_contra present
      obtain ⟨exponent, written⟩ := Option.ne_none_iff_exists'.mp present
      have member : 'e' ∈ value.mantissa.chars ++ value.exponentChars := by
        simp [IssuedValue.exponentChars, written, Exponent.chars]
      rw [chars] at member
      exact absurd member (by decide)
    rw [IssuedValue.exponentChars, noExponent, Option.map_none, Option.getD_none,
      List.append_nil] at chars
    have isMantissa : value.mantissa.chars = oneAndAHalf.chars := chars
    have positive : value.mantissa.negative = false := by
      have head := value.mantissa.head_chars
      rw [chars] at head
      simpa using head
    have amount : value.truncated = 150_000_000 := by
      rw [value.truncated_of_power_zero positive (by simp [IssuedValue.power, noExponent]),
        Numeral.truncated_unique isMantissa]
      decide
    rw [amount]
    exact .inr ⟨by decide, by decide, .inl noExponent⟩
  · exact .inl (by decide)

/-- A tenth of the smallest unit, as a node writes it. -/
def tenthOfUnit : IssuedValue where
  mantissa :=
    { negative := false
      whole := ['0']
      pointed := true
      frac := "000000001".toList
      wholeDigits := by simp
      fracDigits := by simp
      nonempty := by decide
      unpointed := by decide }
  exponent := none
  whole := by decide
  frac := by decide

/-- A value below the smallest unit is emitted as a deposit of nothing, and a text whose
eighth decimal byte is inside a character stops the scan.
-/
theorem issued_payment_not_credited_exactly
    : (tenthOfUnit.text = "0.000000001" ∧ tenthOfUnit.truncated = 0
        ∧ ((scanPages sampleMonitor 100 (issuedPages "0.000000001")).map Prod.fst).map
            (List.map DepositEvent.amount) = some ["0.00000000"]
        ∧ ¬ CreditedExactly sampleMonitor (issuedPages "0.000000001") 100 [] [] tenthOfUnit)
      ∧ scanPages sampleMonitor 100 (issuedPages "1.0000000é") = none := by
  have nothing : tenthOfUnit.truncated = 0 := by
    rw [tenthOfUnit.truncated_of_power_zero rfl rfl]
    decide +kernel
  refine ⟨⟨by decide +kernel, nothing, by decide +kernel, ?_⟩, by decide +kernel⟩
  rw [creditedExactly_iff (issuedEntry_payment "0.000000001")
    (issuedPages_scanned "0.000000001"), nothing]
  intro given
  rcases given with passed | ⟨positive, -⟩
  · exact absurd passed (by unfold PassedOver; decide +kernel)
  · exact absurd positive (lt_irrefl 0)

end DepositMonitor

end PerpDex
