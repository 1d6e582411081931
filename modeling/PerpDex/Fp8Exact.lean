import PerpDex.Fp8Text

/-! Which texts are read as FP8 values.
The reader is exact on decimal numerals whose value fits. It also lets through texts that are
no numerals, such as the empty one, a sign in front of the fraction or anything after the
eighth decimal, and numerals that are too large for an `i64` but whose whole part is not.
-/

namespace PerpDex

namespace FP8

open Text

-----------------------------------------------------------------------------------------
-- Numerals
-----------------------------------------------------------------------------------------

/-- A decimal numeral: an optional minus sign, digits, and an optional fraction of digits,
with at least one digit in all.
-/
structure Numeral where
  negative : Bool
  whole : List Char
  pointed : Bool
  frac : List Char
  wholeDigits : ∀ char ∈ whole, char.isDigit = true
  fracDigits : ∀ char ∈ frac, char.isDigit = true
  nonempty : whole ++ frac ≠ []
  unpointed : pointed = false → frac = []

namespace Numeral

/-- The numeral without its sign. -/
def unsigned (numeral : Numeral) : List Char :=
  numeral.whole ++ if numeral.pointed then '.' :: numeral.frac else []

def chars (numeral : Numeral) : List Char :=
  if numeral.negative then '-' :: numeral.unsigned else numeral.unsigned

/-- The value in units of ten to the minus eighth, truncated toward zero. -/
def truncated (numeral : Numeral) : Int :=
  let digits : Int := Nat.ofDigitChars 10 (numeral.whole ++ numeral.frac) 0
  ((if numeral.negative then -digits else digits) * 10 ^ 8).tdiv (10 ^ numeral.frac.length)

end Numeral

/-- The text is a numeral of this value. -/
def Denotes (chars : List Char) (value : FP8) : Prop :=
  ∃ numeral : Numeral, numeral.chars = chars ∧ numeral.truncated = value.raw

/-- Reading the text gives the value of the numeral it is, and an error if it is none or its
value does not fit; it does not panic.
-/
structure ReadsExactly (read : String → Except FromStrError FP8) (text : String) : Prop where
  value : ∀ value, read text = .ok value ↔ Denotes (trim text.toList) value
  noPanic : read text ≠ .error .panicked

-----------------------------------------------------------------------------------------
-- The parts of a text
-----------------------------------------------------------------------------------------

/-- What stands before and after the first point, without leading minus signs. -/
def textParts (chars : List Char) : List Char × List Char :=
  (splitOnce '.' (chars.dropWhile (· = '-'))).getD (chars.dropWhile (· = '-'), [])

def readWhole (whole : List Char) : Except FromStrError Int :=
  if whole = [] then .ok 0 else parseI64 whole

/-- The first eight bytes of the padded fraction. -/
def readFrac (frac : List Char) : Except FromStrError Int :=
  match takeBytes 8 (padRight 8 '0' frac) with
  | none => .error .panicked
  | some digits => parseI64 digits

/-- The sign, the whole part and the fraction of a text. -/
def readParts (chars : List Char) : Except FromStrError (Bool × Int × Int) := do
  let whole ← readWhole (textParts (trim chars)).1
  let frac ← readFrac (textParts (trim chars)).2
  .ok (decide ((trim chars).head? = some '-'), whole, frac)

/-- Reading the parts does not end with an error: the whole part is empty or reads as an
`i64`, and the first eight bytes of the padded fraction read as one or end inside a character.
-/
def LetThrough (chars : List Char) : Prop :=
  ((textParts chars).1 = [] ∨ ∃ whole, parseI64 (textParts chars).1 = .ok whole)
  ∧ ∀ digits, takeBytes 8 (padRight 8 '0' (textParts chars).2) = some digits
    → ∃ frac, parseI64 digits = .ok frac

/-- Put the parts together as the release build does, where arithmetic wraps. -/
def joinWrapping (negative : Bool) (whole frac : Int) : Except FromStrError FP8 :=
  let value := wrapI64 (wrapI64 (whole * fp8Scale) + frac)
  .ok (ofRaw (if negative then -value else value))

/-- An intermediate result where overflow panics. -/
def checkI64 (value : Int) : Except FromStrError Int :=
  if I64Range value then .ok value else .error .panicked

/-- Put the parts together where overflow panics. -/
def joinChecked (negative : Bool) (whole frac : Int) : Except FromStrError FP8 := do
  let scaled ← checkI64 (whole * fp8Scale)
  let value ← checkI64 (scaled + frac)
  let signed ← if negative then checkI64 (-value) else .ok value
  .ok (ofRaw signed)

def fromStrWith (join : Bool → Int → Int → Except FromStrError FP8) (text : String)
    : Except FromStrError FP8 := do
  let (negative, whole, frac) ← readParts text.toList
  join negative whole frac

/-- `FromStr` with overflow checks. -/
def fromStrChecked (text : String) : Except FromStrError FP8 := fromStrWith joinChecked text

/-- The reader in terms of the parts. -/
theorem fromStr_eq (text : String) : fromStr text = fromStrWith joinWrapping text := by
  simp only [fromStr, fromChars, fromStrWith, readParts, joinWrapping]
  split
  case isTrue empty =>
    have whole : readWhole (textParts (trim text.toList)).1 = .ok 0 := if_pos empty
    rw [whole]
    dsimp only [bind, Except.bind, readFrac, textParts]
    cases takeBytes 8 (padRight 8 '0' ((splitOnce '.' ((trim text.toList).dropWhile
      (· = '-'))).getD ((trim text.toList).dropWhile (· = '-'), [])).2) with
    | none => rfl
    | some digits =>
        dsimp only
        cases parseI64 digits with
        | error reason => rfl
        | ok frac => simp
  case isFalse present =>
    have whole : readWhole (textParts (trim text.toList)).1
        = parseI64 (textParts (trim text.toList)).1 := if_neg present
    rw [whole]
    dsimp only [bind, Except.bind, readFrac, textParts]
    cases parseI64 ((splitOnce '.' ((trim text.toList).dropWhile (· = '-'))).getD
      ((trim text.toList).dropWhile (· = '-'), [])).1 with
    | error reason => rfl
    | ok whole =>
        dsimp only
        cases takeBytes 8 (padRight 8 '0' ((splitOnce '.' ((trim text.toList).dropWhile
          (· = '-'))).getD ((trim text.toList).dropWhile (· = '-'), [])).2) with
        | none => rfl
        | some digits =>
            dsimp only
            cases parseI64 digits with
            | error reason => rfl
            | ok frac => simp

theorem parseI64_ne_panicked (chars : List Char) : parseI64 chars ≠ .error .panicked := by
  unfold parseI64
  split
  · split_ifs <;> simp
  · simp

/-- Where reading the parts ends with an error. -/
theorem readParts_invalid_iff (chars : List Char)
    : readParts chars = .error .invalid ↔ ¬ LetThrough (trim chars) := by
  have wholeRead : ∀ whole, readWhole whole = .error .invalid
      ∨ ∃ value, readWhole whole = .ok value
        ∧ (whole = [] ∨ ∃ value, parseI64 whole = .ok value) := by
    intro whole
    unfold readWhole
    split_ifs with empty
    · exact .inr ⟨0, rfl, .inl empty⟩
    · cases read : parseI64 whole with
      | ok value => exact .inr ⟨value, rfl, .inr ⟨value, rfl⟩⟩
      | error reason =>
          cases reason with
          | invalid => exact .inl rfl
          | panicked => exact absurd read (parseI64_ne_panicked whole)
  unfold readParts LetThrough
  generalize textParts (trim chars) = parts
  obtain ⟨whole, frac⟩ := parts
  rcases wholeRead whole with unread | ⟨value, read, readable⟩
  · have unreadable : ¬ (whole = [] ∨ ∃ value, parseI64 whole = .ok value) := by
      rintro (rfl | ⟨value, read⟩)
      · cases unread
      · unfold readWhole at unread
        split_ifs at unread
        rw [read] at unread
        cases unread
    simp [unread, unreadable, bind, Except.bind]
  · simp only [read, readable, true_and, bind, Except.bind, readFrac]
    cases takeBytes 8 (padRight 8 '0' frac) with
    | none => simp
    | some digits =>
        cases readDigits : parseI64 digits with
        | ok frac => simp [readDigits]
        | error reason =>
            cases reason with
            | invalid => simp [readDigits]
            | panicked => exact absurd readDigits (parseI64_ne_panicked digits)

-----------------------------------------------------------------------------------------
-- Reading a numeral
-----------------------------------------------------------------------------------------

namespace Numeral

variable (numeral : Numeral)

/-- The digits before the point, as a number. -/
def wholeValue : Nat := Nat.ofDigitChars 10 numeral.whole 0

/-- The first eight digits after the point, as a number. -/
def fracValue : Nat := Nat.ofDigitChars 10 ((padRight 8 '0' numeral.frac).take 8) 0

theorem padded_digits
    : ∀ char ∈ padRight 8 '0' numeral.frac, char.isDigit = true := by
  intro char member
  rcases List.mem_append.mp member with digit | zero
  · exact numeral.fracDigits char digit
  · rw [(List.mem_replicate.mp zero).2]
    decide

theorem fracValue_lt : numeral.fracValue < 10 ^ 8 := by
  refine lt_of_lt_of_le (ofDigitChars_lt (fun char member =>
    numeral.padded_digits char (List.mem_of_mem_take member))) ?_
  exact Nat.pow_le_pow_right (by decide) (List.length_take_le 8 _)

/-- The truncated value in terms of the two numbers. -/
theorem truncated_eq
    : numeral.truncated
      = if numeral.negative then -((numeral.wholeValue : Int) * fp8Scale + numeral.fracValue)
        else (numeral.wholeValue : Int) * fp8Scale + numeral.fracValue := by
  have cut := @ofDigitChars_cut numeral.whole numeral.frac numeral.fracDigits 8
  have positive : (Nat.ofDigitChars 10 (numeral.whole ++ numeral.frac) 0 : Int) * 10 ^ 8
      = ((Nat.ofDigitChars 10 (numeral.whole ++ numeral.frac) 0 * 10 ^ 8 : Nat) : Int) := by
    push_cast
    rfl
  have divided : ((Nat.ofDigitChars 10 (numeral.whole ++ numeral.frac) 0 : Int) * 10 ^ 8).tdiv
        (10 ^ numeral.frac.length)
      = (numeral.wholeValue : Int) * fp8Scale + numeral.fracValue := by
    have scale : ((10 : Int) ^ numeral.frac.length) = ((10 ^ numeral.frac.length : Nat) : Int) := by
      push_cast
      rfl
    rw [positive, scale, ← Int.ofNat_tdiv, cut]
    push_cast
    rfl
  simp only [truncated]
  split_ifs
  · rw [Int.neg_mul, Int.neg_tdiv, divided]
  · exact divided

/-- A numeral whose value fits has a whole part that fits. -/
theorem wholeValue_lt (range : I64Range numeral.truncated) : numeral.wholeValue < 2 ^ 63 := by
  have small := numeral.fracValue_lt
  rw [numeral.truncated_eq, fp8Scale] at range
  obtain ⟨lower, upper⟩ := range
  split_ifs at lower upper <;> omega

/-- What stands behind the sign does not begin with one. -/
theorem unsigned_head : numeral.unsigned.head? ≠ some '-' := by
  unfold unsigned
  cases digits : numeral.whole with
  | cons digit rest =>
      have isDigit := numeral.wholeDigits digit (digits ▸ List.mem_cons_self)
      have clean := (digit_clean isDigit).2.2.2.1
      simpa using clean
  | nil => split_ifs <;> simp

theorem chars_clean
    : ∀ char ∈ numeral.chars, isWhiteSpace char = false := by
  have unsigned : ∀ char ∈ numeral.unsigned, isWhiteSpace char = false := by
    intro char member
    rcases List.mem_append.mp member with digit | later
    · exact (digit_clean (numeral.wholeDigits char digit)).1
    · split at later
      · rcases List.mem_cons.mp later with rfl | digit
        · decide
        · exact (digit_clean (numeral.fracDigits char digit)).1
      · cases later
  intro char member
  rw [chars] at member
  split at member
  · rcases List.mem_cons.mp member with rfl | later
    · decide
    · exact unsigned char later
  · exact unsigned char member

theorem dropWhile_chars : numeral.chars.dropWhile (· = '-') = numeral.unsigned := by
  have stripped : numeral.unsigned.dropWhile (· = '-') = numeral.unsigned := by
    refine dropWhile_eq_self (fun char first => ?_)
    have apart : char ≠ '-' := by
      rintro rfl
      exact numeral.unsigned_head first
    simpa using apart
  unfold chars
  split_ifs
  · rw [List.dropWhile_cons_of_pos (by decide)]
    exact stripped
  · exact stripped

theorem head_chars : numeral.chars.head? = some '-' ↔ numeral.negative = true := by
  unfold chars
  split_ifs with negative
  · simp [negative]
  · simpa [negative] using numeral.unsigned_head

theorem textParts_chars : textParts numeral.chars = (numeral.whole, numeral.frac) := by
  have noPoint : '.' ∉ numeral.whole := fun member =>
    absurd (numeral.wholeDigits '.' member) (by decide)
  unfold textParts
  rw [dropWhile_chars, unsigned]
  by_cases pointed : numeral.pointed = true
  · rw [if_pos pointed, splitOnce_append noPoint]
    rfl
  · rw [if_neg pointed, List.append_nil, splitOnce_eq_none noPoint]
    rw [numeral.unpointed (by simpa using pointed)]
    rfl

theorem readFrac_eq : readFrac numeral.frac = .ok numeral.fracValue := by
  have ascii : ∀ char ∈ padRight 8 '0' numeral.frac, char.utf8Size = 1 :=
    fun char member => (digit_clean (numeral.padded_digits char member)).2.1
  have enough : 8 ≤ (padRight 8 '0' numeral.frac).length := by
    simp only [padRight, List.length_append, List.length_replicate]
    omega
  have nonempty : (padRight 8 '0' numeral.frac).take 8 ≠ [] := by
    intro nothing
    have length := congrArg List.length nothing
    rw [List.length_take, Nat.min_eq_left enough] at length
    cases length
  have read := parseInt_digits nonempty (fun char member =>
    numeral.padded_digits char (List.mem_of_mem_take member))
  have small := numeral.fracValue_lt
  unfold readFrac
  rw [takeBytes_take ascii enough]
  exact parseI64_of_parseInt (by omega) read

theorem readWhole_eq
    : readWhole numeral.whole
      = if numeral.wholeValue < 2 ^ 63 then .ok (numeral.wholeValue : Int)
        else .error .invalid := by
  unfold readWhole
  split_ifs with empty small small
  · simp [wholeValue, empty]
  · simp [wholeValue, empty] at small
  · exact parseI64_of_parseInt small (parseInt_digits empty numeral.wholeDigits)
  · have read := parseInt_digits empty numeral.wholeDigits
    have large : ¬ I64Range (Nat.ofDigitChars 10 numeral.whole 0 : Int) := by
      rintro ⟨-, upper⟩
      exact small (by unfold wholeValue; omega)
    unfold parseI64
    rw [read]
    simp [large]

/-- The parts of a numeral are read, unless its whole part is too large. -/
theorem readParts_eq {chars : List Char} (isNumeral : numeral.chars = trim chars)
    : readParts chars
      = if numeral.wholeValue < 2 ^ 63 then
          .ok (numeral.negative, (numeral.wholeValue : Int), (numeral.fracValue : Int))
        else .error .invalid := by
  unfold readParts
  rw [← isNumeral, textParts_chars, readWhole_eq, readFrac_eq]
  split_ifs
  · have sign : decide (numeral.chars.head? = some '-') = numeral.negative := by
      rw [Bool.eq_iff_iff, decide_eq_true_eq]
      exact numeral.head_chars
    simp [bind, Except.bind, sign]
  · rfl

end Numeral

/-- A text is a numeral in at most one way. -/
theorem Numeral.truncated_unique {left right : Numeral} (same : left.chars = right.chars)
    : left.truncated = right.truncated := by
  have parts := left.textParts_chars
  rw [same, right.textParts_chars] at parts
  have sign : left.negative = right.negative := by
    rw [Bool.eq_iff_iff, ← left.head_chars, ← right.head_chars, same]
  simp only [truncated, sign, (Prod.mk.inj parts).1, (Prod.mk.inj parts).2]

-----------------------------------------------------------------------------------------
-- Exact reading
-----------------------------------------------------------------------------------------

/-- The wrapped parts of a numeral are its wrapped value. -/
theorem joinWrapping_numeral (numeral : Numeral)
    : joinWrapping numeral.negative numeral.wholeValue numeral.fracValue
      = .ok (ofRaw numeral.truncated) := by
  rw [numeral.truncated_eq]
  simp only [joinWrapping, wrapI64_add]
  refine congrArg Except.ok (FP8.ext ?_)
  rw [raw_wrap, raw_wrap]
  split_ifs
  · exact wrapI64_neg _
  · exact wrapI64_eq (wrapI64_range _)

theorem fromStrWith_numeral (join : Bool → Int → Int → Except FromStrError FP8)
    {numeral : Numeral} {text : String} (isNumeral : numeral.chars = trim text.toList)
    (small : numeral.wholeValue < 2 ^ 63)
    : fromStrWith join text = join numeral.negative numeral.wholeValue numeral.fracValue := by
  rw [fromStrWith, numeral.readParts_eq isNumeral, if_pos small]
  rfl

/-- A numeral without white space around it, with its wrapped value. -/
theorem fromStr_numeral (numeral : Numeral)
    : fromStr (String.ofList numeral.chars)
      = if numeral.wholeValue < 2 ^ 63 then .ok (ofRaw numeral.truncated)
        else .error .invalid := by
  have isNumeral : numeral.chars = trim (String.ofList numeral.chars).toList := by
    rw [String.toList_ofList, trim_eq_self numeral.chars_clean]
  rw [fromStr_eq, fromStrWith, numeral.readParts_eq isNumeral]
  split_ifs
  · exact joinWrapping_numeral numeral
  · rfl

theorem Denotes.wholeValue_lt {chars : List Char} {value : FP8} (denotes : Denotes chars value)
    : ∃ numeral : Numeral,
        numeral.chars = chars ∧ numeral.truncated = value.raw ∧ numeral.wholeValue < 2 ^ 63 := by
  obtain ⟨numeral, isNumeral, same⟩ := denotes
  refine ⟨numeral, isNumeral, same, numeral.wholeValue_lt ?_⟩
  rw [same]
  exact value.inRange

/-- The value of a text, if it has one, is the one of any numeral it is. -/
theorem Denotes.eq {numeral : Numeral} {value other : FP8}
    (same : value.raw = numeral.truncated) (denotes : Denotes numeral.chars other)
    : other = value := by
  obtain ⟨another, isAnother, its⟩ := denotes
  have sameValue := Numeral.truncated_unique isAnother
  rw [its, ← same] at sameValue
  exact FP8.ext sameValue

/-- A text gives an error exactly if it is stopped with its parts. -/
theorem fromStrWith_eq_invalid_iff {join : Bool → Int → Int → Except FromStrError FP8}
    (noError : ∀ negative whole frac, join negative whole frac ≠ .error .invalid)
    {text : String}
    : fromStrWith join text = .error .invalid ↔ ¬ LetThrough (trim text.toList) := by
  rw [← readParts_invalid_iff, fromStrWith]
  cases readParts text.toList with
  | error reason =>
      constructor
      · intro stopped
        cases stopped
        rfl
      · intro stopped
        cases stopped
        rfl
  | ok parts =>
      exact ⟨fun invalid => absurd invalid (noError _ _ _), fun stopped => (by cases stopped)⟩

/-- Digits and signs are all an integer is written with. -/
theorem parseI64_chars {chars : List Char} {value : Int} (read : parseI64 chars = .ok value)
    {char : Char} (member : char ∈ chars)
    : char.isDigit = true ∨ char = '+' ∨ char = '-' := by
  have digits : ∀ {run : List Char} {number : Nat}, parseNat run = some number →
      ∀ other ∈ run, other.isDigit = true := by
    intro run number parsed
    rw [parseNat] at parsed
    split_ifs at parsed with isRun
    exact List.all_eq_true.mp isRun.2
  rw [parseI64] at read
  cases parsed : parseInt chars with
  | none => simp [parsed] at read
  | some number =>
      unfold parseInt at parsed
      split at parsed
      all_goals
        obtain ⟨magnitude, lifted, -⟩ := Option.map_eq_some_iff.mp parsed
        obtain ⟨_, isRun, -⟩ := Option.bind_eq_some_iff.mp lifted
      · rcases List.mem_cons.mp member with rfl | later
        · exact .inr (.inl rfl)
        · exact .inl (digits isRun char later)
      · rcases List.mem_cons.mp member with rfl | later
        · exact .inr (.inr rfl)
        · exact .inl (digits isRun char later)
      · exact .inl (digits isRun char member)

/-- A foreign character in one of the parts, of which the second has eight bytes. -/
theorem fromStr_foreign {front back : List Char}
    (clean : ∀ char ∈ front ++ '.' :: back, isWhiteSpace char = false)
    (unsigned : (front ++ '.' :: back).head? ≠ some '-') (noPoint : '.' ∉ front)
    (ascii : ∀ char ∈ back, char.utf8Size = 1) (eight : back.length = 8) (char : Char)
    (member : char ∈ front ++ back)
    (foreign : ¬ (char.isDigit = true ∨ char = '+' ∨ char = '-'))
    : fromStr (String.ofList (front ++ '.' :: back)) = .error .invalid := by
  have parts : textParts (front ++ '.' :: back) = (front, back) := by
    have stripped : (front ++ '.' :: back).dropWhile (· = '-') = front ++ '.' :: back := by
      refine dropWhile_eq_self (fun first isFirst => ?_)
      have apart : first ≠ '-' := by
        rintro rfl
        exact unsigned isFirst
      simpa using apart
    rw [textParts, stripped, splitOnce_append noPoint, Option.getD_some]
  have sliced : takeBytes 8 (padRight 8 '0' back) = some back := by
    rw [padRight_eq_self '0' eight.ge, ← eight, takeBytes_ascii ascii]
  rw [fromStr_eq, fromStrWith_eq_invalid_iff (fun _ _ _ => by simp [joinWrapping]),
    String.toList_ofList, trim_eq_self clean, LetThrough, parts]
  intro given
  obtain ⟨wholeRead, fracRead⟩ := given
  obtain ⟨frac, readFrac⟩ := fracRead back sliced
  rcases List.mem_append.mp member with inFront | inBack
  · rcases wholeRead with empty | ⟨whole, readWhole⟩
    · simp only at empty
      rw [empty] at inFront
      cases inFront
    · exact foreign (parseI64_chars readWhole inFront)
  · exact foreign (parseI64_chars readFrac inBack)

/-- A way to put the parts together reads a text exactly if the text is stopped with its
parts, or is a numeral of a value that comes out right.
-/
theorem readsExactly_iff {join : Bool → Int → Int → Except FromStrError FP8} {right : Int → Prop}
    (noError : ∀ negative whole frac, join negative whole frac ≠ .error .invalid)
    (inRange : ∀ value, right value → I64Range value)
    (joined
      : ∀ numeral : Numeral,
          (∃ value, join numeral.negative numeral.wholeValue numeral.fracValue = .ok value
            ∧ value.raw = numeral.truncated)
          ↔ right numeral.truncated)
    (text : String)
    : ReadsExactly (fromStrWith join) text
      ↔ (LetThrough (trim text.toList)
          → ∃ numeral : Numeral, numeral.chars = trim text.toList ∧ right numeral.truncated) := by
  by_cases through : LetThrough (trim text.toList)
  · rw [forall_prop_of_true through]
    constructor
    · intro exactly
      cases read : fromStrWith join text with
      | ok value =>
          obtain ⟨numeral, isNumeral, same, small⟩ := ((exactly.value value).mp read).wholeValue_lt
          rw [fromStrWith_numeral join isNumeral small] at read
          exact ⟨numeral, isNumeral, (joined numeral).mp ⟨value, read, same.symm⟩⟩
      | error reason =>
          cases reason with
          | panicked => exact absurd read exactly.noPanic
          | invalid => exact absurd through ((fromStrWith_eq_invalid_iff noError).mp read)
    · rintro ⟨numeral, isNumeral, isRight⟩
      obtain ⟨value, read, same⟩ := (joined numeral).mpr isRight
      have small := numeral.wholeValue_lt (inRange _ isRight)
      have result := (fromStrWith_numeral join isNumeral small).trans read
      refine ⟨fun other => ?_, by simp [result]⟩
      rw [result, ← isNumeral]
      constructor
      · intro isValue
        cases isValue
        exact ⟨numeral, rfl, same.symm⟩
      · intro denotes
        rw [denotes.eq same]
  · have result := (fromStrWith_eq_invalid_iff noError).mpr through
    refine ⟨fun _ given => absurd given through, fun _ => ⟨fun value => ?_, by simp [result]⟩⟩
    rw [result]
    refine ⟨fun impossible => (by cases impossible), fun denotes => ?_⟩
    obtain ⟨numeral, isNumeral, -, small⟩ := denotes.wholeValue_lt
    have stopped := (readParts_invalid_iff text.toList).mpr through
    rw [numeral.readParts_eq isNumeral, if_pos small] at stopped
    cases stopped

theorem joinWrapping_right (numeral : Numeral)
    : (∃ value, joinWrapping numeral.negative numeral.wholeValue numeral.fracValue = .ok value
        ∧ value.raw = numeral.truncated)
      ↔ I64Range numeral.truncated := by
  rw [joinWrapping_numeral]
  constructor
  · rintro ⟨value, read, same⟩
    rw [← same]
    exact value.inRange
  · intro range
    exact ⟨_, rfl, raw_ofRaw range⟩

theorem checkI64_ok {value : Int} (fits : I64Range value) : checkI64 value = .ok value := by
  rw [checkI64, if_pos fits]

theorem checkI64_panics {value : Int} (overflows : ¬ I64Range value)
    : checkI64 value = .error .panicked := by
  rw [checkI64, if_neg overflows]

/-- Overflow checks pass exactly if the magnitude fits. -/
theorem joinChecked_eq (negative : Bool) {whole frac scaled : Int}
    (isScaled : whole * fp8Scale = scaled) (scaledPos : 0 ≤ scaled) (fracPos : 0 ≤ frac)
    : joinChecked negative whole frac
      = if scaled + frac < 2 ^ 63 then
          .ok (ofRaw (if negative then -(scaled + frac) else scaled + frac))
        else .error .panicked := by
  unfold joinChecked
  rw [isScaled]
  by_cases fits : scaled + frac < 2 ^ 63
  · have scales : I64Range scaled := ⟨by omega, by omega⟩
    have sums : I64Range (scaled + frac) := ⟨by omega, by omega⟩
    have negates : I64Range (-(scaled + frac)) := ⟨by omega, by omega⟩
    rw [if_pos fits]
    simp only [checkI64_ok scales, checkI64_ok sums, checkI64_ok negates, bind, Except.bind]
    cases negative with
    | true => rfl
    | false => rfl
  · rw [if_neg fits]
    by_cases scales : I64Range scaled
    · simp only [checkI64_ok scales, checkI64_panics (fun range => fits range.2), bind,
        Except.bind]
    · simp only [checkI64_panics scales, bind, Except.bind]

/-- With overflow checks the smallest value is out of reach: its magnitude does not fit. -/
theorem joinChecked_right (numeral : Numeral)
    : (∃ value, joinChecked numeral.negative numeral.wholeValue numeral.fracValue = .ok value
        ∧ value.raw = numeral.truncated)
      ↔ I64Range numeral.truncated ∧ numeral.truncated ≠ -2 ^ 63 := by
  have scaledPos : 0 ≤ (numeral.wholeValue : Int) * fp8Scale :=
    Int.mul_nonneg (Int.natCast_nonneg _) (by decide)
  have fracPos : 0 ≤ (numeral.fracValue : Int) := Int.natCast_nonneg _
  rw [joinChecked_eq numeral.negative rfl scaledPos fracPos, numeral.truncated_eq]
  generalize (numeral.wholeValue : Int) * fp8Scale = scaled at scaledPos
  generalize (numeral.fracValue : Int) = frac at fracPos
  have fitsIff : scaled + frac < 2 ^ 63
      ↔ I64Range (if numeral.negative then -(scaled + frac) else scaled + frac)
        ∧ (if numeral.negative then -(scaled + frac) else scaled + frac) ≠ -2 ^ 63 := by
    unfold I64Range
    split_ifs <;> omega
  by_cases fits : scaled + frac < 2 ^ 63
  · rw [if_pos fits]
    refine ⟨fun _ => fitsIff.mp fits, fun _ => ⟨_, rfl, ?_⟩⟩
    exact raw_ofRaw (fitsIff.mp fits).1
  · rw [if_neg fits]
    refine ⟨?_, fun isRight => absurd (fitsIff.mpr isRight) fits⟩
    rintro ⟨value, read, -⟩
    cases read

theorem checkI64_ne_invalid (value : Int) : checkI64 value ≠ .error .invalid := by
  unfold checkI64
  split_ifs <;> simp

theorem joinChecked_ne_invalid (negative : Bool) (whole frac : Int)
    : joinChecked negative whole frac ≠ .error .invalid := by
  intro invalid
  simp only [joinChecked, bind, Except.bind] at invalid
  split at invalid
  case h_1 reason scales =>
    cases invalid
    exact checkI64_ne_invalid _ scales
  case h_2 =>
    split at invalid
    case h_1 reason sums =>
      cases invalid
      exact checkI64_ne_invalid _ sums
    case h_2 sum _ =>
      cases negative with
      | false => cases invalid
      | true =>
          cases negates : checkI64 (-sum) with
          | ok signed => simp [negates] at invalid
          | error reason =>
              cases reason with
              | panicked => simp [negates] at invalid
              | invalid => exact checkI64_ne_invalid _ negates

/-- Where overflow panics, a text is read exactly if it is stopped with its parts or is a
numeral of a value that fits and is not the smallest one.
-/
theorem readsExactly_checked (text : String)
    : ReadsExactly fromStrChecked text
      ↔ (LetThrough (trim text.toList)
          → ∃ numeral : Numeral,
              numeral.chars = trim text.toList
              ∧ I64Range numeral.truncated ∧ numeral.truncated ≠ -2 ^ 63) :=
  have inRange : ∀ value : Int, I64Range value ∧ value ≠ -2 ^ 63 → I64Range value :=
    fun _ fits => fits.1
  readsExactly_iff joinChecked_ne_invalid inRange joinChecked_right text

/-- A text is read exactly if it is stopped with its parts or is a numeral of a value that
fits. Where overflow panics, the value must not be the smallest one either.
-/
theorem fromStr_exact_iff (text : String)
    : (ReadsExactly fromStr text
        ↔ (LetThrough (trim text.toList)
            → ∃ numeral : Numeral,
                numeral.chars = trim text.toList ∧ I64Range numeral.truncated))
      ∧ (ReadsExactly fromStrChecked text
        ↔ (LetThrough (trim text.toList)
            → ∃ numeral : Numeral,
                numeral.chars = trim text.toList
                ∧ I64Range numeral.truncated ∧ numeral.truncated ≠ -2 ^ 63)) := by
  have wrapping : fromStr = fromStrWith joinWrapping := funext fromStr_eq
  rw [wrapping]
  exact ⟨readsExactly_iff (fun _ _ _ => by simp [joinWrapping]) (fun _ range => range)
    joinWrapping_right text, readsExactly_checked text⟩

/-- `184467440737.09551617`, one unit more than two to the 64th. -/
def tooLarge : Numeral where
  negative := false
  whole := "184467440737".toList
  pointed := true
  frac := "09551617".toList
  wholeDigits := List.all_eq_true.mp (by decide +kernel)
  fracDigits := List.all_eq_true.mp (by decide +kernel)
  nonempty := by decide +kernel
  unpointed := by simp

/-- A value that is too large is read as a small one, the empty text as zero, and a character
of two bytes at the eighth decimal panics.
-/
theorem inexact_readings
    : fromStr "184467440737.09551617" = .ok (ofRaw 1)
      ∧ ¬ ReadsExactly fromStr "184467440737.09551617"
      ∧ fromStr "" = .ok zero ∧ ¬ ReadsExactly fromStr ""
      ∧ fromStr "0.1234567é" = .error .panicked ∧ ¬ ReadsExactly fromStr "0.1234567é" := by
  have large : fromStr "184467440737.09551617" = .ok (ofRaw 1) := by decide +kernel
  have empty : fromStr "" = .ok zero := by decide +kernel
  have cut : fromStr "0.1234567é" = .error .panicked := by decide +kernel
  refine ⟨large, fun exactly => ?_, empty, fun exactly => ?_, cut, fun exactly => ?_⟩
  · obtain ⟨numeral, isNumeral, value⟩ := (exactly.value _).mp large
    have same := Numeral.truncated_unique
      (show numeral.chars = tooLarge.chars from isNumeral.trans (by decide +kernel))
    rw [value] at same
    exact absurd same (by decide +kernel)
  · obtain ⟨numeral, isNumeral, -⟩ := (exactly.value _).mp empty
    have parts := numeral.textParts_chars
    rw [isNumeral] at parts
    have nothing : (([] : List Char), ([] : List Char)) = (numeral.whole, numeral.frac) := parts
    rw [Prod.mk.injEq] at nothing
    exact numeral.nonempty (by rw [← nothing.1, ← nothing.2]; rfl)
  · exact exactly.noPanic cut

-----------------------------------------------------------------------------------------
-- Writing and reading back
-----------------------------------------------------------------------------------------

/-- The text of a value as a numeral. -/
def displayNumeral (value : FP8) : Numeral where
  negative := decide (value.raw < 0)
  whole := Nat.toDigits 10 (value.raw.natAbs / 100_000_000)
  pointed := true
  frac := (Nat.toDigits 10 (value.raw.natAbs % 100_000_000)).leftpad 8 '0'
  wholeDigits := fun _ member => toDigits_isDigit member
  fracDigits := leftpad_digits _
  nonempty := fun nothing => Nat.toDigits_ne_nil (List.append_eq_nil_iff.mp nothing).1
  unpointed := by simp

theorem displayNumeral_chars (value : FP8) : value.displayNumeral.chars = value.displayChars := by
  by_cases negative : value.raw < 0
  · simp [Numeral.chars, Numeral.unsigned, displayNumeral, displayChars, negative]
  · simp [Numeral.chars, Numeral.unsigned, displayNumeral, displayChars, negative]

theorem displayNumeral_wholeValue (value : FP8)
    : value.displayNumeral.wholeValue = value.raw.natAbs / 100_000_000 :=
  Nat.ofDigitChars_ten_toDigits

theorem displayNumeral_truncated (value : FP8) : value.displayNumeral.truncated = value.raw := by
  have frac : value.displayNumeral.fracValue = value.raw.natAbs % 100_000_000 := by
    have length := leftpad_length (Nat.mod_lt value.raw.natAbs (show 0 < 100_000_000 by decide))
    have read := parseInt_leftpad 8 (value.raw.natAbs % 100_000_000)
    rw [parseInt_digits (by intro nothing; rw [nothing] at length; cases length)
      (leftpad_digits _)] at read
    unfold Numeral.fracValue
    rw [show value.displayNumeral.frac
      = (Nat.toDigits 10 (value.raw.natAbs % 100_000_000)).leftpad 8 '0' from rfl, padRight,
      length, List.replicate_zero, List.append_nil, List.take_of_length_le length.le]
    exact_mod_cast Option.some.inj read
  rw [Numeral.truncated_eq, displayNumeral_wholeValue, frac, fp8Scale]
  show (if decide (value.raw < 0) = true then _ else _) = value.raw
  split_ifs with negative
  · have below : value.raw < 0 := of_decide_eq_true negative
    omega
  · have above : ¬ value.raw < 0 := of_decide_eq_false (by simpa using negative)
    omega

/-- A value is read back from its text, and without an overflow on the way exactly if it is not
the smallest one. No other value has its text.
-/
theorem display_round_trip_iff (value : FP8)
    : (fromStr value.display = .ok value ∧ fromStrChecked value.display = .ok value
        ↔ value.raw ≠ -2 ^ 63)
      ∧ ∀ other : FP8, other.display = value.display → other = value := by
  constructor
  · have isNumeral : value.displayNumeral.chars = trim value.display.toList := by
      rw [displayNumeral_chars, display, String.toList_ofList,
        trim_eq_self (displayChars_clean value)]
    constructor
    · rintro ⟨-, read⟩
      have small : value.displayNumeral.wholeValue < 2 ^ 63 := by
        refine value.displayNumeral.wholeValue_lt ?_
        rw [displayNumeral_truncated]
        exact value.inRange
      rw [fromStrChecked, fromStrWith_numeral joinChecked isNumeral small] at read
      have fits := (joinChecked_right value.displayNumeral).mp
        ⟨value, read, (displayNumeral_truncated value).symm⟩
      rw [displayNumeral_truncated] at fits
      exact fits.2
    · intro others
      refine ⟨fromStr_display value, ?_⟩
      have fits : I64Range value.displayNumeral.truncated
          ∧ value.displayNumeral.truncated ≠ -2 ^ 63 := by
        rw [displayNumeral_truncated]
        exact ⟨value.inRange, others⟩
      have exactly := (readsExactly_checked value.display).mpr (fun _ => ⟨_, isNumeral, fits⟩)
      exact (exactly.value value).mpr ⟨_, isNumeral, displayNumeral_truncated value⟩
  · intro other same
    have read := fromStr_display other
    rw [same, fromStr_display value] at read
    exact (Except.ok.inj read).symm

/-- The smallest value is read back by wrapping; where overflow panics, reading its text does. -/
theorem smallest_overflows
    : (ofRaw (-2 ^ 63)).raw = -2 ^ 63
      ∧ (ofRaw (-2 ^ 63)).display = "-92233720368.54775808"
      ∧ fromStr "-92233720368.54775808" = .ok (ofRaw (-2 ^ 63))
      ∧ fromStrChecked "-92233720368.54775808" = .error .panicked := by
  decide +kernel

end FP8

end PerpDex
