import PerpDex.Deposit.Scanner
import PerpDex.Lib.Occurrence

/-! The code of a refusal as the drivers read it from the text of an error.
The clock and the reconciliation look for the whole token, the deposit scanner and the reserves
publisher for its last three characters. So the latter take the number behind any word that
ends with these, if it stands in front of the token.
-/

namespace PerpDex.DepositSpv

open Text

-----------------------------------------------------------------------------------------
-- Error texts
-----------------------------------------------------------------------------------------

/-- A call that was answered with another status than success, and what its error was wrapped
in on the way up.
-/
structure FailedPost where
  context : String
  baseUrl : String
  path : String
  status : String
  body : String

namespace FailedPost

/-- What stands in front of the body. -/
def lead (failed : FailedPost) : List Char :=
  failed.context.toList ++ failed.baseUrl.toList ++ failed.path.toList
    ++ " -> HTTP ".toList ++ failed.status.toList ++ ": ".toList

/-- `{url} -> HTTP {status}: {text}`, behind any context. -/
def text (failed : FailedPost) : String :=
  String.ofList (failed.lead ++ trim failed.body.toList)

theorem text_toList (failed : FailedPost)
    : failed.text.toList = failed.lead ++ trim failed.body.toList := String.toList_ofList

end FailedPost

/-- A sign, if it is negative, and digits. -/
def IsDecimal (numeral : List Char) (value : Int) : Prop :=
  ∃ digits, digits ≠ [] ∧ (∀ char ∈ digits, char.isDigit = true)
    ∧ (numeral = digits ∧ value = Nat.ofDigitChars 10 digits 0
      ∨ numeral = '-' :: digits ∧ value = -(Nat.ofDigitChars 10 digits 0 : Int))

/-- A decimal number of so many bits. -/
def IsInt (bits : Nat) (numeral : List Char) (value : Int) : Prop :=
  IsDecimal numeral value ∧ -2 ^ (bits - 1) ≤ value ∧ value < 2 ^ (bits - 1)

/-- What continues a number. -/
def continues (char : Char) : Bool := char.isDigit || char = '-'

/-- A number is followed by something else. -/
def Stops (rest : List Char) : Prop := ∀ char, rest.head? = some char → continues char = false

/-- The first occurrence of a token is followed by a number. -/
def Reads (token : String) (bits : Nat) (text : List Char) (value : Int) : Prop :=
  ∃ front numeral rest, FirstAt token.toList text front (numeral ++ rest)
    ∧ Stops rest ∧ IsInt bits numeral value

/-- The first `(rc=` of the text is in the body and followed by an `i32` and `)`. -/
structure Refused (failed : FailedPost) (front : List Char) (code : Int) : Prop where
  inBody : failed.lead.length ≤ front.length
  token : ∃ numeral rest,
    FirstAt "(rc=".toList failed.text.toList front (numeral ++ ')' :: rest)
    ∧ IsInt 32 numeral code

/-- One meaning of a text: the code of a refusal for both, or no code for either. -/
structure OneMeaning (failed : FailedPost) : Prop where
  refused : ∀ front code, Refused failed front code →
    PerpDex.rcFromError failed.text = some code ∧ rcFromError failed.text = some code
  silent : ¬ "(rc=".toList <:+: failed.text.toList →
    PerpDex.rcFromError failed.text = none ∧ rcFromError failed.text = none

-----------------------------------------------------------------------------------------
-- Numbers
-----------------------------------------------------------------------------------------

theorem continues_of_isDecimal {numeral : List Char} {value : Int}
    (isDecimal : IsDecimal numeral value)
    : ∀ char ∈ numeral, continues char = true := by
  obtain ⟨digits, _, each, shape⟩ := isDecimal
  have inDigits : ∀ char ∈ digits, continues char = true := by
    intro char member
    rw [continues, each char member]
    rfl
  rcases shape with ⟨rfl, _⟩ | ⟨rfl, _⟩
  · exact inDigits
  · exact List.forall_mem_cons.mpr ⟨rfl, inDigits⟩

/-- Digits and minus signs are read exactly if they are a decimal number. -/
theorem parseInt_eq_some_iff {numeral : List Char}
    (each : ∀ char ∈ numeral, continues char = true) {value : Int}
    : parseInt numeral = some value ↔ IsDecimal numeral value := by
  constructor
  · intro read
    unfold parseInt at read
    split at read
    case h_1 digits =>
      exact absurd (each '+' List.mem_cons_self) (by decide)
    case h_2 digits =>
      obtain ⟨magnitude, parsed, rfl⟩ := Option.map_eq_some_iff.mp read
      unfold parseNat at parsed
      split at parsed
      case isTrue good =>
        cases parsed
        exact ⟨digits, good.1, List.all_eq_true.mp good.2, .inr ⟨rfl, rfl⟩⟩
      case isFalse => cases parsed
    case h_3 =>
      obtain ⟨magnitude, parsed, rfl⟩ := Option.map_eq_some_iff.mp read
      unfold parseNat at parsed
      split at parsed
      case isTrue good =>
        cases parsed
        exact ⟨numeral, good.1, List.all_eq_true.mp good.2, .inl ⟨rfl, rfl⟩⟩
      case isFalse => cases parsed
  · rintro ⟨digits, nonempty, isDigits, shape⟩
    rcases shape with ⟨rfl, rfl⟩ | ⟨rfl, rfl⟩
    · exact parseInt_digits nonempty isDigits
    · rw [parseInt, parseNat_eq_some nonempty isDigits]
      rfl

/-- A code is read exactly if a number of the width follows the first occurrence of the token. -/
theorem codeAfter_eq_some_iff {token : String} (nonempty : token.toList ≠ []) {bits : Nat}
    {message : String} {value : Int}
    : codeAfter token bits message = some value ↔ Reads token bits message.toList value := by
  unfold codeAfter
  constructor
  · intro found
    obtain ⟨after, isAfter, found⟩ := Option.bind_eq_some_iff.mp found
    obtain ⟨read, parsed, found⟩ := Option.bind_eq_some_iff.mp found
    split at found
    case isFalse => cases found
    case isTrue inRange =>
      cases found
      obtain ⟨front, first⟩ := (afterFirst_eq_some_iff nonempty).mp isAfter
      have each : ∀ char ∈ after.takeWhile continues, continues char = true :=
        fun char member => List.mem_takeWhile_imp member
      have stops : Stops (after.dropWhile continues) := by
        intro char head
        have found := List.head?_dropWhile_not continues after
        rw [head] at found
        simpa using found
      refine ⟨front, after.takeWhile continues, after.dropWhile continues, ?_, stops,
        (parseInt_eq_some_iff each).mp parsed, inRange⟩
      rw [List.takeWhile_append_dropWhile]
      exact first
  · rintro ⟨front, numeral, rest, first, stops, isDecimal, inRange⟩
    have each := continues_of_isDecimal isDecimal
    refine Option.bind_eq_some_iff.mpr
      ⟨_, (afterFirst_eq_some_iff nonempty).mpr ⟨front, first⟩, ?_⟩
    refine Option.bind_eq_some_iff.mpr ⟨value, ?_, if_pos inRange⟩
    have run : (numeral ++ rest).takeWhile (fun char => char.isDigit || char = '-') = numeral :=
      takeWhile_append each stops
    rw [run]
    exact (parseInt_eq_some_iff each).mpr isDecimal

-----------------------------------------------------------------------------------------
-- The two tokens
-----------------------------------------------------------------------------------------

theorem token_ne_nil : "(rc=".toList ≠ [] := by decide

theorem bare_ne_nil : "rc=".toList ≠ [] := by decide

/-- The bare token does not overlap an opening bracket. -/
theorem before_bracket {front tail before after : List Char}
    (same : front ++ '(' :: tail = before ++ ("rc=".toList ++ after))
    (early : before.length ≤ front.length)
    : ∃ middle, front = before ++ ("rc=".toList ++ middle) := by
  rcases List.append_eq_append_iff.mp same with ⟨more, rfl, rest⟩ | ⟨more, rfl, rest⟩
  · have none : more = [] := by
      rw [List.length_append] at early
      exact List.length_eq_zero_iff.mp (by omega)
    subst none
    cases rest
  · match more, rest with
    | [], rest => cases rest
    | [_], rest => cases rest
    | [_, _], rest => cases rest
    | _ :: _ :: _ :: middle, rest =>
        cases rest
        exact ⟨middle, rfl⟩

/-- Without a bare token in front, the first one is that of the whole token. -/
theorem firstAt_bare {text front rest : List Char}
    (first : FirstAt "(rc=".toList text front rest) (absent : ¬ "rc=".toList <:+: front)
    : FirstAt "rc=".toList text (front ++ ['(']) rest := by
  refine ⟨?_, fun before after split => ?_⟩
  · rw [first.split, List.append_assoc]
    rfl
  · by_contra early
    rw [List.length_append, List.length_singleton] at early
    obtain ⟨middle, inside⟩ := before_bracket (first.split.symm.trans split) (by omega)
    exact absent ⟨before, middle, by rw [inside, List.append_assoc]⟩

/-- The first bare token in front of the whole token is the first one of the text. -/
theorem firstAt_earlier {text front rest before after : List Char}
    (first : FirstAt "(rc=".toList text front rest)
    (inFront : FirstAt "rc=".toList front before after)
    : FirstAt "rc=".toList text before (after ++ ("(rc=".toList ++ rest)) := by
  refine ⟨?_, fun other later split => ?_⟩
  · rw [first.split]
    nth_rewrite 1 [inFront.split]
    simp only [List.append_assoc]
  · by_cases early : other.length ≤ front.length
    · obtain ⟨middle, inside⟩ := before_bracket (first.split.symm.trans split) early
      exact inFront.first other middle inside
    · have lengths := congrArg List.length inFront.split
      rw [List.length_append] at lengths
      omega

/-- A number that ends in front of something else ends there. -/
theorem number_inside {numeral rest front tail : List Char} {char : Char}
    (each : ∀ char ∈ numeral, continues char = true) (foreign : continues char = false)
    (same : numeral ++ rest = front ++ char :: tail)
    : ∃ middle, front = numeral ++ middle ∧ rest = middle ++ char :: tail := by
  rcases List.append_eq_append_iff.mp same with ⟨more, split, restSplit⟩ | ⟨more, rfl, overlap⟩
  · exact ⟨more, split, restSplit⟩
  · cases more with
    | nil => exact ⟨[], by simp, overlap.symm⟩
    | cons head more =>
        obtain ⟨rfl, _⟩ := List.cons.inj overlap
        have inside := each char (List.mem_append_right front List.mem_cons_self)
        rw [foreign] at inside
        cases inside

-----------------------------------------------------------------------------------------
-- One meaning
-----------------------------------------------------------------------------------------

/-- The whole token is read. -/
theorem Refused.whole {failed : FailedPost} {front : List Char} {code : Int}
    (refused : Refused failed front code)
    : PerpDex.rcFromError failed.text = some code := by
  obtain ⟨numeral, rest, first, isDecimal, inRange⟩ := refused.token
  refine (codeAfter_eq_some_iff token_ne_nil).mpr
    ⟨front, numeral, ')' :: rest, first, fun char head => ?_, isDecimal, ?_⟩
  · cases head
    rfl
  · norm_num at inRange ⊢
    omega

/-- The bare token gives the code of a refusal exactly if there is none in front of the whole
token, or the first one there is followed by the same number.
-/
theorem Refused.bare_iff {failed : FailedPost} {front : List Char} {code : Int}
    (refused : Refused failed front code)
    : rcFromError failed.text = some code
      ↔ ¬ "rc=".toList <:+: front ∨ Reads "rc=" 32 front code := by
  obtain ⟨numeral, rest, first, isInt⟩ := refused.token
  unfold rcFromError
  rw [codeAfter_eq_some_iff bare_ne_nil]
  constructor
  · intro read
    by_cases occurs : "rc=".toList <:+: front
    · obtain ⟨before, after, inFront⟩ := exists_firstAt bare_ne_nil occurs
      obtain ⟨other, number, behind, found, stops, isNumber⟩ := read
      obtain ⟨rfl, same⟩ := found.unique (firstAt_earlier first inFront)
      have each := continues_of_isDecimal isNumber.1
      obtain ⟨middle, rfl, rfl⟩ := number_inside each (show continues '(' = false from rfl) same
      refine .inr ⟨other, number, middle, inFront, fun char head => ?_, isNumber⟩
      refine stops char ?_
      cases middle with
      | nil => cases head
      | cons next others => exact head
    · exact .inl occurs
  · intro given
    rcases given with absent | ⟨before, number, after, inFront, stops, isNumber⟩
    · refine ⟨front ++ ['('], numeral, ')' :: rest, firstAt_bare first absent,
        fun char head => ?_, isInt⟩
      cases head
      rfl
    · refine ⟨before, number, after ++ ("(rc=".toList ++ (numeral ++ ')' :: rest)), ?_, ?_,
        isNumber⟩
      · have found := firstAt_earlier first inFront
        rwa [List.append_assoc] at found
      · intro char head
        cases after with
        | nil =>
            cases head
            rfl
        | cons next others => exact stops char head

theorem rcFromError_eq_none_iff (text : String)
    : rcFromError text = none ↔ ∀ value, ¬ Reads "rc=" 32 text.toList value := by
  unfold rcFromError
  rw [Option.eq_none_iff_forall_ne_some]
  exact forall_congr' (fun value => (codeAfter_eq_some_iff bare_ne_nil).not)

/-- A refusal has one meaning exactly if no number behind a bare token gets in front of it: no
bare token stands in front of the whole one, or the first there has the same number behind it;
and a text without the whole token has no number behind its first bare one.
-/
theorem one_meaning_iff (failed : FailedPost)
    : OneMeaning failed
      ↔ (∀ front code, Refused failed front code →
          ¬ "rc=".toList <:+: front ∨ Reads "rc=" 32 front code)
        ∧ (¬ "(rc=".toList <:+: failed.text.toList →
          ∀ value, ¬ Reads "rc=" 32 failed.text.toList value) := by
  constructor
  · intro oneMeaning
    refine ⟨fun front code refused => ?_, fun absent => ?_⟩
    · exact refused.bare_iff.mp (oneMeaning.refused front code refused).2
    · exact (rcFromError_eq_none_iff _).mp (oneMeaning.silent absent).2
  · intro given
    refine ⟨fun front code refused => ?_, fun absent => ?_⟩
    · exact ⟨refused.whole, refused.bare_iff.mpr (given.1 front code refused)⟩
    · refine ⟨?_, (rcFromError_eq_none_iff _).mpr (given.2 absent)⟩
      unfold PerpDex.rcFromError codeAfter
      rw [(afterFirst_eq_none_iff token_ne_nil).mpr absent]
      rfl

/-- A refusal with -74 whose message mentions a source. -/
def sourced : FailedPost where
  context := "submitting the deposit: "
  baseUrl := "https://localhost:9088/v1"
  path := "/perp/deposit-spv"
  status := "400 Bad Request"
  body := "source=5 src=5 (rc=-74)"

/-- The deposit scanner takes the number of the source for the code. -/
theorem sourced_two_meanings : ¬ OneMeaning sourced := by
  intro oneMeaning
  have found : afterFirst "(rc=".toList sourced.text.toList = some "-74)".toList := by
    rw [FailedPost.text_toList]
    decide +kernel
  obtain ⟨front, first⟩ := (afterFirst_eq_some_iff token_ne_nil).mp found
  have lengths := congrArg List.length first.split
  have inBody : sourced.lead.length + 8 ≤ sourced.text.toList.length := by
    have body : 8 ≤ (trim sourced.body.toList).length := by decide +kernel
    rw [FailedPost.text_toList, List.length_append]
    omega
  have behind : ("(rc=".toList ++ "-74)".toList).length = 8 := by decide
  rw [List.length_append, behind] at lengths
  have isDecimal : IsDecimal "-74".toList (-74) :=
    ⟨['7', '4'], by decide, List.all_eq_true.mp (by decide), .inr ⟨by decide, by decide +kernel⟩⟩
  have refused : Refused sourced front (-74) := {
    inBody := by omega
    token := ⟨"-74".toList, [], first, isDecimal, by decide⟩
  }
  have read : rcFromError sourced.text = some 5 := by
    rw [rcFromError, codeAfter, FailedPost.text_toList]
    decide +kernel
  have other := (oneMeaning.refused front (-74) refused).2
  rw [read] at other
  cases other

end PerpDex.DepositSpv
