import PerpDex.Lib.Separated
import PerpDex.Deposit.DepositProof

/-! The two hand-written decoders of hexadecimal text, in the deposit collectors and in the
clock.
Both cut the text into slices of two bytes and read each with `from_str_radix`, which accepts a
plus sign in front; a slice that goes past the end or into a character panics.
-/

namespace PerpDex.DepositSpv

open AttestedClock

/-- An even number of ASCII hex digits. -/
def IsHexText (text : String) : Prop :=
  text.toList.length % 2 = 0 ∧ ∀ char ∈ text.toList, (Hex.digitValue char).isSome

/-- The bytes that `hex::decode` gives for hex text, and an error for any other text. -/
structure DecodesExactly (outcome : Parse (List UInt8)) (text : String) : Prop where
  decoded : IsHexText text →
    ∃ bytes, Hex.decode text = some bytes ∧ outcome.run = some (.ok bytes)
  refused : ¬ IsHexText text → ∃ message, outcome.run = some (.error message)

/-- Two characters that `from_str_radix` reads as a byte: two hex digits, or a plus sign and a
hex digit.
-/
def ReadAsByte (first second : Char) : Prop :=
  (first = '+' ∨ (Hex.digitValue first).isSome) ∧ (Hex.digitValue second).isSome

/-- After some pairs that are read as bytes comes a character of two bytes, or two characters
of one byte each that are not read as a byte.
-/
inductive StopsInTime : List Char → Prop where
  | twoBytes {first : Char} (rest : List Char) (size : first.utf8Size = 2)
      : StopsInTime (first :: rest)
  | notHex {first second : Char} (rest : List Char)
      (sizes : first.utf8Size = 1 ∧ second.utf8Size = 1) (foreign : ¬ ReadAsByte first second)
      : StopsInTime (first :: second :: rest)
  | later {first second : Char} {rest : List Char} (read : ReadAsByte first second)
      (stops : StopsInTime rest)
      : StopsInTime (first :: second :: rest)

-----------------------------------------------------------------------------------------
-- One slice
-----------------------------------------------------------------------------------------

/-- What a decoder gives, without the text of its error. -/
def given {α : Type} (outcome : Parse α) : Option (Option α) :=
  outcome.run.map Except.toOption

/-- The bytes of some characters. -/
def charBytes (chars : List Char) : List UInt8 := chars.flatMap String.utf8EncodeChar

theorem given_eq_none_iff {α : Type} {outcome : Parse α}
    : given outcome = some none ↔ ∃ message, outcome.run = some (.error message) := by
  unfold given
  cases outcome.run with
  | none => simp
  | some result => cases result <;> simp [Except.toOption]

theorem given_eq_some_iff {α : Type} {outcome : Parse α} {value : α}
    : given outcome = some (some value) ↔ outcome.run = some (.ok value) := by
  unfold given
  cases outcome.run with
  | none => simp
  | some result => cases result <;> simp [Except.toOption]

theorem decodesExactly_iff {outcome : Parse (List UInt8)} {text : String}
    : DecodesExactly outcome text ↔ given outcome = some (Hex.decode text) := by
  have isHex : (Hex.decode text).isSome ↔ IsHexText text :=
    Hex.decodeChars_isSome_iff text.toList
  cases decoded : Hex.decode text with
  | some bytes =>
      have hexText : IsHexText text := isHex.mp (by rw [decoded]; rfl)
      rw [given_eq_some_iff]
      constructor
      · intro exactly
        obtain ⟨other, same, run⟩ := exactly.decoded hexText
        cases decoded.symm.trans same
        exact run
      · intro run
        exact ⟨fun _ => ⟨bytes, decoded, run⟩, fun other => absurd hexText other⟩
  | none =>
      have foreign : ¬ IsHexText text := by
        intro hexText
        have some := isHex.mpr hexText
        rw [decoded] at some
        cases some
      rw [given_eq_none_iff]
      exact ⟨fun exactly => exactly.refused foreign,
        fun refused => ⟨fun hexText => absurd hexText foreign, fun _ => refused⟩⟩

/-- A slice that is no byte ends the reading; a byte goes in front of the rest. -/
theorem given_read (value : Option UInt8) (missing : String) (rest : Parse (List UInt8))
    : given (do
          let byte ← context value missing
          let bytes ← rest
          pure (byte :: bytes))
      = value.elim (some none) (fun byte => (given rest).map (Option.map (byte :: ·))) := by
  cases value with
  | none => rfl
  | some byte =>
      show given (rest >>= fun bytes => pure (byte :: bytes)) = (given rest).map _
      unfold given
      show (rest.run.bind _).map _ = _
      cases rest.run with
      | none => rfl
      | some result => cases result <;> rfl

theorem given_hexBytes_cons (first second : UInt8) (rest : List UInt8)
    (boundary : insideChar rest = false)
    : given (hexBytes (first :: second :: rest))
      = (pairValue first second).elim (some none)
        (fun byte => (given (hexBytes rest)).map (Option.map (byte :: ·))) := by
  rw [hexBytes, if_neg (by simp [boundary])]
  exact given_read _ _ _

theorem given_hexBytes_inside {first second : UInt8} {rest : List UInt8}
    (inside : insideChar rest = true)
    : given (hexBytes (first :: second :: rest)) = none := by
  rw [hexBytes, if_pos inside]
  rfl

/-- The two decoders differ in the texts of their errors only. -/
theorem given_unhexFrom (offset : Nat) (text : List UInt8)
    : given (unhexFrom offset text) = given (hexBytes text) := by
  induction offset, text using unhexFrom.induct with
  | case1 offset => rfl
  | case2 offset last => rfl
  | case3 offset first second rest inside =>
      rw [given_hexBytes_inside inside, unhexFrom, if_pos inside]
      rfl
  | case4 offset first second rest boundary ih =>
      rw [given_hexBytes_cons _ _ _ (Bool.eq_false_iff.mpr boundary), unhexFrom, if_neg boundary,
        ← ih]
      exact given_read _ _ _

-----------------------------------------------------------------------------------------
-- Characters
-----------------------------------------------------------------------------------------

theorem charBytes_cons (char : Char) (rest : List Char)
    : charBytes (char :: rest) = String.utf8EncodeChar char ++ charBytes rest :=
  List.flatMap_cons

/-- No character starts with a byte that continues one. -/
theorem insideChar_charBytes (chars : List Char) : insideChar (charBytes chars) = false := by
  cases chars with
  | nil => rfl
  | cons char rest =>
      rw [charBytes_cons]
      cases Separated.encoded char with
      | one size ascii bytes =>
          have value : (UInt8.ofNat char.toNat).toNat = char.toNat := by
            rw [UInt8.toNat_ofNat']
            omega
          simp [bytes, insideChar, value]
          omega
      | two size first second lead tail bytes =>
          simp [bytes, insideChar]
          omega
      | more size first second third others lead tail next bytes =>
          simp [bytes, insideChar]
          omega

theorem insideChar_continuation {byte : UInt8} (continuation : Separated.IsContinuation byte)
    (rest : List UInt8)
    : insideChar (byte :: rest) = true := by
  have bounds := continuation
  simp only [Separated.IsContinuation] at bounds
  simpa [insideChar] using bounds

theorem ascii_of_size {char : Char} (size : char.utf8Size = 1)
    : char.toNat < 0x80 ∧ String.utf8EncodeChar char = [UInt8.ofNat char.toNat] := by
  cases Separated.encoded char with
  | one _ ascii bytes => exact ⟨ascii, bytes⟩
  | two two => exact absurd (size.symm.trans two) (by decide)
  | more more => exact absurd size (by omega)

theorem size_of_digit {char : Char} (digit : (Hex.digitValue char).isSome)
    : char.utf8Size = 1 := by
  have small : char.toNat < 0x80 := by
    unfold Hex.digitValue at digit
    dsimp only at digit
    split_ifs at digit
    all_goals first | omega | cases digit
  cases Separated.encoded char with
  | one size => exact size
  | two size first second lead tail bytes =>
      have same := UrlEncoded.utf8EncodeChar_ascii small
      rw [bytes] at same
      cases same
  | more size first second third rest lead tail next bytes =>
      have same := UrlEncoded.utf8EncodeChar_ascii small
      rw [bytes] at same
      cases same

theorem ReadAsByte.sizes {first second : Char} (read : ReadAsByte first second)
    : first.utf8Size = 1 ∧ second.utf8Size = 1 := by
  refine ⟨?_, size_of_digit read.2⟩
  rcases read.1 with rfl | digit
  · rfl
  · exact size_of_digit digit

theorem ofNat_byte {char : Char} (ascii : char.toNat < 0x80)
    : Char.ofNat (UInt8.ofNat char.toNat).toNat = char := by
  rw [UInt8.toNat_ofNat', Nat.mod_eq_of_lt (by omega)]
  exact Char.ofNat_toNat char

/-- The byte that two characters of one byte each are read as. -/
theorem pairValue_chars {first second : Char} (firstAscii : first.toNat < 0x80)
    (secondAscii : second.toNat < 0x80)
    : pairValue (UInt8.ofNat first.toNat) (UInt8.ofNat second.toNat)
      = (Hex.digitValue second).bind (fun low =>
        if first = '+' then some (UInt8.ofNat low)
        else (Hex.digitValue first).map (fun high => UInt8.ofNat (16 * high + low))) := by
  have plus : UInt8.ofNat first.toNat = 0x2B ↔ first = '+' := by
    constructor
    · intro same
      have value := congrArg UInt8.toNat same
      rw [UInt8.toNat_ofNat', Nat.mod_eq_of_lt (by omega)] at value
      exact Char.toNat_inj.mp value
    · rintro rfl
      rfl
  rw [pairValue, ofNat_byte firstAscii, ofNat_byte secondAscii]
  cases Hex.digitValue second with
  | none => rfl
  | some low =>
      by_cases isPlus : first = '+'
      · simp [isPlus]
      · have notPlus := plus.not.mpr isPlus
        simp only [Option.bind_eq_bind, Option.bind_some, if_neg notPlus, if_neg isPlus]
        cases Hex.digitValue first <;> rfl

theorem pairValue_isSome_iff {first second : Char} (firstAscii : first.toNat < 0x80)
    (secondAscii : second.toNat < 0x80)
    : (pairValue (UInt8.ofNat first.toNat) (UInt8.ofNat second.toNat)).isSome
      ↔ ReadAsByte first second := by
  rw [pairValue_chars firstAscii secondAscii, ReadAsByte]
  cases Hex.digitValue second with
  | none => simp
  | some low => by_cases isPlus : first = '+' <;> simp [isPlus]

/-- A character of two bytes is a slice of its own, and no byte. -/
theorem given_twoBytes {first : Char} (size : first.utf8Size = 2) (rest : List Char)
    : given (hexBytes (charBytes (first :: rest))) = some none := by
  cases Separated.encoded first with
  | one one => exact absurd (size.symm.trans one) (by decide)
  | more more => exact absurd size (by omega)
  | two _ lead tail large continuation bytes =>
      have foreign : Hex.digitValue (Char.ofNat tail.toNat) = none := by
        have bounds := continuation
        simp only [Separated.IsContinuation] at bounds
        have value : (Char.ofNat tail.toNat).toNat = tail.toNat := by
          rw [Char.toNat_ofNat, if_pos (.inl (by omega))]
        simp only [Hex.digitValue, value]
        split_ifs
        all_goals first | omega | rfl
      rw [charBytes_cons, bytes, List.cons_append, List.cons_append, List.nil_append,
        given_hexBytes_cons _ _ _ (insideChar_charBytes rest), pairValue, foreign]
      rfl

/-- A slice that ends inside its first character panics. -/
theorem given_moreBytes {first : Char} (size : 2 < first.utf8Size) (rest : List Char)
    : given (hexBytes (charBytes (first :: rest))) = none := by
  cases Separated.encoded first with
  | one one => exact absurd size (by omega)
  | two two => exact absurd size (by omega)
  | more _ lead second third others large continuation next bytes =>
      rw [charBytes_cons, bytes, List.cons_append, List.cons_append, List.cons_append]
      exact given_hexBytes_inside (insideChar_continuation next _)

/-- A slice that ends inside its second character panics. -/
theorem given_splitSecond {first second : Char} (one : first.utf8Size = 1)
    (size : second.utf8Size ≠ 1) (rest : List Char)
    : given (hexBytes (charBytes (first :: second :: rest))) = none := by
  rw [charBytes_cons, (ascii_of_size one).2, charBytes_cons]
  cases Separated.encoded second with
  | one one => exact absurd one size
  | two _ lead tail large continuation bytes =>
      rw [bytes]
      exact given_hexBytes_inside (insideChar_continuation continuation _)
  | more _ lead tail third others large continuation next bytes =>
      rw [bytes]
      exact given_hexBytes_inside (insideChar_continuation continuation _)

/-- Two characters of one byte each are a slice. -/
theorem given_pair {first second : Char} (sizes : first.utf8Size = 1 ∧ second.utf8Size = 1)
    (rest : List Char)
    : given (hexBytes (charBytes (first :: second :: rest)))
      = (pairValue (UInt8.ofNat first.toNat) (UInt8.ofNat second.toNat)).elim (some none)
        (fun byte => (given (hexBytes (charBytes rest))).map (Option.map (byte :: ·))) := by
  rw [charBytes_cons, charBytes_cons, (ascii_of_size sizes.1).2, (ascii_of_size sizes.2).2]
  exact given_hexBytes_cons _ _ _ (insideChar_charBytes rest)

/-- A slice of two characters stops the reading, or the rest does. -/
theorem given_pair_eq_error_iff {first second : Char}
    (sizes : first.utf8Size = 1 ∧ second.utf8Size = 1) (rest : List Char)
    : given (hexBytes (charBytes (first :: second :: rest))) = some none
      ↔ ¬ ReadAsByte first second ∨ given (hexBytes (charBytes rest)) = some none := by
  rw [given_pair sizes,
    ← pairValue_isSome_iff (ascii_of_size sizes.1).1 (ascii_of_size sizes.2).1]
  cases pairValue (UInt8.ofNat first.toNat) (UInt8.ofNat second.toNat) with
  | none => simp
  | some byte => simp

-----------------------------------------------------------------------------------------
-- Whole texts
-----------------------------------------------------------------------------------------

/-- Reading ends with an error exactly if it stops in time.
Witness: induction over pairs of characters, by the size of the first and the second.
-/
theorem given_eq_error_iff (chars : List Char)
    : given (hexBytes (charBytes chars)) = some none ↔ StopsInTime chars := by
  induction chars using Hex.decodeChars.induct with
  | case1 => exact ⟨fun failed => (by cases failed), fun stops => (by cases stops)⟩
  | case2 char =>
      constructor
      · intro failed
        cases Separated.encoded char with
        | one _ _ bytes =>
            rw [charBytes_cons, bytes] at failed
            cases failed
        | two size => exact .twoBytes [] size
        | more size =>
            rw [given_moreBytes size] at failed
            cases failed
      · intro stops
        cases stops with
        | twoBytes _ size => exact given_twoBytes size []
  | case3 first second rest ih =>
      constructor
      · intro failed
        cases Separated.encoded first with
        | two size => exact .twoBytes _ size
        | more size =>
            rw [given_moreBytes size] at failed
            cases failed
        | one oneByte =>
            by_cases size : second.utf8Size = 1
            · by_cases read : ReadAsByte first second
              · rcases (given_pair_eq_error_iff ⟨oneByte, size⟩ rest).mp failed with foreign | later
                · exact absurd read foreign
                · exact .later read (ih.mp later)
              · exact .notHex rest ⟨oneByte, size⟩ read
            · rw [given_splitSecond oneByte size] at failed
              cases failed
      · intro stops
        cases stops with
        | twoBytes _ size => exact given_twoBytes size _
        | notHex _ sizes foreign => exact (given_pair_eq_error_iff sizes rest).mpr (.inl foreign)
        | later read stops =>
            exact (given_pair_eq_error_iff read.sizes rest).mpr (.inr (ih.mpr stops))

/-- On hex digits the decoder is `hex::decode`. -/
theorem given_of_digits {chars : List Char}
    (digits : ∀ char ∈ chars, (Hex.digitValue char).isSome) (even : chars.length % 2 = 0)
    : given (hexBytes (charBytes chars)) = some (Hex.decodeChars chars) := by
  induction chars using Hex.decodeChars.induct with
  | case1 => rfl
  | case2 char => cases even
  | case3 high low rest ih =>
      obtain ⟨upper, isUpper⟩ := Option.isSome_iff_exists.mp (digits high List.mem_cons_self)
      obtain ⟨lower, isLower⟩ :=
        Option.isSome_iff_exists.mp (digits low (.tail high List.mem_cons_self))
      have sizes : high.utf8Size = 1 ∧ low.utf8Size = 1 :=
        ⟨size_of_digit (by rw [isUpper]; rfl), size_of_digit (by rw [isLower]; rfl)⟩
      have notPlus : high ≠ '+' := by
        rintro rfl
        cases isUpper
      have shorter : rest.length % 2 = 0 := by
        rw [List.length_cons, List.length_cons] at even
        omega
      have later := ih (fun char member => digits char (.tail high (.tail low member))) shorter
      rw [given_pair sizes, pairValue_chars (ascii_of_size sizes.1).1 (ascii_of_size sizes.2).1,
        later, isUpper, isLower, Option.bind_some, if_neg notPlus, Hex.decodeChars, isUpper,
        isLower]
      cases Hex.decodeChars rest <;> rfl

theorem utf8_eq_charBytes (text : String) : utf8 text = charBytes text.toList :=
  Separated.toUTF8_eq text

/-- Hex digits are one byte each. -/
theorem length_utf8_of_isHexText {text : String} (hexText : IsHexText text)
    : (utf8 text).length = text.toList.length := by
  rw [utf8_eq_charBytes, charBytes, List.length_flatMap]
  have ones : text.toList.map (fun char => (String.utf8EncodeChar char).length)
      = text.toList.map (fun _ => 1) := by
    refine List.map_congr_left (fun char member => ?_)
    rw [(ascii_of_size (size_of_digit (hexText.2 char member))).2]
    rfl
  rw [ones]
  simp

theorem decode_eq_none {text : String} (foreign : ¬ IsHexText text) : Hex.decode text = none := by
  have notSome := (Hex.decodeChars_isSome_iff text.toList).not.mpr foreign
  exact Option.not_isSome_iff_eq_none.mp notSome

/-- The decoder of the clock decodes hex text, and any other text that stops it in time. -/
theorem hexBytes_exact_iff (text : String)
    : DecodesExactly (hexBytes (utf8 text)) text
      ↔ IsHexText text ∨ StopsInTime text.toList := by
  rw [decodesExactly_iff, utf8_eq_charBytes]
  by_cases hexText : IsHexText text
  · exact ⟨fun _ => .inl hexText, fun _ => given_of_digits hexText.2 hexText.1⟩
  · rw [decode_eq_none hexText, given_eq_error_iff, or_iff_right hexText]

/-- The two decoders do what `hex::decode` does exactly on hex text and on any other text that
stops them in time; the collectors also refuse an odd number of bytes beforehand.
-/
theorem hex_decoders_exact_iff (text : String)
    : (DecodesExactly (unhex text) text
        ↔ (utf8 text).length % 2 = 1 ∨ IsHexText text ∨ StopsInTime text.toList)
      ∧ (DecodesExactly (hexBytes (utf8 text)) text
        ↔ IsHexText text ∨ StopsInTime text.toList) := by
  refine ⟨?_, hexBytes_exact_iff text⟩
  by_cases odd : (utf8 text).length % 2 = 1
  · have refused : unhex text = throw s!"odd-length hex ({(utf8 text).length} chars)" := by
      rw [unhex, if_pos (by omega)]
    have foreign : ¬ IsHexText text := by
      intro hexText
      have even := hexText.1
      rw [length_utf8_of_isHexText hexText] at odd
      omega
    refine ⟨fun _ => .inl odd, fun _ => ?_⟩
    exact ⟨fun hexText => absurd hexText foreign, fun _ => ⟨_, congrArg ExceptT.run refused⟩⟩
  · have cut : unhex text = unhexFrom 0 (utf8 text) := by
      rw [unhex, if_neg (by omega)]
    rw [or_iff_right odd, ← hexBytes_exact_iff, decodesExactly_iff, decodesExactly_iff, cut,
      given_unhexFrom]

/-- A plus sign is read as if it were not there, an odd digit at the end panics in the clock,
and a character of two bytes at an odd place panics in both.
-/
theorem plus_read_as_digit
    : ¬ (∀ text, DecodesExactly (unhex text) text ∧ DecodesExactly (hexBytes (utf8 text)) text)
      ∧ (unhex "+f").run = some (.ok [15]) ∧ (hexBytes (utf8 "+f")).run = some (.ok [15])
      ∧ (unhex "aéb").run = none ∧ (hexBytes (utf8 "0")).run = none := by
  have read : (unhex "+f").run = some (.ok [15]) := by decide +kernel
  refine ⟨fun exactly => ?_, read, by decide +kernel, by decide +kernel, by decide +kernel⟩
  have foreign : ¬ IsHexText "+f" := by
    intro hexText
    have digit := hexText.2 '+' (by decide +kernel)
    cases digit
  obtain ⟨message, failed⟩ := (exactly "+f").1.refused foreign
  cases read.symm.trans failed

end PerpDex.DepositSpv
