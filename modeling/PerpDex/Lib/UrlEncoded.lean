import PerpDex.Lib.Hex

/-! Query strings: what the pairs of a query decode to.
Segments are separated by ampersands and split at their first equals sign. In each half a
plus sign is a blank and a percent sign with two digits is a byte; the bytes are then read
as UTF-8, ill-formed parts as the replacement character.
-/

namespace PerpDex

/-- Read a list unit by unit: a unit says how many elements after its first it takes. -/
def scan {α β : Type} (unit : α → List α → β × Nat) : Nat → List α → List β
  | _, [] => []
  | 0, first :: rest => (unit first rest).1 :: scan unit (unit first rest).2 rest
  | skip + 1, _ :: rest => scan unit skip rest

/-- Where every element is a unit of its own, reading is mapping. -/
theorem scan_single {α β : Type} {unit : α → List α → β × Nat} {read : α → β} {elements : List α}
    (single : ∀ element ∈ elements, ∀ rest, unit element rest = (read element, 0))
    : scan unit 0 elements = elements.map read := by
  induction elements with
  | nil => rfl
  | cons first rest ih =>
      have head := single first List.mem_cons_self rest
      have tail := ih (fun element member => single element (List.mem_cons_of_mem _ member))
      simp only [scan, head, tail, List.map_cons]

namespace Utf8

def replacement : Char := Char.ofNat 0xFFFD

def continuation (byte : Nat) : Bool := 0x80 ≤ byte && byte ≤ 0xBF

/-- May `second` follow the first byte of a sequence of three? -/
def secondOfThree (lead second : Nat) : Bool :=
  if lead = 0xE0 then 0xA0 ≤ second && second ≤ 0xBF
  else if lead = 0xED then 0x80 ≤ second && second ≤ 0x9F
  else continuation second

/-- May `second` follow the first byte of a sequence of four? -/
def secondOfFour (lead second : Nat) : Bool :=
  if lead = 0xF0 then 0x90 ≤ second && second ≤ 0xBF
  else if lead = 0xF4 then 0x80 ≤ second && second ≤ 0x8F
  else continuation second

/-- The character at the front of a byte string. An ill-formed sequence is replaced up to
the byte that breaks it.
-/
def charUnit (first : UInt8) (rest : List UInt8) : Char × Nat :=
  let lead := first.toNat
  let second := (rest.getD 0 0).toNat
  let third := (rest.getD 1 0).toNat
  let fourth := (rest.getD 2 0).toNat
  if lead < 0x80 then (Char.ofNat lead, 0)
  else if 0xC2 ≤ lead ∧ lead ≤ 0xDF then
    if !continuation second then (replacement, 0)
    else (Char.ofNat (lead % 32 * 64 + second % 64), 1)
  else if 0xE0 ≤ lead ∧ lead ≤ 0xEF then
    if !secondOfThree lead second then (replacement, 0)
    else if !continuation third then (replacement, 1)
    else (Char.ofNat ((lead % 16 * 64 + second % 64) * 64 + third % 64), 2)
  else if 0xF0 ≤ lead ∧ lead ≤ 0xF4 then
    if !secondOfFour lead second then (replacement, 0)
    else if !continuation third then (replacement, 1)
    else if !continuation fourth then (replacement, 2)
    else
      (Char.ofNat (((lead % 8 * 64 + second % 64) * 64 + third % 64) * 64 + fourth % 64), 3)
  else (replacement, 0)

/-- Read bytes as text, losing what is ill-formed. -/
def lossy (bytes : List UInt8) : List Char := scan charUnit 0 bytes

/-- ASCII reads as itself. -/
theorem lossy_ascii {bytes : List UInt8} (ascii : ∀ byte ∈ bytes, byte.toNat < 0x80)
    : lossy bytes = bytes.map (fun byte => Char.ofNat byte.toNat) := by
  refine scan_single (fun byte member rest => ?_)
  simp only [charUnit, if_pos (ascii byte member)]

end Utf8

namespace UrlEncoded

/-- The byte behind a percent sign. -/
def escapedByte : List Char → Option UInt8
  | high :: low :: _ => do
      let upper ← Hex.digitValue high
      let lower ← Hex.digitValue low
      some (UInt8.ofNat (16 * upper + lower))
  | _ => none

/-- The bytes of the unit at the front of a text. -/
def byteUnit (first : Char) (rest : List Char) : List UInt8 × Nat :=
  if first = '+' then ([0x20], 0)
  else if first = '%' then
    match escapedByte rest with
    | some byte => ([byte], 2)
    | none => (String.utf8EncodeChar first, 0)
  else (String.utf8EncodeChar first, 0)

def decodeBytes (text : List Char) : List UInt8 := (scan byteUnit 0 text).flatten

def decodeText (text : List Char) : String := String.ofList (Utf8.lossy (decodeBytes text))

def segments (query : String) : List (List Char) := query.toList.splitOn '&'

/-- The key and the value of a segment. -/
def segmentPair (segment : List Char) : String × String :=
  (decodeText (segment.takeWhile (· ≠ '=')),
    decodeText ((segment.dropWhile (· ≠ '=')).drop 1))

def pairs (query : String) : List (String × String) :=
  ((segments query).filter (fun segment => segment ≠ [])).map segmentPair

/-- All values a query has for a key. -/
def values (key query : String) : List String :=
  ((pairs query).filter (fun pair => pair.1 = key)).map Prod.snd

/-- A character that stands for itself. -/
def Plain (char : Char) : Prop := char.toNat < 0x80 ∧ char ≠ '+' ∧ char ≠ '%'

instance (char : Char) : Decidable (Plain char) := inferInstanceAs (Decidable (_ ∧ _))

theorem utf8EncodeChar_ascii {char : Char} (ascii : char.toNat < 0x80)
    : String.utf8EncodeChar char = [UInt8.ofNat char.toNat] := by
  have small : char.toNat ≤ 0x7F := Nat.le_of_lt_succ ascii
  simp [String.utf8EncodeChar, small]

/-- Plain text decodes to itself. -/
theorem decodeText_plain {text : List Char} (plain : ∀ char ∈ text, Plain char)
    : decodeText text = String.ofList text := by
  have single : ∀ char ∈ text, ∀ rest, byteUnit char rest = ([UInt8.ofNat char.toNat], 0) := by
    intro char member rest
    obtain ⟨ascii, notPlus, notPercent⟩ := plain char member
    simp only [byteUnit, if_neg notPlus, if_neg notPercent, utf8EncodeChar_ascii ascii]
  have bytes : decodeBytes text = text.map (fun char => UInt8.ofNat char.toNat) := by
    rw [decodeBytes, scan_single single, ← List.flatMap_def, ← List.map_eq_flatMap]
  have kept : ∀ char ∈ text, (UInt8.ofNat char.toNat).toNat = char.toNat := by
    intro char member
    have ascii := (plain char member).1
    simp only [UInt8.toNat_ofNat']
    omega
  have ascii : ∀ byte ∈ decodeBytes text, byte.toNat < 0x80 := by
    intro byte member
    rw [bytes] at member
    obtain ⟨char, inText, rfl⟩ := List.mem_map.mp member
    rw [kept char inText]
    exact (plain char inText).1
  rw [decodeText, Utf8.lossy_ascii ascii, bytes, List.map_map]
  congr 1
  refine List.map_congr_left (fun char member => ?_) |>.trans text.map_id
  simp only [Function.comp, kept char member, Char.ofNat_toNat, id]

/-- A segment written `key=value` in plain characters is that pair. -/
theorem segmentPair_plain {key value : List Char} (plainKey : ∀ char ∈ key, Plain char)
    (oneKey : '=' ∉ key) (plainValue : ∀ char ∈ value, Plain char)
    : segmentPair (key ++ '=' :: value) = (String.ofList key, String.ofList value) := by
  have noEquals : ∀ char ∈ key, decide (char ≠ '=') = true := by
    intro char member
    exact decide_eq_true (fun equals => oneKey (equals ▸ member))
  have before : (key ++ '=' :: value).takeWhile (· ≠ '=') = key := by
    rw [List.takeWhile_append_of_pos noEquals]
    simp
  have after : (key ++ '=' :: value).dropWhile (· ≠ '=') = '=' :: value := by
    rw [List.dropWhile_append_of_pos noEquals]
    simp
  rw [segmentPair, before, after, List.drop_succ_cons, List.drop_zero,
    decodeText_plain plainKey, decodeText_plain plainValue]

/-- A key with one value has it from one segment. -/
theorem segment_of_values {key query value : String} (unique : values key query = [value])
    : ∃ segment ∈ segments query, segmentPair segment = (key, value) := by
  have member : value ∈ values key query := by
    rw [unique]
    exact List.mem_singleton_self value
  obtain ⟨⟨name, held⟩, kept, rfl⟩ := List.mem_map.mp member
  obtain ⟨paired, sameKey⟩ := List.mem_filter.mp kept
  obtain ⟨segment, inQuery, read⟩ := List.mem_map.mp paired
  refine ⟨segment, (List.mem_filter.mp inQuery).1, ?_⟩
  have named : name = key := of_decide_eq_true sameKey
  rw [read, named]

end UrlEncoded

end PerpDex
