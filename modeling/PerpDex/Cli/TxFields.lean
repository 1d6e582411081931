import PerpDex.Lib.StableSort
import PerpDex.Spv.Stripping

/-! The transactions that the command-line tools write and sign themselves.
Fields are written in the order of their codes, so the bytes read back as those fields in that
order, and nothing but the same fields has the same bytes. What is signed is the transaction
that is submitted without its signature.
-/

namespace PerpDex

namespace CliTools

open Wire SpvProof

def hashPrefixTxSign : List UInt8 := [0x53, 0x54, 0x58, 0x00]

def encodeFieldId (typeCode fieldCode : UInt8) : List UInt8 :=
  if typeCode < 16 then
    if fieldCode < 16 then [(typeCode <<< 4) ||| fieldCode] else [typeCode <<< 4, fieldCode]
  else if fieldCode < 16 then [fieldCode, typeCode]
  else [0, typeCode, fieldCode]

/-- Lengths of three bytes are not written, so a length beyond 12480 overflows its first byte. -/
def encodeVlLength (length : Nat) : List UInt8 :=
  if length ≤ 192 then [UInt8.ofNat length]
  else
    let adj := length - 193
    [193 + UInt8.ofNat (adj / 256), UInt8.ofNat (adj % 256)]

structure XrplField where
  typeCode : UInt8
  fieldCode : UInt8
  data : List UInt8
deriving DecidableEq

namespace XrplField

def uint16 (fieldCode : UInt8) (val : UInt16) : XrplField where
  typeCode := 1
  fieldCode := fieldCode
  data := beBytes 2 val.toNat

def uint32 (fieldCode : UInt8) (val : UInt32) : XrplField where
  typeCode := 2
  fieldCode := fieldCode
  data := beBytes 4 val.toNat

def amountDrops (fieldCode : UInt8) (drops : UInt64) : XrplField where
  typeCode := 6
  fieldCode := fieldCode
  data := beBytes 8 (0x4000000000000000 ||| drops).toNat

def blob (fieldCode : UInt8) (bytes : List UInt8) : XrplField where
  typeCode := 7
  fieldCode := fieldCode
  data := encodeVlLength bytes.length ++ bytes

def accountId (fieldCode : UInt8) (id : AccountId) : XrplField where
  typeCode := 8
  fieldCode := fieldCode
  data := 20 :: id.toList

def sortKey (field : XrplField) : ℕ ×ₗ ℕ := toLex (field.typeCode.toNat, field.fieldCode.toNat)

def serialize (field : XrplField) : List UInt8 :=
  encodeFieldId field.typeCode field.fieldCode ++ field.data

end XrplField

/-- One element of `SignerEntries`: its weight and its account, between two markers. -/
def signerEntryBytes (entry : AccountId × UInt16) : List UInt8 :=
  encodeFieldId 14 11 ++ (encodeFieldId 1 3 ++ (beBytes 2 entry.2.toNat
    ++ (encodeFieldId 8 1 ++ (20 :: entry.1.toList ++ [0xe1]))))

def serializeSignerEntries (entries : List (AccountId × UInt16)) : List UInt8 :=
  encodeFieldId 15 4 ++ (entries.flatMap signerEntryBytes ++ [0xf1])

/-- The fields in canonical order. -/
def canonical (fields : List XrplField) : List XrplField :=
  StableSort.sortBy XrplField.sortKey fields

def serializeFields (fields : List XrplField) (arraySuffix : Option (List UInt8)) : List UInt8 :=
  (canonical fields).flatMap XrplField.serialize ++ arraySuffix.getD []

/-- A key signs a digest or the data itself. -/
inductive XrplSigningKey where
  | secp256k1 (signHash : List UInt8 → Except String (List UInt8))
  | ed25519 (sign : List UInt8 → List UInt8)

structure XrplKeypair where
  pubkeyBytes : List UInt8
  key : XrplSigningKey

/-- The signature of some data; `sha512` is what a digest is taken with. -/
def XrplKeypair.signData (sha512 : List UInt8 → List UInt8) (keypair : XrplKeypair)
    (signingData : List UInt8) : Except String (List UInt8) :=
  match keypair.key with
  | .secp256k1 signHash => signHash ((sha512 signingData).take 32)
  | .ed25519 sign => .ok (sign signingData)

def signXrplTx (sha512 : List UInt8 → List UInt8) (keypair : XrplKeypair)
    (fields : List XrplField) (arraySuffix : Option (List UInt8))
    : Except String (List UInt8) := do
  let fields := fields ++ [.blob 3 keypair.pubkeyBytes]
  let signingData := hashPrefixTxSign ++ serializeFields fields arraySuffix
  let sigBytes ← keypair.signData sha512 signingData
  -- the fields stay in the order they were written in for the signature
  .ok (serializeFields (canonical fields ++ [.blob 4 sigBytes]) arraySuffix)

-----------------------------------------------------------------------------------------
-- What is written reads back
-----------------------------------------------------------------------------------------

/-- A field as its constructors make it, with a field code and of a length that can be written. -/
inductive Made : XrplField → Prop where
  | uint16 {code : UInt8} (coded : code ≠ 0) (val : UInt16) : Made (.uint16 code val)
  | uint32 {code : UInt8} (coded : code ≠ 0) (val : UInt32) : Made (.uint32 code val)
  | amountDrops {code : UInt8} (coded : code ≠ 0) (drops : UInt64) (small : drops.toNat < 2 ^ 63)
      : Made (.amountDrops code drops)
  | blob {code : UInt8} (coded : code ≠ 0) {bytes : List UInt8} (short : bytes.length ≤ 12480)
      : Made (.blob code bytes)
  | accountId {code : UInt8} (coded : code ≠ 0) (id : AccountId) : Made (.accountId code id)

/-- A field that a reader finds, and the field it was written for. -/
structure Reads (written : XrplField) (read : Field) : Prop where
  bytes : read.bytes = written.serialize
  typeCode : read.typeCode.value = written.typeCode.toNat
  fieldCode : read.fieldCode.value = written.fieldCode.toNat
  value : lengthPrefix read.typeCode.value read.value.length ++ read.value = written.data
  known : written.typeCode.toNat < 15

/-- How a code is read: in half of the first byte where it fits there. -/
def codeOf (byte : UInt8) (coded : byte ≠ 0) : Code :=
  if small : byte.toNat < 16 then
    .short byte.toNat
      ⟨Nat.pos_of_ne_zero (fun zero => coded (UInt8.toNat_inj.mp zero)), Nat.le_of_lt_succ small⟩
  else .own byte

theorem codeOf_value {byte : UInt8} (coded : byte ≠ 0)
    : (codeOf byte coded).value = byte.toNat := by
  rw [codeOf]
  split_ifs <;> rfl

/-- A field identifier is the head of a header: both halves, then the codes that fill a byte. -/
theorem encodeFieldId_eq {typeCode fieldCode : UInt8} (typed : typeCode ≠ 0)
    (coded : fieldCode ≠ 0)
    : encodeFieldId typeCode fieldCode
      = UInt8.ofNat (16 * (codeOf typeCode typed).half + (codeOf fieldCode coded).half)
        :: ((codeOf typeCode typed).tail ++ (codeOf fieldCode coded).tail) := by
  have nibbles : ∀ high < 16, ∀ low < 16,
      (UInt8.ofNat high <<< 4) ||| UInt8.ofNat low = UInt8.ofNat (16 * high + low) := by
    decide +kernel
  have shifted : ∀ high < 16, UInt8.ofNat high <<< 4 = UInt8.ofNat (16 * high) := by
    decide +kernel
  have sixteen : ∀ byte : UInt8, byte < 16 ↔ byte.toNat < 16 :=
    fun _ => UInt8.lt_iff_toNat_lt
  simp only [encodeFieldId, codeOf, sixteen]
  split_ifs with smallType smallCode smallCode
  · have same := nibbles typeCode.toNat smallType fieldCode.toNat smallCode
    rw [UInt8.ofNat_toNat, UInt8.ofNat_toNat] at same
    rw [same]
    rfl
  · have same := shifted typeCode.toNat smallType
    rw [UInt8.ofNat_toNat] at same
    rw [same]
    rfl
  · rw [Code.half, Code.half, Nat.mul_zero, Nat.zero_add, UInt8.ofNat_toNat]
    rfl
  · rfl

/-- Lengths of up to 12480 are written as they are read. -/
theorem encodeVlLength_eq {length : Nat} (short : length ≤ 12480)
    : encodeVlLength length = lengthBytes length := by
  rw [encodeVlLength, lengthBytes, if_pos short]
  split_ifs with one
  · rfl
  · rw [UInt8.ofNat_add]
    rfl

/-- A field in general: known codes, and a value that fits behind its length. -/
theorem exists_reads (typeCode : UInt8) {fieldCode : UInt8} {data value : List UInt8}
    (typed : typeCode ≠ 0) (known : typeCode.toNat < 15) (coded : fieldCode ≠ 0)
    (fits : Fits typeCode.toNat value)
    (sameData : lengthPrefix typeCode.toNat value.length ++ value = data)
    : ∃ read, Reads ⟨typeCode, fieldCode, data⟩ read ∧ read.value = value := by
  have typeValue := codeOf_value typed
  let read : Field := {
    typeCode := codeOf typeCode typed, fieldCode := codeOf fieldCode coded, value := value,
    fits := typeValue.symm ▸ fits }
  refine ⟨read, ⟨?_, typeValue, codeOf_value coded, ?_, known⟩, rfl⟩
  · rw [XrplField.serialize, encodeFieldId_eq typed coded, ← sameData, ← typeValue]
    simp [read, Field.bytes, Field.header]
  · show lengthPrefix (codeOf typeCode typed).value value.length ++ value = data
    rw [typeValue]
    exact sameData

/-- An amount of drops has its first bit clear, so it reads as eight bytes. -/
theorem fits_amount {drops : UInt64} (small : drops.toNat < 2 ^ 63)
    : Fits 6 (beBytes 8 (0x4000000000000000 ||| drops).toNat) := by
  have bound : (0x4000000000000000 ||| drops).toNat < 2 ^ 63 := by
    rw [UInt64.toNat_or]
    exact Nat.or_lt_two_pow (by decide) small
  generalize (0x4000000000000000 ||| drops).toNat = amount at bound ⊢
  have length := length_beBytes 8 amount
  have value := beValue_beBytes 8 amount
  generalize beBytes 8 amount = bytes at length value ⊢
  match bytes with
  | [] => cases length
  | first :: rest =>
      have restLength : rest.length = 7 := Nat.succ.inj length
      rw [beValue_cons, restLength] at value
      refine .amount ?_
      rw [if_neg (by omega), length]

theorem exists_reads_blob {code : UInt8} (coded : code ≠ 0) {bytes : List UInt8}
    (short : bytes.length ≤ 12480)
    : ∃ read, Reads (.blob code bytes) read ∧ read.value = bytes := by
  refine exists_reads 7 (by decide) (by decide) coded
    (.bytes (.inl rfl) (lt_of_le_of_lt short (by decide))) ?_
  show lengthPrefix 7 bytes.length ++ bytes = encodeVlLength bytes.length ++ bytes
  rw [encodeVlLength_eq short]
  rfl

/-- Every field that is made reads back. -/
theorem Made.exists_reads {written : XrplField} (made : Made written)
    : ∃ read, Reads written read := by
  cases made with
  | uint16 coded val =>
      obtain ⟨read, reads, _⟩ := CliTools.exists_reads 1 (by decide) (by decide) coded
        (.uint16 (length_beBytes 2 val.toNat)) rfl
      exact ⟨read, reads⟩
  | uint32 coded val =>
      obtain ⟨read, reads, _⟩ := CliTools.exists_reads 2 (by decide) (by decide) coded
        (.uint32 (length_beBytes 4 val.toNat)) rfl
      exact ⟨read, reads⟩
  | amountDrops coded drops small =>
      obtain ⟨read, reads, _⟩ := CliTools.exists_reads 6 (by decide) (by decide) coded
        (fits_amount small) rfl
      exact ⟨read, reads⟩
  | blob coded short =>
      obtain ⟨read, reads, _⟩ := exists_reads_blob coded short
      exact ⟨read, reads⟩
  | accountId coded id =>
      have sized := id.toList_length
      have fits : Fits 8 id.toList := .bytes (.inr (.inl rfl)) (by rw [sized]; decide)
      have data : lengthPrefix 8 id.toList.length ++ id.toList = 20 :: id.toList := by
        rw [sized]
        rfl
      obtain ⟨read, reads, _⟩ := CliTools.exists_reads 8 (by decide) (by decide) coded fits data
      exact ⟨read, reads⟩

/-- Fields that are made are written as a sequence of fields that reads back as them. -/
theorem exists_readAll {fields : List XrplField} (made : ∀ field ∈ fields, Made field)
    : ∃ read, List.Forall₂ Reads fields read
        ∧ serialized read = fields.flatMap XrplField.serialize := by
  induction fields with
  | nil => exact ⟨[], .nil, rfl⟩
  | cons field rest ih =>
      obtain ⟨madeField, madeRest⟩ := List.forall_mem_cons.mp made
      obtain ⟨first, reads⟩ := madeField.exists_reads
      obtain ⟨others, all, written⟩ := ih madeRest
      refine ⟨first :: others, .cons reads all, ?_⟩
      rw [serialized_cons, written, List.flatMap_cons, reads.bytes]

theorem mem_canonical {fields : List XrplField} {field : XrplField}
    : field ∈ canonical fields ↔ field ∈ fields :=
  (StableSort.sortBy_perm XrplField.sortKey fields).mem_iff

/-- What is written determines the field. -/
theorem Reads.unique {left right : XrplField} {read : Field} (leftReads : Reads left read)
    (rightReads : Reads right read)
    : left = right := by
  obtain ⟨leftType, leftCode, leftData⟩ := left
  obtain ⟨rightType, rightCode, rightData⟩ := right
  have types : leftType = rightType :=
    UInt8.toNat_inj.mp (leftReads.typeCode.symm.trans rightReads.typeCode)
  have codes : leftCode = rightCode :=
    UInt8.toNat_inj.mp (leftReads.fieldCode.symm.trans rightReads.fieldCode)
  have data : leftData = rightData := leftReads.value.symm.trans rightReads.value
  rw [types, codes, data]

theorem Reads.all_unique {left right : List XrplField} {read : List Field}
    (leftReads : List.Forall₂ Reads left read) (rightReads : List.Forall₂ Reads right read)
    : left = right := by
  induction leftReads generalizing right with
  | nil =>
      cases rightReads
      rfl
  | cons first _ ih =>
      cases rightReads with
      | cons second others => rw [first.unique second, ih others]

theorem Reads.exists_written {written : List XrplField} {read : List Field}
    (reads : List.Forall₂ Reads written read) {field : Field} (member : field ∈ read)
    : ∃ source ∈ written, Reads source field := by
  induction reads with
  | nil => exact absurd member List.not_mem_nil
  | @cons first _ rest _ head _ ih =>
      rcases List.mem_cons.mp member with rfl | later
      · exact ⟨first, List.mem_cons_self, head⟩
      · obtain ⟨source, inside, found⟩ := ih later
        exact ⟨source, List.mem_cons_of_mem first inside, found⟩

-----------------------------------------------------------------------------------------
-- The list of signers behind the fields
-----------------------------------------------------------------------------------------

/-- Bytes that no field starts with: none, or the header of the list of signers. -/
def Ends (suffix : List UInt8) : Prop := suffix = [] ∨ suffix.head? = some 0xF4

theorem ends_serializeSignerEntries (entries : List (AccountId × UInt16))
    : Ends (serializeSignerEntries entries) :=
  .inr rfl

/-- A field is told from what may follow the fields by its first byte. -/
theorem Reads.head_ne {written : XrplField} {read : Field} (reads : Reads written read)
    {rest suffix : List UInt8} (ends : Ends suffix)
    : read.bytes ++ rest ≠ suffix := by
  intro same
  have half : read.typeCode.half ≤ read.typeCode.value := by
    cases read.typeCode with
    | short value range => exact le_rfl
    | own byte => exact Nat.zero_le _
  have halves := read.fieldCode.half_lt
  have known := reads.known
  have value := reads.typeCode
  rcases ends with rfl | isHeader
  · exact bytes_ne_nil read (List.append_eq_nil_iff.mp same).1
  · rw [← same] at isHeader
    have first : UInt8.ofNat (16 * read.typeCode.half + read.fieldCode.half) = 0xF4 :=
      Option.some.inj isHeader
    have numbers := congrArg UInt8.toNat first
    rw [toNat_ofNat (by omega), show (0xF4 : UInt8).toNat = 244 from rfl] at numbers
    omega

/-- Fields and what follows them are told apart. -/
theorem serialized_append_inj {left right : List Field} {leftWritten rightWritten : List XrplField}
    {leftSuffix rightSuffix : List UInt8} (leftReads : List.Forall₂ Reads leftWritten left)
    (rightReads : List.Forall₂ Reads rightWritten right) (leftEnds : Ends leftSuffix)
    (rightEnds : Ends rightSuffix)
    (same : serialized left ++ leftSuffix = serialized right ++ rightSuffix)
    : left = right ∧ leftSuffix = rightSuffix := by
  induction leftReads generalizing right rightWritten with
  | nil =>
      cases rightReads with
      | nil => exact ⟨rfl, same⟩
      | cons first _ =>
          rw [serialized_cons, List.append_assoc] at same
          exact absurd same.symm (first.head_ne leftEnds)
  | cons first _ ih =>
      cases rightReads with
      | nil =>
          rw [serialized_cons, List.append_assoc] at same
          exact absurd same (first.head_ne rightEnds)
      | cons second others =>
          rw [serialized_cons, serialized_cons, List.append_assoc, List.append_assoc] at same
          obtain ⟨rfl, rest⟩ := bytes_cancel same
          obtain ⟨rfl, suffixes⟩ := ih others rest
          exact ⟨rfl, suffixes⟩

theorem length_signerEntryBytes (entry : AccountId × UInt16)
    : (signerEntryBytes entry).length = 27 := by
  have sized := entry.1.toList_length
  simp only [signerEntryBytes, List.length_append, List.length_cons, List.length_nil, sized,
    length_beBytes]
  rfl

theorem signerEntryBytes_injective {left right : AccountId × UInt16}
    (same : signerEntryBytes left = signerEntryBytes right)
    : left = right := by
  have behindHeader := (List.append_right_inj _).mp ((List.append_right_inj _).mp same)
  obtain ⟨weights, rest⟩ := List.append_inj behindHeader
    ((length_beBytes _ _).trans (length_beBytes _ _).symm)
  have accounts := (List.append_inj ((List.append_right_inj _).mp rest)
    (by simp [left.1.toList_length, right.1.toList_length])).1
  have leftFits : left.2.toNat < 256 ^ 2 := left.2.toNat_lt
  have rightFits : right.2.toNat < 256 ^ 2 := right.2.toNat_lt
  have values := congrArg beValue weights
  rw [beValue_beBytes, beValue_beBytes, Nat.mod_eq_of_lt leftFits,
    Nat.mod_eq_of_lt rightFits] at values
  exact Prod.ext (List.Vector.eq _ _ (List.cons.inj accounts).2) (UInt16.toNat_inj.mp values)

/-- The list of signers is determined by its bytes: entries of one length up to the marker. -/
theorem serializeSignerEntries_injective {left right : List (AccountId × UInt16)}
    (same : serializeSignerEntries left = serializeSignerEntries right)
    : left = right := by
  have entries := (List.append_right_inj _).mp same
  clear same
  induction left generalizing right with
  | nil =>
      cases right with
      | nil => rfl
      | cons entry rest => cases (List.cons.inj entries).1
  | cons entry rest ih =>
      cases right with
      | nil => cases (List.cons.inj entries).1
      | cons other others =>
          rw [List.flatMap_cons, List.flatMap_cons, List.append_assoc, List.append_assoc] at entries
          obtain ⟨first, later⟩ := List.append_inj entries
            ((length_signerEntryBytes entry).trans (length_signerEntryBytes other).symm)
          rw [signerEntryBytes_injective first, ih later]

-----------------------------------------------------------------------------------------
-- Transactions and their bytes
-----------------------------------------------------------------------------------------

/-- The bytes of a transaction: its fields in canonical order, as a reader finds them, and what
follows them.
-/
theorem exists_serializeFields {fields : List XrplField} (made : ∀ field ∈ fields, Made field)
    (suffix : Option (List UInt8))
    : ∃ read, List.Forall₂ Reads (canonical fields) read
        ∧ serializeFields fields suffix = serialized read ++ suffix.getD [] := by
  obtain ⟨read, reads, written⟩ :=
    exists_readAll (fun field member => made field (mem_canonical.mp member))
  exact ⟨read, reads, by rw [serializeFields, written]⟩

/-- What follows the fields starts where a reader tells the list of signers from a field. -/
theorem ends_signers (signers : Option (List (AccountId × UInt16)))
    : Ends ((signers.map serializeSignerEntries).getD []) := by
  cases signers with
  | none => exact .inl rfl
  | some entries => exact ends_serializeSignerEntries entries

/-- Two transactions with the same bytes have the same fields, in any order, and the same list of
signers. Witness: a reader finds the fields in canonical order and then the header of the list.
-/
theorem perm_of_serializeFields_eq {left right : List XrplField}
    (leftMade : ∀ field ∈ left, Made field) (rightMade : ∀ field ∈ right, Made field)
    {leftSigners rightSigners : Option (List (AccountId × UInt16))}
    (same
      : serializeFields left (leftSigners.map serializeSignerEntries)
        = serializeFields right (rightSigners.map serializeSignerEntries))
    : left.Perm right ∧ leftSigners = rightSigners := by
  obtain ⟨leftRead, leftReads, leftBytes⟩ :=
    exists_serializeFields leftMade (leftSigners.map serializeSignerEntries)
  obtain ⟨rightRead, rightReads, rightBytes⟩ :=
    exists_serializeFields rightMade (rightSigners.map serializeSignerEntries)
  rw [leftBytes, rightBytes] at same
  obtain ⟨rfl, suffixes⟩ := serialized_append_inj leftReads rightReads (ends_signers leftSigners)
    (ends_signers rightSigners) same
  have ordered := Reads.all_unique leftReads rightReads
  refine ⟨?_, ?_⟩
  · have leftPerm := StableSort.sortBy_perm XrplField.sortKey left
    have rightPerm := StableSort.sortBy_perm XrplField.sortKey right
    rw [← canonical, ordered] at leftPerm
    exact leftPerm.symm.trans rightPerm
  · match leftSigners, rightSigners with
    | none, none => rfl
    | none, some entries => cases suffixes
    | some entries, none => cases suffixes
    | some entries, some others => rw [serializeSignerEntries_injective suffixes]

/-- Two transactions with fields of different codes have the same bytes exactly if they have
the same fields, in any order, and the same list of signers.
-/
theorem transaction_bytes_iff {left right : List XrplField}
    (leftMade : ∀ field ∈ left, Made field) (rightMade : ∀ field ∈ right, Made field)
    (distinct : (left.map XrplField.sortKey).Nodup)
    (leftSigners rightSigners : Option (List (AccountId × UInt16)))
    : serializeFields left (leftSigners.map serializeSignerEntries)
        = serializeFields right (rightSigners.map serializeSignerEntries)
      ↔ left.Perm right ∧ leftSigners = rightSigners := by
  constructor
  · intro same
    exact perm_of_serializeFields_eq leftMade rightMade same
  · rintro ⟨perm, rfl⟩
    rw [serializeFields, serializeFields, canonical, canonical,
      StableSort.sortBy_eq_of_perm XrplField.sortKey perm distinct]

/-- A `SignerListSet` before it is signed. -/
def sampleFields : List XrplField :=
  [.uint16 2 12, .uint32 4 7, .uint32 35 2, .amountDrops 8 12,
    .accountId 1 (List.Vector.replicate 20 1)]

theorem sampleFields_made : ∀ field ∈ sampleFields, Made field := by
  intro field member
  simp only [sampleFields, List.mem_cons, List.not_mem_nil, or_false] at member
  rcases member with rfl | rfl | rfl | rfl | rfl
  · exact .uint16 (by decide) 12
  · exact .uint32 (by decide) 7
  · exact .uint32 (by decide) 2
  · exact .amountDrops (by decide) 12 (by decide)
  · exact .accountId (by decide) _

/-- Witness: `transaction_bytes_iff` for the same fields the other way round. -/
theorem transaction_bytes_iff_reversed
    : serializeFields sampleFields (some (serializeSignerEntries []))
      = serializeFields sampleFields.reverse (some (serializeSignerEntries [])) := by
  have reversed : ∀ field ∈ sampleFields.reverse, Made field :=
    fun field member => sampleFields_made field (List.mem_reverse.mp member)
  apply (transaction_bytes_iff sampleFields_made reversed (by decide) (some []) (some [])).mpr
  exact ⟨(List.reverse_perm sampleFields).symm, rfl⟩

-----------------------------------------------------------------------------------------
-- What a signature covers
-----------------------------------------------------------------------------------------

def txnSignatureKey : ℕ ×ₗ ℕ := toLex (7, 4)

/-- A field of a new code goes to its place between the others, which stay as they are. -/
theorem exists_canonical_split {fields : List XrplField} {added : XrplField}
    (absent : ∀ field ∈ fields, field.sortKey ≠ added.sortKey)
    : ∃ before after, canonical (canonical fields ++ [added]) = before ++ added :: after
        ∧ before ++ after = canonical fields := by
  have member : added ∈ canonical (canonical fields ++ [added]) :=
    mem_canonical.mpr (List.mem_append_right _ (List.mem_singleton_self added))
  obtain ⟨before, after, split⟩ := List.append_of_mem member
  have others : ∀ field ∈ canonical fields, field.sortKey ≠ added.sortKey :=
    fun field inside => absent field (mem_canonical.mp inside)
  -- only the added field has its code
  have alone : StableSort.ofKey XrplField.sortKey added.sortKey (before ++ added :: after)
      = [added] := by
    rw [← split, canonical, StableSort.ofKey_sortBy, StableSort.ofKey, List.filter_append,
      List.filter_eq_nil_iff.mpr (fun field inside => by simpa using others field inside)]
    simp
  rw [StableSort.ofKey, List.filter_append, List.filter_cons_of_pos (by simp)] at alone
  obtain ⟨noneBefore, noneAfter⟩ : StableSort.ofKey XrplField.sortKey added.sortKey before = []
      ∧ StableSort.ofKey XrplField.sortKey added.sortKey after = [] := by
    have lengths := congrArg List.length alone
    simp only [List.length_append, List.length_cons, List.length_nil] at lengths
    exact ⟨List.length_eq_zero_iff.mp (by rw [StableSort.ofKey]; omega),
      List.length_eq_zero_iff.mp (by rw [StableSort.ofKey]; omega)⟩
  have kept : ∀ part : List XrplField,
      StableSort.ofKey XrplField.sortKey added.sortKey part = []
      → part.filter (fun field => decide (field.sortKey ≠ added.sortKey)) = part := by
    intro part free
    refine List.filter_eq_self.mpr (fun field inside => decide_eq_true (fun same => ?_))
    have found : field ∈ StableSort.ofKey XrplField.sortKey added.sortKey part :=
      List.mem_filter.mpr ⟨inside, decide_eq_true same⟩
    rw [free] at found
    exact absurd found List.not_mem_nil
  refine ⟨before, after, split, ?_⟩
  have filtered := StableSort.sortBy_filter XrplField.sortKey
    (fun value => decide (value ≠ added.sortKey)) (canonical fields ++ [added])
  rw [← canonical, split, List.filter_append, List.filter_cons_of_neg (by simp),
    kept before noneBefore, kept after noneAfter, List.filter_append,
    List.filter_eq_self.mpr (fun field inside => decide_eq_true (others field inside)),
    List.filter_cons_of_neg (by simp), List.filter_nil, List.append_nil] at filtered
  rw [filtered, canonical, StableSort.sortBy_eq_iff]
  exact fun value => StableSort.ofKey_sortBy XrplField.sortKey value fields

/-- What a key signs of a transaction: the fields with the key, behind the prefix. -/
def signedBytes (keypair : XrplKeypair) (fields : List XrplField)
    (arraySuffix : Option (List UInt8)) : List UInt8 :=
  hashPrefixTxSign ++ serializeFields (fields ++ [.blob 3 keypair.pubkeyBytes]) arraySuffix

/-- The key is a field like any other. -/
theorem made_keyed {keypair : XrplKeypair} {fields : List XrplField}
    (made : ∀ field ∈ fields, Made field) (keyFits : keypair.pubkeyBytes.length ≤ 12480)
    : ∀ field ∈ fields ++ [.blob 3 keypair.pubkeyBytes], Made field := by
  intro field member
  rcases List.mem_append.mp member with old | new
  · exact made field old
  · rw [List.mem_singleton.mp new]
    exact .blob (by decide) keyFits

/-- A signed transaction has one signature and that is of all its other fields: taking it out of
what is submitted leaves what was signed. No transaction with other fields, another key or other
signers has the same signed bytes.
-/
theorem signature_covers_transaction {sha512 : List UInt8 → List UInt8} {keypair : XrplKeypair}
    {fields : List XrplField} {signers : Option (List (AccountId × UInt16))} {blob : List UInt8}
    (made : ∀ field ∈ fields, Made field)
    (unsigned : ∀ field ∈ fields, field.sortKey ≠ txnSignatureKey)
    (keyFits : keypair.pubkeyBytes.length ≤ 12480)
    (signatureFits
      : ∀ data signature, keypair.signData sha512 data = .ok signature
        → signature.length ≤ 12480)
    (signed
      : signXrplTx sha512 keypair fields (signers.map serializeSignerEntries) = .ok blob)
    : (∃ before signature after,
        blob
          = serialized (before ++ signature :: after)
            ++ (signers.map serializeSignerEntries).getD []
        ∧ signature.typeCode.value = 7 ∧ signature.fieldCode.value = 4
        ∧ keypair.signData sha512
              (signedBytes keypair fields (signers.map serializeSignerEntries))
            = .ok signature.value
        ∧ signedBytes keypair fields (signers.map serializeSignerEntries)
          = hashPrefixTxSign
            ++ (serialized (before ++ after) ++ (signers.map serializeSignerEntries).getD [])
        ∧ List.Forall₂ Reads (canonical (fields ++ [.blob 3 keypair.pubkeyBytes]))
            (before ++ after)
        ∧ ∀ field ∈ before ++ after,
            ¬ (field.typeCode.value = 7 ∧ field.fieldCode.value = 4))
      ∧ ∀ (other : XrplKeypair) (otherFields : List XrplField)
          (otherSigners : Option (List (AccountId × UInt16))),
          (∀ field ∈ otherFields, Made field) → other.pubkeyBytes.length ≤ 12480 →
          signedBytes other otherFields (otherSigners.map serializeSignerEntries)
            = signedBytes keypair fields (signers.map serializeSignerEntries) →
          (otherFields ++ [XrplField.blob 3 other.pubkeyBytes]).Perm
              (fields ++ [XrplField.blob 3 keypair.pubkeyBytes])
            ∧ otherSigners = signers := by
  have keyed := made_keyed made keyFits
  refine ⟨?_, fun other otherFields otherSigners otherMade otherFits same =>
    perm_of_serializeFields_eq (made_keyed otherMade otherFits) keyed
      (List.append_cancel_left same)⟩
  obtain ⟨sigBytes, isSignature, written⟩ := Except.bind_eq_ok_iff.mp signed
  have absent : ∀ field ∈ fields ++ [XrplField.blob 3 keypair.pubkeyBytes],
      field.sortKey ≠ (XrplField.blob 4 sigBytes).sortKey := by
    intro field member
    rcases List.mem_append.mp member with old | new
    · exact unsigned field old
    · rw [List.mem_singleton.mp new]
      show (toLex (7, 3) : ℕ ×ₗ ℕ) ≠ toLex (7, 4)
      decide
  obtain ⟨front, back, split, joined⟩ := exists_canonical_split absent
  have madeParts : ∀ field ∈ front ++ back, Made field := fun field member =>
    keyed field (mem_canonical.mp (joined ▸ member))
  obtain ⟨before, readsBefore, writtenBefore⟩ := exists_readAll
    (fun field member => madeParts field (List.mem_append_left back member))
  obtain ⟨after, readsAfter, writtenAfter⟩ := exists_readAll
    (fun field member => madeParts field (List.mem_append_right front member))
  obtain ⟨signature, readsSignature, isValue⟩ :=
    exists_reads_blob (show (4 : UInt8) ≠ 0 by decide) (signatureFits _ _ isSignature)
  have reads : List.Forall₂ Reads (front ++ back) (before ++ after) :=
    List.rel_append readsBefore readsAfter
  rw [joined] at reads
  refine ⟨before, signature, after, ?_, readsSignature.typeCode, readsSignature.fieldCode,
    isValue ▸ isSignature, ?_, reads, ?_⟩
  · rw [← Except.ok.inj written, serializeFields, split, serialized_append, serialized_cons,
      writtenBefore, writtenAfter, readsSignature.bytes, List.flatMap_append, List.flatMap_cons]
  · rw [signedBytes, serialized_append, writtenBefore, writtenAfter, ← List.flatMap_append, joined,
      ← serializeFields]
  · intro field member codes
    obtain ⟨written, isWritten, reads⟩ := Reads.exists_written reads member
    refine absent written (mem_canonical.mp isWritten) ?_
    show toLex (written.typeCode.toNat, written.fieldCode.toNat) = _
    rw [← reads.typeCode, ← reads.fieldCode, codes.1, codes.2]
    rfl

/-- A key that signs everything alike. -/
def sampleKeypair : XrplKeypair where
  pubkeyBytes := List.replicate 33 2
  key := .ed25519 (fun _ => List.replicate 64 3)

/-- Witness: `signature_covers_transaction` for a `SignerListSet` with two signers. -/
theorem signature_covers_transaction_sample
    : ∃ signers blob before signature after,
        signXrplTx id sampleKeypair sampleFields (some (serializeSignerEntries signers)) = .ok blob
        ∧ signers.length = 2
        ∧ blob = serialized (before ++ signature :: after) ++ serializeSignerEntries signers
        ∧ signature.typeCode.value = 7 ∧ signature.fieldCode.value = 4 := by
  have fits : ∀ data signature, sampleKeypair.signData id data = .ok signature
      → signature.length ≤ 12480 := by
    intro data signature made
    cases made
    show (List.replicate 64 (3 : UInt8)).length ≤ 12480
    decide
  obtain ⟨⟨before, signature, after, whole, type, code, _⟩, _⟩ :=
    @signature_covers_transaction id sampleKeypair sampleFields
      (some [(List.Vector.replicate 20 2, 1), (List.Vector.replicate 20 3, 1)]) _ sampleFields_made
      (by decide) (by decide) fits rfl
  exact ⟨[(List.Vector.replicate 20 2, 1), (List.Vector.replicate 20 3, 1)], _, before, signature,
    after, rfl, rfl, whole, type, code⟩

end CliTools

end PerpDex
