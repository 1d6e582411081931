import PerpDex.Lib.Checked
import PerpDex.Spv.Validation

/-! How the signature of a validation is stripped.
A validation is a sequence of fields, and the walk finds that sequence. It keeps the last
signature it meets, so what is left has no signature exactly if there was but one.
-/

namespace PerpDex.SpvProof

open Checked

-----------------------------------------------------------------------------------------
-- Accesses by index
-----------------------------------------------------------------------------------------

namespace Indexed

def record (data : List UInt8) (walk : Walk) (field : StField) : Run String Walk :=
  if field.typeCode = 7 ∧ field.fieldCode = 3 then do
    let size ← minus field.next field.valueStart
    if size ≠ 33 then throw "sfSigningPubKey not 33 bytes"
    else do
      let value ← subslice data field.valueStart field.next
      let pk ← copyFromSlice 33 value
      pure { walk with pubkey := some pk }
  else if field.typeCode = 7 ∧ field.fieldCode = 6 then do
    let value ← subslice data field.valueStart field.next
    pure { walk with sig := some { sig := value, start := field.idStart, stop := field.next } }
  else pure walk

/-- So many rounds of the loop over the fields; a loop that is not over by then has not ended. -/
def walkFields (data : List UInt8) : (rounds pos : Nat) → Walk → Run String Walk
  | 0, pos, walk => if pos < data.length then crash else pure walk
  | rounds + 1, pos, walk =>
      if pos < data.length then do
        let field ← settled (okOr (stNext data pos) "STValidation walk")
        let walk ← record data walk field
        walkFields data rounds field.next walk
      else pure walk

def validationEntry (rounds : Nat) (data : List UInt8) : Run String ValidationEntry := do
  let walk ← walkFields data rounds 0 { pubkey := none, sig := none }
  let pubkey ← settled (okOr walk.pubkey "no sfSigningPubKey")
  let field ← settled (okOr walk.sig "no sfSignature")
  let taken ← minus field.stop field.start
  let _capacity ← minus data.length taken
  let front ← subslice data 0 field.start
  let back ← subslice data field.stop data.length
  pure { pubkey, sig := field.sig, vbody := front ++ back }

end Indexed

-----------------------------------------------------------------------------------------
-- Fields
-----------------------------------------------------------------------------------------

/-- A code as a header writes it: in half of its first byte, or in a byte of its own. -/
inductive Code where
  | short (value : Nat) (range : 1 ≤ value ∧ value ≤ 15)
  | own (byte : UInt8)

def Code.value : Code → Nat
  | .short value _ => value
  | .own byte => byte.toNat

def Code.half : Code → Nat
  | .short value _ => value
  | .own _ => 0

def Code.tail : Code → List UInt8
  | .short _ _ => []
  | .own byte => [byte]

/-- The lengths that can be written. -/
def maxLength : Nat := 12481 + 15 * 65536

/-- A length in one, two or three bytes. -/
def lengthBytes (length : Nat) : List UInt8 :=
  if length ≤ 192 then [UInt8.ofNat length]
  else if length ≤ 12480 then
    [UInt8.ofNat (193 + (length - 193) / 256), UInt8.ofNat ((length - 193) % 256)]
  else
    [UInt8.ofNat (241 + (length - 12481) / 65536), UInt8.ofNat ((length - 12481) / 256 % 256),
      UInt8.ofNat ((length - 12481) % 256)]

/-- What stands in front of a value of some length: its length, for the types without a length
of their own.
-/
def lengthPrefix (typeCode length : Nat) : List UInt8 :=
  if typeCode = 7 ∨ typeCode = 8 ∨ typeCode = 19 then lengthBytes length else []

/-- The values of the types that a validation carries: numbers and hashes of fixed widths, an
amount of 48 bytes when its first bit is set and else of 8, and bytes of any length.
-/
inductive Fits : Nat → List UInt8 → Prop where
  | uint16 {value : List UInt8} (length : value.length = 2) : Fits 1 value
  | uint32 {value : List UInt8} (length : value.length = 4) : Fits 2 value
  | uint64 {value : List UInt8} (length : value.length = 8) : Fits 3 value
  | hash128 {value : List UInt8} (length : value.length = 16) : Fits 4 value
  | hash256 {value : List UInt8} (length : value.length = 32) : Fits 5 value
  | uint8 {value : List UInt8} (length : value.length = 1) : Fits 16 value
  | amount {first : UInt8} {rest : List UInt8}
      (length : (first :: rest).length = if 128 ≤ first.toNat then 48 else 8)
      : Fits 6 (first :: rest)
  | bytes {typeCode : Nat} {value : List UInt8}
      (isVariable : typeCode = 7 ∨ typeCode = 8 ∨ typeCode = 19)
      (length : value.length < maxLength)
      : Fits typeCode value

/-- A well-formed field. -/
structure Field where
  typeCode : Code
  fieldCode : Code
  value : List UInt8
  fits : Fits typeCode.value value

/-- What stands in front of the value. -/
def Field.header (field : Field) : List UInt8 :=
  UInt8.ofNat (16 * field.typeCode.half + field.fieldCode.half)
    :: (field.typeCode.tail ++ (field.fieldCode.tail
      ++ lengthPrefix field.typeCode.value field.value.length))

def Field.bytes (field : Field) : List UInt8 := field.header ++ field.value

def serialized (fields : List Field) : List UInt8 := fields.flatMap Field.bytes

/-- sfSigningPubKey -/
def Field.IsSigningPubKey (field : Field) : Prop :=
  field.typeCode.value = 7 ∧ field.fieldCode.value = 3

/-- sfSignature -/
def Field.IsSignature (field : Field) : Prop :=
  field.typeCode.value = 7 ∧ field.fieldCode.value = 6

instance (field : Field) : Decidable field.IsSigningPubKey :=
  inferInstanceAs (Decidable (_ ∧ _))

instance (field : Field) : Decidable field.IsSignature :=
  inferInstanceAs (Decidable (_ ∧ _))

/-- Where a field lies. -/
def Field.placed (field : Field) (pos : Nat) : StField where
  typeCode := field.typeCode.value
  fieldCode := field.fieldCode.value
  idStart := pos
  valueStart := pos + field.header.length
  next := pos + field.bytes.length

-----------------------------------------------------------------------------------------
-- Exact stripping
-----------------------------------------------------------------------------------------

/-- The data is a sequence of fields with one signature, which is taken out of its place, and
with one signing key.
-/
structure Stripped (data : List UInt8) (entry : ValidationEntry) (before : List Field)
    (signature : Field) (after : List Field) : Prop where
  whole : data = serialized (before ++ signature :: after)
  isSignature : signature.IsSignature
  sig : entry.sig = signature.value
  vbody : entry.vbody = serialized (before ++ after)
  unsigned : ∀ field ∈ before ++ after, ¬ field.IsSignature
  restored : data = entry.vbody.take (serialized before).length
    ++ (signature.bytes ++ entry.vbody.drop (serialized before).length)
  pubkey : ∃ key, (before ++ signature :: after).filter Field.IsSigningPubKey = [key]
    ∧ entry.pubkey.toList = key.value

/-- However many rounds the loop may take, from the number of bytes on, it ends with every
access in range, and an entry it gives has its signature stripped.
-/
structure StripsExactly (data : List UInt8) : Prop where
  ends : ∀ rounds, data.length ≤ rounds →
    (Indexed.validationEntry rounds data).run = some (validationEntry data)
  exactly : ∀ entry, validationEntry data = .ok entry →
    ∃ before signature after, Stripped data entry before signature after

/-- A sequence of fields that yields an entry: every signing key has 33 bytes, and there are a
signing key and a signature.
-/
structure Yields (fields : List Field) : Prop where
  sized : ∀ field ∈ fields, field.IsSigningPubKey → field.value.length = 33
  keyed : ∃ field ∈ fields, field.IsSigningPubKey
  signed : ∃ field ∈ fields, field.IsSignature

-----------------------------------------------------------------------------------------
-- The walk ends in range
-----------------------------------------------------------------------------------------

/-- A field starts where it is looked for, and its value ends with it inside the data. -/
structure StField.Inside (field : StField) (data : List UInt8) (pos : Nat) : Prop where
  start : field.idStart = pos
  ahead : pos < field.next
  ordered : field.valueStart ≤ field.next
  inside : field.next ≤ data.length

theorem stNext_inside {data : List UInt8} {pos : Nat} {field : StField}
    (found : stNext data pos = some field)
    : field.Inside data pos := by
  obtain ⟨ahead, inside⟩ := stNext_progress found
  obtain ⟨h, _, found⟩ := Option.bind_eq_some_iff.mp found
  obtain ⟨type, _, found⟩ := Option.bind_eq_some_iff.mp found
  obtain ⟨code, _, found⟩ := Option.bind_eq_some_iff.mp found
  obtain ⟨extent, _, found⟩ := Option.bind_eq_some_iff.mp found
  split at found
  case isTrue =>
    cases found
    exact { start := rfl, ahead, ordered := Nat.le_add_right _ _, inside }
  case isFalse => cases found

theorem length_slice {data : List UInt8} {start stop : Nat} (inside : stop ≤ data.length)
    : (slice data start stop).length = stop - start := by
  rw [slice, List.length_drop, List.length_take, Nat.min_eq_left inside]

/-- Keeping a field stays in range. -/
theorem record_settled {data : List UInt8} {pos : Nat} {field : StField}
    (within : field.Inside data pos) (walk : Walk)
    : Indexed.record data walk field = settled (walk.record data field) := by
  have taken : (subslice data field.valueStart field.next : Run String (List UInt8))
      = settled (.ok (slice data field.valueStart field.next)) :=
    subslice_eq within.ordered within.inside
  have length : (slice data field.valueStart field.next).length = field.next - field.valueStart :=
    length_slice within.inside
  unfold Indexed.record Walk.record
  dsimp only
  by_cases isKey : field.typeCode = 7 ∧ field.fieldCode = 3
  · rw [if_pos isKey, if_pos isKey, minus_eq within.ordered, settled_ok_bind]
    by_cases sized : field.next - field.valueStart = 33
    · rw [if_neg (not_not.mpr sized), taken, settled_ok_bind, copyFromSlice,
        dif_pos (length.trans sized), dif_pos (length.trans sized)]
      rfl
    · rw [if_pos sized, dif_neg (fun same => sized (length.symm.trans same))]
      rfl
  · rw [if_neg isKey, if_neg isKey]
    by_cases isSig : field.typeCode = 7 ∧ field.fieldCode = 6
    · rw [if_pos isSig, if_pos isSig, taken]
      rfl
    · rw [if_neg isSig, if_neg isSig]
      rfl

/-- A round for every byte that is left is enough, since every field takes one. -/
theorem walkFields_settled (data : List UInt8) {rounds pos : Nat}
    (enough : data.length - pos ≤ rounds) (walk : Walk)
    : Indexed.walkFields data rounds pos walk = settled (walkFields data rounds pos walk) := by
  induction rounds generalizing pos walk with
  | zero =>
      rw [Indexed.walkFields, if_neg (by omega)]
      rfl
  | succ rounds ih =>
      rw [Indexed.walkFields, walkFields]
      by_cases left : pos < data.length
      · rw [if_pos left, if_pos left]
        cases found : stNext data pos with
        | none => rfl
        | some field =>
            have within := stNext_inside found
            have ahead := within.ahead
            show (Indexed.record data walk field >>= _) = settled (walk.record data field >>= _)
            rw [record_settled within, ← settled_bind]
            refine congrArg (settled (walk.record data field) >>= ·) (funext fun next => ?_)
            exact ih (by omega) next
      · rw [if_neg left, if_neg left]
        rfl

/-- The signature that a walk holds lies in the data. -/
def Walk.SigInside (data : List UInt8) (walk : Walk) : Prop :=
  ∀ field, walk.sig = some field → field.start ≤ field.stop ∧ field.stop ≤ data.length

theorem record_sigInside {data : List UInt8} {pos : Nat} {field : StField}
    (within : field.Inside data pos) {walk next : Walk} (before : walk.SigInside data)
    (recorded : walk.record data field = .ok next)
    : next.SigInside data := by
  have start := within.start
  have ahead := within.ahead
  unfold Walk.record at recorded
  dsimp only at recorded
  split_ifs at recorded with isKey sized isSig
  · cases recorded
    exact before
  · cases recorded
    intro kept same
    cases same
    exact ⟨by show field.idStart ≤ field.next; omega, within.inside⟩
  · cases recorded
    exact before

theorem walkFields_sigInside {data : List UInt8} {rounds pos : Nat} {walk result : Walk}
    (before : walk.SigInside data) (walked : walkFields data rounds pos walk = .ok result)
    : result.SigInside data := by
  induction rounds generalizing pos walk with
  | zero =>
      cases walked
      exact before
  | succ rounds ih =>
      rw [walkFields] at walked
      split at walked
      case isFalse =>
        cases walked
        exact before
      case isTrue =>
        obtain ⟨field, found, walked⟩ := Except.bind_eq_ok_iff.mp walked
        obtain ⟨next, recorded, walked⟩ := Except.bind_eq_ok_iff.mp walked
        exact ih (record_sigInside (stNext_inside (okOr_eq_ok_iff.mp found)) before recorded) walked

/-- The whole extraction ends with every access in range. -/
theorem validationEntry_settled (data : List UInt8) {rounds : Nat}
    (enough : data.length ≤ rounds)
    : Indexed.validationEntry rounds data = settled (validationEntry data) := by
  have fuel :=
    walkFields_fuel data { pubkey := none, sig := none } (Nat.sub_le data.length 0) enough
  rw [Indexed.validationEntry, validationEntry, walkFields_settled data (by omega), fuel]
  cases walked : walkFields data data.length 0 { pubkey := none, sig := none } with
  | error message => rfl
  | ok walk =>
      have inside : walk.SigInside data :=
        walkFields_sigInside (fun _ same => by cases same) walked
      cases hasKey : walk.pubkey with
      | none =>
          show (settled (okOr walk.pubkey _) >>= _) = settled (okOr walk.pubkey _ >>= _)
          rw [hasKey]
          rfl
      | some pubkey =>
          cases hasSig : walk.sig with
          | none =>
              show (settled (okOr walk.pubkey _) >>= _) = settled (okOr walk.pubkey _ >>= _)
              rw [hasKey, hasSig]
              rfl
          | some field =>
              obtain ⟨ordered, within⟩ := inside field hasSig
              show (settled (okOr walk.pubkey _) >>= _) = settled (okOr walk.pubkey _ >>= _)
              rw [hasKey, hasSig]
              show (minus field.stop field.start >>= _) = _
              rw [minus_eq ordered, settled_ok_bind, minus_eq (by omega), settled_ok_bind,
                subslice_eq (Nat.zero_le _) (by omega), settled_ok_bind,
                subslice_eq within (le_refl _), settled_ok_bind, List.take_length]
              rfl

-----------------------------------------------------------------------------------------
-- Reading a field that is there
-----------------------------------------------------------------------------------------

theorem getElem?_at (front : List UInt8) (byte : UInt8) (rest : List UInt8)
    : (front ++ byte :: rest)[front.length]? = some byte := by
  rw [List.getElem?_append_right (le_refl _), Nat.sub_self]
  rfl

theorem Code.half_lt (code : Code) : code.half < 16 := by
  cases code with
  | short value range => exact Nat.lt_succ_of_le range.2
  | own byte => exact Nat.zero_lt_succ 15

theorem codeAt_tail (code : Code) (front rest : List UInt8)
    : codeAt (front ++ (code.tail ++ rest)) code.half front.length
      = some (code.value, (front ++ code.tail).length) := by
  cases code with
  | short value range =>
      have positive : value ≠ 0 := by omega
      rw [codeAt, Code.half, if_neg positive, Code.tail, List.append_nil]
      rfl
  | own byte =>
      rw [codeAt, Code.half, if_pos rfl, Code.tail, List.cons_append, List.nil_append, getElem?_at,
        List.length_append]
      rfl

theorem toNat_ofNat {value : Nat} (small : value < 256) : (UInt8.ofNat value).toNat = value := by
  rw [UInt8.toNat_ofNat']
  exact Nat.mod_eq_of_lt small

theorem variableExtent_lengthBytes {length : Nat} (short : length < maxLength)
    (front rest : List UInt8)
    : variableExtent (front ++ (lengthBytes length ++ rest)) front.length
      = some ((front ++ lengthBytes length).length, length) := by
  have bound : length < 12481 + 15 * 65536 := short
  unfold lengthBytes
  by_cases one : length ≤ 192
  · rw [if_pos one, variableExtent, List.cons_append, getElem?_at]
    simp only [Option.bind_eq_bind, Option.bind_some, toNat_ofNat (show length < 256 by omega),
      if_pos one, List.length_append, List.length_singleton]
  · rw [if_neg one]
    by_cases two : length ≤ 12480
    · have high := toNat_ofNat (show 193 + (length - 193) / 256 < 256 by omega)
      have low := toNat_ofNat (show (length - 193) % 256 < 256 by omega)
      have second := getElem?_at (front ++ [UInt8.ofNat (193 + (length - 193) / 256)])
        (UInt8.ofNat ((length - 193) % 256)) rest
      rw [List.append_assoc, List.length_append] at second
      rw [if_pos two, variableExtent, List.cons_append, getElem?_at, Option.bind_eq_bind,
        Option.bind_some, high, if_neg (by omega), if_pos (by omega)]
      refine (congrArg (Option.bind · _) second).trans ?_
      rw [Option.bind_some, low, List.length_append]
      refine congrArg some (Prod.ext rfl ?_)
      show 193 + (193 + (length - 193) / 256 - 193) * 256 + (length - 193) % 256 = length
      omega
    · have first := toNat_ofNat (show 241 + (length - 12481) / 65536 < 256 by omega)
      have middle := toNat_ofNat (show (length - 12481) / 256 % 256 < 256 by omega)
      have last := toNat_ofNat (show (length - 12481) % 256 < 256 by omega)
      have second := getElem?_at (front ++ [UInt8.ofNat (241 + (length - 12481) / 65536)])
        (UInt8.ofNat ((length - 12481) / 256 % 256))
        (UInt8.ofNat ((length - 12481) % 256) :: rest)
      have third := getElem?_at (front ++ [UInt8.ofNat (241 + (length - 12481) / 65536),
        UInt8.ofNat ((length - 12481) / 256 % 256)]) (UInt8.ofNat ((length - 12481) % 256)) rest
      rw [List.append_assoc, List.length_append] at second third
      rw [if_neg two, variableExtent, List.cons_append, getElem?_at, Option.bind_eq_bind,
        Option.bind_some, first, if_neg (by omega), if_neg (by omega)]
      refine (congrArg (Option.bind · _) second).trans ?_
      rw [Option.bind_some]
      refine (congrArg (Option.bind · _) third).trans ?_
      rw [Option.bind_some, middle, last, List.length_append]
      refine congrArg some (Prod.ext rfl ?_)
      show 12481 + (241 + (length - 12481) / 65536 - 241) * 65536
        + (length - 12481) / 256 % 256 * 256 + (length - 12481) % 256 = length
      omega

theorem valueExtent_prefix {typeCode : Nat} {value : List UInt8} (fits : Fits typeCode value)
    (front rest : List UInt8)
    : valueExtent (front ++ (lengthPrefix typeCode value.length ++ (value ++ rest))) typeCode
        front.length
      = some ((front ++ lengthPrefix typeCode value.length).length, value.length) := by
  cases fits with
  | bytes isVariable length =>
      have extent := variableExtent_lengthBytes length front (value ++ rest)
      rw [lengthPrefix, if_pos isVariable, ← extent]
      rcases isVariable with rfl | rfl | rfl
      · rfl
      · rfl
      · rfl
  | @amount first others length =>
      rw [lengthPrefix, if_neg (by decide), List.nil_append, List.append_nil, length]
      show ((front ++ (first :: others ++ rest))[front.length]?).map _ = _
      rw [List.cons_append, getElem?_at]
      rfl
  | uint16 length | uint32 length | uint64 length | hash128 length | hash256 length
  | uint8 length =>
      rw [lengthPrefix, if_neg (by decide), List.nil_append, List.append_nil, length]
      rfl

/-- A field in front of any rest is found, and where it lies is read off its bytes. -/
theorem stNext_bytes (field : Field) (front rest : List UInt8)
    : stNext (front ++ (field.bytes ++ rest)) front.length
      = some (field.placed front.length) := by
  have halves := field.typeCode.half_lt
  have otherHalf := field.fieldCode.half_lt
  have first := toNat_ofNat (show 16 * field.typeCode.half + field.fieldCode.half < 256 by omega)
  have high : (16 * field.typeCode.half + field.fieldCode.half) / 16 = field.typeCode.half := by
    omega
  have low : (16 * field.typeCode.half + field.fieldCode.half) % 16 = field.fieldCode.half := by
    omega
  have split : front ++ (field.bytes ++ rest)
      = front ++ UInt8.ofNat (16 * field.typeCode.half + field.fieldCode.half)
        :: (field.typeCode.tail ++ (field.fieldCode.tail
          ++ (lengthPrefix field.typeCode.value field.value.length ++ (field.value ++ rest)))) := by
    simp only [Field.bytes, Field.header, List.append_assoc, List.cons_append]
  have type := codeAt_tail field.typeCode
    (front ++ [UInt8.ofNat (16 * field.typeCode.half + field.fieldCode.half)])
    (field.fieldCode.tail ++ (lengthPrefix field.typeCode.value field.value.length
      ++ (field.value ++ rest)))
  have code := codeAt_tail field.fieldCode
    (front ++ [UInt8.ofNat (16 * field.typeCode.half + field.fieldCode.half)]
      ++ field.typeCode.tail)
    (lengthPrefix field.typeCode.value field.value.length ++ (field.value ++ rest))
  have extent := valueExtent_prefix field.fits
    (front ++ [UInt8.ofNat (16 * field.typeCode.half + field.fieldCode.half)]
      ++ field.typeCode.tail ++ field.fieldCode.tail) rest
  have header : (front ++ [UInt8.ofNat (16 * field.typeCode.half + field.fieldCode.half)]
      ++ field.typeCode.tail ++ field.fieldCode.tail
      ++ lengthPrefix field.typeCode.value field.value.length).length
        = front.length + field.header.length := by
    simp only [Field.header, List.length_append, List.length_cons, List.length_nil]
    omega
  have next : front.length + field.header.length + field.value.length
      = front.length + field.bytes.length := by
    rw [Field.bytes, List.length_append, Nat.add_assoc]
  have inside : front.length + field.header.length + field.value.length
      ≤ (front ++ (field.bytes ++ rest)).length := by
    rw [next, List.length_append, List.length_append]
    omega
  rw [header] at extent
  simp only [List.append_assoc, List.cons_append, List.nil_append, List.length_append,
    List.length_singleton] at type code extent
  rw [split] at inside ⊢
  rw [stNext, getElem?_at]
  simp only [Option.bind_eq_bind, Option.bind_some, first, high, low]
  rw [type]
  simp only [Option.bind_some]
  rw [code]
  simp only [Option.bind_some]
  rw [extent]
  simp only [Option.bind_some]
  rw [if_pos inside, next]
  rfl

-----------------------------------------------------------------------------------------
-- What is read is a field
-----------------------------------------------------------------------------------------

theorem drop_at {data : List UInt8} {i : Nat} {byte : UInt8} (found : data[i]? = some byte)
    : data.drop i = byte :: data.drop (i + 1) := by
  obtain ⟨inside, same⟩ := List.getElem?_eq_some_iff.mp found
  rw [List.drop_eq_getElem_cons inside, same]

theorem exists_code {data : List UInt8} {half i : Nat} {code : Nat × Nat} (small : half < 16)
    (found : codeAt data half i = some code)
    : ∃ read : Code, read.half = half ∧ read.value = code.1
        ∧ data.drop i = read.tail ++ data.drop code.2 := by
  unfold codeAt at found
  split at found
  case isTrue zero =>
    obtain ⟨byte, isByte, rfl⟩ := Option.map_eq_some_iff.mp found
    exact ⟨.own byte, zero.symm, rfl, drop_at isByte⟩
  case isFalse positive =>
    cases found
    exact ⟨.short half (by omega), rfl, rfl, rfl⟩

theorem lengthBytes_of_variableExtent {data : List UInt8} {i : Nat} {extent : Nat × Nat}
    (found : variableExtent data i = some extent)
    : extent.2 < maxLength ∧ data.drop i = lengthBytes extent.2 ++ data.drop extent.1 := by
  obtain ⟨l0, first, found⟩ := Option.bind_eq_some_iff.mp found
  have firstBound := l0.toNat_lt
  unfold maxLength
  split at found
  case isTrue one =>
    cases found
    refine ⟨by show l0.toNat < _; omega, ?_⟩
    rw [lengthBytes, if_pos one, UInt8.ofNat_toNat]
    exact drop_at first
  split at found
  case isTrue many two =>
    obtain ⟨low, second, found⟩ := Option.bind_eq_some_iff.mp found
    have lowBound := low.toNat_lt
    cases found
    have notOne : ¬ 193 + (l0.toNat - 193) * 256 + low.toNat ≤ 192 := by omega
    have isTwo : 193 + (l0.toNat - 193) * 256 + low.toNat ≤ 12480 := by omega
    have high : 193 + (193 + (l0.toNat - 193) * 256 + low.toNat - 193) / 256 = l0.toNat := by omega
    have rest : (193 + (l0.toNat - 193) * 256 + low.toNat - 193) % 256 = low.toNat := by omega
    refine ⟨by show 193 + (l0.toNat - 193) * 256 + low.toNat < _; omega, ?_⟩
    rw [lengthBytes, if_neg notOne, if_pos isTwo, high, rest, UInt8.ofNat_toNat,
      UInt8.ofNat_toNat, drop_at first, drop_at second]
    rfl
  case isFalse many more =>
    obtain ⟨a, second, found⟩ := Option.bind_eq_some_iff.mp found
    obtain ⟨bb, third, found⟩ := Option.bind_eq_some_iff.mp found
    have aBound := a.toNat_lt
    have bBound := bb.toNat_lt
    cases found
    have notOne : ¬ 12481 + (l0.toNat - 241) * 65536 + a.toNat * 256 + bb.toNat ≤ 192 := by omega
    have notTwo : ¬ 12481 + (l0.toNat - 241) * 65536 + a.toNat * 256 + bb.toNat ≤ 12480 := by
      omega
    have high : 241 + (12481 + (l0.toNat - 241) * 65536 + a.toNat * 256 + bb.toNat - 12481) / 65536
        = l0.toNat := by omega
    have middle : (12481 + (l0.toNat - 241) * 65536 + a.toNat * 256 + bb.toNat - 12481) / 256 % 256
        = a.toNat := by omega
    have last : (12481 + (l0.toNat - 241) * 65536 + a.toNat * 256 + bb.toNat - 12481) % 256
        = bb.toNat := by omega
    refine ⟨by
      show 12481 + (l0.toNat - 241) * 65536 + a.toNat * 256 + bb.toNat < _
      omega, ?_⟩
    rw [lengthBytes, if_neg notOne, if_neg notTwo, high, middle, last, UInt8.ofNat_toNat,
      UInt8.ofNat_toNat, UInt8.ofNat_toNat, drop_at first, drop_at second, drop_at third]
    rfl

/-- A value that lies in the data is one of its type. -/
theorem fits_of_valueExtent {data : List UInt8} {typeCode i : Nat} {extent : Nat × Nat}
    (found : valueExtent data typeCode i = some extent)
    (inside : extent.1 + extent.2 ≤ data.length)
    : Fits typeCode ((data.drop extent.1).take extent.2)
      ∧ data.drop i = lengthPrefix typeCode extent.2 ++ data.drop extent.1 := by
  have length : ((data.drop extent.1).take extent.2).length = extent.2 := by
    rw [List.length_take, List.length_drop]
    omega
  unfold valueExtent at found
  split at found
  case h_7 =>
    obtain ⟨first, isFirst, rfl⟩ := Option.map_eq_some_iff.mp found
    refine ⟨?_, rfl⟩
    have shape : (data.drop i).take (if 128 ≤ first.toNat then 48 else 8)
        = first :: (data.drop (i + 1)).take ((if 128 ≤ first.toNat then 48 else 8) - 1) := by
      rw [drop_at isFirst]
      split <;> rfl
    show Fits 6 ((data.drop i).take (if 128 ≤ first.toNat then 48 else 8))
    rw [shape]
    refine .amount ?_
    rw [← shape]
    exact length
  case h_11 => cases found
  case h_8 | h_9 | h_10 =>
    obtain ⟨short, split⟩ := lengthBytes_of_variableExtent found
    exact ⟨.bytes (by decide) (by rw [length]; exact short), split⟩
  all_goals cases found
  · exact ⟨.uint16 length, rfl⟩
  · exact ⟨.uint32 length, rfl⟩
  · exact ⟨.uint64 length, rfl⟩
  · exact ⟨.hash128 length, rfl⟩
  · exact ⟨.hash256 length, rfl⟩
  · exact ⟨.uint8 length, rfl⟩

/-- What is found at a position is a field that is written there. -/
theorem exists_field {data : List UInt8} {pos : Nat} {found : StField}
    (isFound : stNext data pos = some found)
    : ∃ field : Field, found = field.placed pos
        ∧ data.drop pos = field.bytes ++ data.drop found.next := by
  obtain ⟨h, isHead, isFound⟩ := Option.bind_eq_some_iff.mp isFound
  obtain ⟨type, typed, isFound⟩ := Option.bind_eq_some_iff.mp isFound
  obtain ⟨code, coded, isFound⟩ := Option.bind_eq_some_iff.mp isFound
  obtain ⟨extent, valued, isFound⟩ := Option.bind_eq_some_iff.mp isFound
  split at isFound
  case isFalse => cases isFound
  case isTrue inside =>
    cases isFound
    have bound := h.toNat_lt
    obtain ⟨typeCode, typeHalf, typeValue, typeSplit⟩ := exists_code (by omega) typed
    obtain ⟨fieldCode, fieldHalf, fieldValue, fieldSplit⟩ := exists_code (by omega) coded
    obtain ⟨fits, valueSplit⟩ := fits_of_valueExtent valued inside
    have length : ((data.drop extent.1).take extent.2).length = extent.2 := by
      rw [List.length_take, List.length_drop]
      omega
    have joined : UInt8.ofNat (16 * typeCode.half + fieldCode.half) = h := by
      rw [typeHalf, fieldHalf, show 16 * (h.toNat / 16) + h.toNat % 16 = h.toNat by omega,
        UInt8.ofNat_toNat]
    let field : Field := {
      typeCode, fieldCode, value := (data.drop extent.1).take extent.2, fits := typeValue ▸ fits
    }
    have header : field.header = h :: (typeCode.tail ++ (fieldCode.tail
        ++ lengthPrefix type.1 extent.2)) := by
      show UInt8.ofNat _ :: _ = _
      rw [joined, typeValue, length]
    have value : data.drop extent.1
        = (data.drop extent.1).take extent.2 ++ data.drop (extent.1 + extent.2) := by
      rw [← List.drop_drop, List.take_append_drop]
    have whole : data.drop pos = field.header ++ data.drop extent.1 := by
      rw [drop_at isHead, typeSplit, fieldSplit, valueSplit, header]
      simp only [List.cons_append, List.append_assoc]
    have start : extent.1 = pos + field.header.length := by
      have before := congrArg List.length whole
      have positioned := (List.getElem?_eq_some_iff.mp isHead).1
      rw [List.length_append, List.length_drop, List.length_drop] at before
      omega
    have bytesLength : field.bytes.length = field.header.length + extent.2 := by
      rw [Field.bytes, List.length_append]
      exact congrArg (field.header.length + ·) length
    refine ⟨field, ?_, ?_⟩
    · rw [Field.placed, bytesLength, ← Nat.add_assoc, ← start]
      show StField.mk type.1 code.1 pos extent.1 (extent.1 + extent.2)
        = StField.mk typeCode.value fieldCode.value pos extent.1 (extent.1 + extent.2)
      rw [typeValue, fieldValue]
    · rw [whole, Field.bytes, List.append_assoc]
      exact congrArg (field.header ++ ·) value

-----------------------------------------------------------------------------------------
-- One sequence of fields
-----------------------------------------------------------------------------------------

theorem Code.ext {left right : Code} (sameHalf : left.half = right.half)
    (sameValue : left.value = right.value)
    : left = right := by
  cases left with
  | short value range =>
      cases right with
      | short other range' =>
          cases (show value = other from sameValue)
          rfl
      | own byte => exact absurd (show value = 0 from sameHalf) (by omega)
  | own byte =>
      cases right with
      | short other range => exact absurd (show 0 = other from sameHalf) (by omega)
      | own other => rw [UInt8.toNat_inj.mp (show byte.toNat = other.toNat from sameValue)]

theorem Field.ext {left right : Field} (type : left.typeCode = right.typeCode)
    (code : left.fieldCode = right.fieldCode) (value : left.value = right.value)
    : left = right := by
  cases left
  cases right
  cases type
  cases code
  cases value
  rfl

/-- A field in front of the rest is determined by the bytes.
Witness: both fields are found at the beginning, so their codes and extents agree.
-/
theorem bytes_cancel {left right : Field} {leftRest rightRest : List UInt8}
    (same : left.bytes ++ leftRest = right.bytes ++ rightRest)
    : left = right ∧ leftRest = rightRest := by
  have leftFound := stNext_bytes left [] leftRest
  have rightFound := stNext_bytes right [] rightRest
  rw [List.nil_append] at leftFound rightFound
  rw [same, rightFound] at leftFound
  have placed : right.placed 0 = left.placed 0 := Option.some.inj leftFound
  have types : right.typeCode.value = left.typeCode.value := congrArg StField.typeCode placed
  have codes : right.fieldCode.value = left.fieldCode.value := congrArg StField.fieldCode placed
  have headers : 0 + right.header.length = 0 + left.header.length :=
    congrArg StField.valueStart placed
  have lengths : 0 + right.bytes.length = 0 + left.bytes.length := congrArg StField.next placed
  obtain ⟨sameBytes, sameRest⟩ := List.append_inj same (by omega)
  obtain ⟨sameHeader, sameValue⟩ := List.append_inj sameBytes (by omega)
  have heads := congrArg UInt8.toNat (List.cons.inj sameHeader).1
  have leftType := left.typeCode.half_lt
  have leftCode := left.fieldCode.half_lt
  have rightType := right.typeCode.half_lt
  have rightCode := right.fieldCode.half_lt
  rw [toNat_ofNat (by omega), toNat_ofNat (by omega)] at heads
  exact ⟨Field.ext (Code.ext (by omega) types.symm) (Code.ext (by omega) codes.symm) sameValue,
    sameRest⟩

theorem bytes_ne_nil (field : Field) : field.bytes ≠ [] :=
  List.cons_ne_nil _ _

theorem serialized_cons (field : Field) (rest : List Field)
    : serialized (field :: rest) = field.bytes ++ serialized rest :=
  List.flatMap_cons

theorem serialized_append (front back : List Field)
    : serialized (front ++ back) = serialized front ++ serialized back :=
  List.flatMap_append

/-- Bytes are those of one sequence of fields at most. -/
theorem serialized_injective {left right : List Field}
    (same : serialized left = serialized right)
    : left = right := by
  induction left generalizing right with
  | nil =>
      cases right with
      | nil => rfl
      | cons field rest =>
          exact absurd (List.nil_eq_append_iff.mp same).1 (bytes_ne_nil field)
  | cons field rest ih =>
      cases right with
      | nil => exact absurd (List.append_eq_nil_iff.mp same).1 (bytes_ne_nil field)
      | cons other others =>
          rw [serialized_cons, serialized_cons] at same
          obtain ⟨rfl, sameRest⟩ := bytes_cancel same
          rw [ih sameRest]

-----------------------------------------------------------------------------------------
-- The walk over fields
-----------------------------------------------------------------------------------------

/-- What the walk keeps of a field that begins at a position. -/
def Walk.keep (walk : Walk) (pos : Nat) (field : Field) : Except String Walk :=
  if field.IsSigningPubKey then
    if sized : field.value.length = 33 then .ok { walk with pubkey := some ⟨field.value, sized⟩ }
    else .error "sfSigningPubKey not 33 bytes"
  else if field.IsSignature then
    .ok {
      walk with
      sig := some { sig := field.value, start := pos, stop := pos + field.bytes.length }
    }
  else .ok walk

/-- The walk over the fields that follow a position. -/
def scan : Nat → Walk → List Field → Except String Walk
  | _, walk, [] => .ok walk
  | pos, walk, field :: rest => do
      let next ← walk.keep pos field
      scan (pos + field.bytes.length) next rest

theorem record_placed {data rest : List UInt8} {pos : Nat} {field : Field} (walk : Walk)
    (here : data.drop pos = field.bytes ++ rest)
    : walk.record data (field.placed pos) = walk.keep pos field := by
  have value : slice data (field.placed pos).valueStart (field.placed pos).next = field.value := by
    show (data.take (pos + field.bytes.length)).drop (pos + field.header.length) = field.value
    rw [List.take_add, here, List.take_left' rfl, Field.bytes]
    by_cases inside : pos ≤ data.length
    · rw [← List.append_assoc]
      refine List.drop_left' ?_
      rw [List.length_append, List.length_take, Nat.min_eq_left inside]
    · have nothing := List.drop_eq_nil_of_le (Nat.le_of_not_le inside)
      rw [here] at nothing
      exact absurd (List.append_eq_nil_iff.mp nothing).1 (bytes_ne_nil field)
  unfold Walk.record Walk.keep
  rw [value]
  rfl

/-- The walk over data is the walk over its fields. -/
theorem walkFields_of_fields {data : List UInt8} {rounds pos : Nat} {fields : List Field}
    (walk : Walk) (enough : data.length - pos ≤ rounds) (rest : data.drop pos = serialized fields)
    : walkFields data rounds pos walk = scan pos walk fields := by
  induction fields generalizing rounds pos walk with
  | nil =>
      have beyond : ¬ pos < data.length := Nat.not_lt.mpr (List.drop_eq_nil_iff.mp rest)
      cases rounds with
      | zero => rfl
      | succ rounds => rw [walkFields, if_neg beyond, scan]
  | cons field fields ih =>
      rw [serialized_cons] at rest
      have left : pos < data.length := by
        by_contra beyond
        have nothing := List.drop_eq_nil_of_le (Nat.not_lt.mp beyond)
        rw [rest] at nothing
        exact bytes_ne_nil field (List.append_eq_nil_iff.mp nothing).1
      cases rounds with
      | zero => omega
      | succ rounds =>
          have front : (data.take pos).length = pos := by
            rw [List.length_take, Nat.min_eq_left left.le]
          have found := stNext_bytes field (data.take pos) (serialized fields)
          rw [front, ← rest, List.take_append_drop] at found
          have positive : 0 < field.bytes.length :=
            List.length_pos_iff.mpr (bytes_ne_nil field)
          have later : data.drop (pos + field.bytes.length) = serialized fields := by
            rw [← List.drop_drop, rest, List.drop_left' rfl]
          rw [walkFields, if_pos left, found, scan, ← record_placed walk rest]
          refine congrArg (walk.record data (field.placed pos) >>= ·) (funext fun next => ?_)
          exact ih next (by show data.length - (pos + field.bytes.length) ≤ rounds; omega) later

/-- A walk that succeeds has found the fields. -/
theorem exists_fields {data : List UInt8} {rounds pos : Nat} {walk result : Walk}
    (enough : data.length - pos ≤ rounds) (walked : walkFields data rounds pos walk = .ok result)
    : ∃ fields, data.drop pos = serialized fields := by
  induction rounds generalizing pos walk with
  | zero => exact ⟨[], List.drop_eq_nil_of_le (by omega)⟩
  | succ rounds ih =>
      rw [walkFields] at walked
      split at walked
      case isFalse beyond => exact ⟨[], List.drop_eq_nil_of_le (Nat.not_lt.mp beyond)⟩
      case isTrue =>
        obtain ⟨found, isFound, walked⟩ := Except.bind_eq_ok_iff.mp walked
        obtain ⟨next, _, walked⟩ := Except.bind_eq_ok_iff.mp walked
        have isNext := okOr_eq_ok_iff.mp isFound
        have ahead := (stNext_inside isNext).ahead
        obtain ⟨field, _, here⟩ := exists_field isNext
        obtain ⟨fields, later⟩ := ih (by omega) walked
        exact ⟨field :: fields, by rw [serialized_cons, here, later]⟩

/-- A sequence in two parts is walked over in two parts. -/
theorem scan_append (pos : Nat) (walk : Walk) (front back : List Field)
    : scan pos walk (front ++ back)
      = scan pos walk front >>= fun next => scan (pos + (serialized front).length) next back := by
  induction front generalizing pos walk with
  | nil => rfl
  | cons field rest ih =>
      rw [List.cons_append, scan, scan, bind_assoc]
      refine congrArg (walk.keep pos field >>= ·) (funext fun next => ?_)
      rw [ih, serialized_cons, List.length_append, Nat.add_assoc]

/-- The walk fails exactly at a signing key that is not of 33 bytes. -/
theorem scan_ok_iff (pos : Nat) (walk : Walk) (fields : List Field)
    : (∃ result, scan pos walk fields = .ok result)
      ↔ ∀ field ∈ fields, field.IsSigningPubKey → field.value.length = 33 := by
  induction fields generalizing pos walk with
  | nil => exact ⟨fun _ _ member => absurd member List.not_mem_nil, fun _ => ⟨walk, rfl⟩⟩
  | cons field rest ih =>
      rw [List.forall_mem_cons]
      constructor
      · intro scanned
        obtain ⟨result, scanned⟩ := scanned
        obtain ⟨next, kept, later⟩ := Except.bind_eq_ok_iff.mp scanned
        refine ⟨fun isKey => ?_, (ih _ next).mp ⟨result, later⟩⟩
        unfold Walk.keep at kept
        rw [if_pos isKey] at kept
        split at kept
        case isTrue sized => exact sized
        case isFalse => cases kept
      · intro sized
        obtain ⟨next, kept⟩ : ∃ next, walk.keep pos field = .ok next := by
          unfold Walk.keep
          by_cases isKey : field.IsSigningPubKey
          · exact ⟨_, by rw [if_pos isKey, dif_pos (sized.1 isKey)]⟩
          · rw [if_neg isKey]
            split
            · exact ⟨_, rfl⟩
            · exact ⟨_, rfl⟩
        obtain ⟨result, later⟩ := (ih (pos + field.bytes.length) next).mpr sized.2
        exact ⟨result, Except.bind_eq_ok_iff.mpr ⟨next, kept, later⟩⟩

/-- Fields without a signature leave the one that is held. -/
theorem scan_sig {pos : Nat} {walk result : Walk} {fields : List Field}
    (unsigned : ∀ field ∈ fields, ¬ field.IsSignature)
    (scanned : scan pos walk fields = .ok result)
    : result.sig = walk.sig := by
  induction fields generalizing pos walk with
  | nil =>
      cases scanned
      rfl
  | cons field rest ih =>
      obtain ⟨first, others⟩ := List.forall_mem_cons.mp unsigned
      obtain ⟨next, kept, later⟩ := Except.bind_eq_ok_iff.mp scanned
      refine (ih others later).trans ?_
      unfold Walk.keep at kept
      rw [if_neg first] at kept
      split_ifs at kept with isKey sized
      · cases kept
        rfl
      · cases kept
        rfl

/-- Fields without a signing key leave the one that is held. -/
theorem scan_pubkey {pos : Nat} {walk result : Walk} {fields : List Field}
    (keyless : ∀ field ∈ fields, ¬ field.IsSigningPubKey)
    (scanned : scan pos walk fields = .ok result)
    : result.pubkey = walk.pubkey := by
  induction fields generalizing pos walk with
  | nil =>
      cases scanned
      rfl
  | cons field rest ih =>
      obtain ⟨first, others⟩ := List.forall_mem_cons.mp keyless
      obtain ⟨next, kept, later⟩ := Except.bind_eq_ok_iff.mp scanned
      refine (ih others later).trans ?_
      unfold Walk.keep at kept
      rw [if_neg first] at kept
      split_ifs at kept with isSig
      · cases kept
        rfl
      · cases kept
        rfl

/-- The last item of a kind. -/
theorem exists_last {α : Type} (kind : α → Prop) [DecidablePred kind] {items : List α}
    (present : ∃ item ∈ items, kind item)
    : ∃ before last after, items = before ++ last :: after ∧ kind last
        ∧ ∀ item ∈ after, ¬ kind item := by
  induction items with
  | nil =>
      obtain ⟨_, member, _⟩ := present
      cases member
  | cons first rest ih =>
      by_cases later : ∃ item ∈ rest, kind item
      · obtain ⟨before, last, after, rfl, isKind, none⟩ := ih later
        exact ⟨first :: before, last, after, rfl, isKind, none⟩
      · have none : ∀ item ∈ rest, ¬ kind item := fun item member isKind =>
          later ⟨item, member, isKind⟩
        obtain ⟨item, member, isKind⟩ := present
        rcases List.mem_cons.mp member with rfl | inside
        · exact ⟨[], item, rest, rfl, isKind, none⟩
        · exact absurd isKind (none item inside)

theorem kinds_differ {field : Field} (isSignature : field.IsSignature)
    : ¬ field.IsSigningPubKey := by
  intro isKey
  have code := isSignature.2.symm.trans isKey.2
  cases code

/-- The signature held in the end is the last one. -/
theorem scan_last_sig {pos : Nat} {walk result : Walk} {before after : List Field}
    {signature : Field} (isSignature : signature.IsSignature)
    (last : ∀ field ∈ after, ¬ field.IsSignature)
    (scanned : scan pos walk (before ++ signature :: after) = .ok result)
    : result.sig = some {
        sig := signature.value, start := pos + (serialized before).length,
        stop := pos + (serialized before).length + signature.bytes.length
      } := by
  rw [scan_append] at scanned
  obtain ⟨next, _, scanned⟩ := Except.bind_eq_ok_iff.mp scanned
  obtain ⟨held, kept, scanned⟩ := Except.bind_eq_ok_iff.mp scanned
  rw [scan_sig last scanned]
  unfold Walk.keep at kept
  rw [if_neg (kinds_differ isSignature), if_pos isSignature] at kept
  cases kept
  rfl

/-- The signing key held in the end is the last one. -/
theorem scan_last_pubkey {pos : Nat} {walk result : Walk} {before after : List Field}
    {key : Field} (isKey : key.IsSigningPubKey)
    (last : ∀ field ∈ after, ¬ field.IsSigningPubKey)
    (scanned : scan pos walk (before ++ key :: after) = .ok result)
    : ∃ pubkey, result.pubkey = some pubkey ∧ pubkey.toList = key.value := by
  rw [scan_append] at scanned
  obtain ⟨next, _, scanned⟩ := Except.bind_eq_ok_iff.mp scanned
  obtain ⟨held, kept, scanned⟩ := Except.bind_eq_ok_iff.mp scanned
  rw [scan_pubkey last scanned]
  unfold Walk.keep at kept
  rw [if_pos isKey] at kept
  split at kept
  case isTrue sized =>
    cases kept
    exact ⟨⟨key.value, sized⟩, rfl, rfl⟩
  case isFalse => cases kept

-----------------------------------------------------------------------------------------
-- When stripping is exact
-----------------------------------------------------------------------------------------

/-- An entry comes from the last signing key and the last signature of a sequence of fields. -/
theorem exists_yields {data : List UInt8} {entry : ValidationEntry}
    (extracted : validationEntry data = .ok entry)
    : ∃ fields walk kept, data = serialized fields ∧ Yields fields
        ∧ scan 0 { pubkey := none, sig := none } fields = .ok walk
        ∧ walk.pubkey = some entry.pubkey ∧ walk.sig = some kept ∧ entry.sig = kept.sig
        ∧ entry.vbody = data.take kept.start ++ data.drop kept.stop := by
  obtain ⟨walk, walked, extracted⟩ := Except.bind_eq_ok_iff.mp extracted
  obtain ⟨pubkey, hasKey, extracted⟩ := Except.bind_eq_ok_iff.mp extracted
  obtain ⟨kept, hasSig, extracted⟩ := Except.bind_eq_ok_iff.mp extracted
  cases extracted
  have isKey := okOr_eq_ok_iff.mp hasKey
  have isSig := okOr_eq_ok_iff.mp hasSig
  obtain ⟨fields, rest⟩ := exists_fields (by omega) walked
  rw [walkFields_of_fields _ (by omega) rest] at walked
  refine ⟨fields, walk, kept, rest, ⟨(scan_ok_iff _ _ _).mp ⟨walk, walked⟩, ?_, ?_⟩, walked, isKey,
    isSig, rfl, rfl⟩
  · by_contra keyless
    have none := scan_pubkey (fun field member isKey => keyless ⟨field, member, isKey⟩) walked
    rw [isKey] at none
    cases none
  · by_contra unsigned
    have none := scan_sig (fun field member isSig => unsigned ⟨field, member, isSig⟩) walked
    rw [isSig] at none
    cases none

/-- Every sequence with a signing key and a signature gives an entry. -/
theorem exists_entry {fields : List Field} (yields : Yields fields)
    : ∃ entry, validationEntry (serialized fields) = .ok entry := by
  obtain ⟨walk, scanned⟩ :=
    (scan_ok_iff 0 { pubkey := none, sig := none } fields).mpr yields.sized
  have walked : walkFields (serialized fields) (serialized fields).length 0
      { pubkey := none, sig := none } = scan 0 { pubkey := none, sig := none } fields :=
    walkFields_of_fields _ (Nat.sub_le _ 0) rfl
  rw [scanned] at walked
  obtain ⟨_, key, _, keySplit, isKey, lastKey⟩ := exists_last Field.IsSigningPubKey yields.keyed
  obtain ⟨_, signature, _, sigSplit, isSig, lastSig⟩ :=
    exists_last Field.IsSignature yields.signed
  obtain ⟨pubkey, hasKey, _⟩ := scan_last_pubkey isKey lastKey (keySplit ▸ scanned)
  have hasSig := scan_last_sig isSig lastSig (sigSplit ▸ scanned)
  rw [validationEntry, walked]
  show ∃ entry, (okOr walk.pubkey _ >>= _) = _
  rw [hasKey, hasSig]
  exact ⟨_, rfl⟩

/-- Taking a signature out of its place and putting it back. -/
theorem vbody_eq (before after : List Field) (signature : Field)
    : (serialized (before ++ signature :: after)).take (serialized before).length
        ++ (serialized (before ++ signature :: after)).drop
          ((serialized before).length + signature.bytes.length)
      = serialized (before ++ after) := by
  rw [serialized_append, serialized_append, serialized_cons, List.take_left' rfl, ← List.drop_drop,
    List.drop_left' rfl, List.drop_left' rfl]

theorem filter_eq_nil {kind : Field → Prop} [DecidablePred kind] {fields : List Field}
    (none : ∀ field ∈ fields, ¬ kind field)
    : fields.filter kind = [] :=
  List.filter_eq_nil_iff.mpr (fun field member => by simpa using none field member)

/-- The only field of its kind. -/
theorem only_of_filter {kind : Field → Prop} [DecidablePred kind] {before after : List Field}
    {last : Field} (isKind : kind last)
    (once : ((before ++ last :: after).filter kind).length = 1)
    : ∀ field ∈ before ++ after, ¬ kind field := by
  rw [List.filter_append, List.filter_cons_of_pos (by simpa using isKind), List.length_append,
    List.length_cons] at once
  intro field member isField
  have inFilter : field ∈ before.filter kind ∨ field ∈ after.filter kind := by
    rcases List.mem_append.mp member with front | back
    · exact .inl (List.mem_filter.mpr ⟨front, by simpa using isField⟩)
    · exact .inr (List.mem_filter.mpr ⟨back, by simpa using isField⟩)
  rcases inFilter with front | back
  · have positive := List.length_pos_of_mem front
    omega
  · have positive := List.length_pos_of_mem back
    omega

/-- Where stripping is exact, there are one signing key and one signature. -/
theorem StripsExactly.counts {fields : List Field} (strips : StripsExactly (serialized fields))
    (yields : Yields fields)
    : (fields.filter Field.IsSigningPubKey).length = 1
      ∧ (fields.filter Field.IsSignature).length = 1 := by
  obtain ⟨entry, extracted⟩ := exists_entry yields
  obtain ⟨before, signature, after, stripped⟩ := strips.exactly entry extracted
  have same := serialized_injective stripped.whole
  obtain ⟨key, only, _⟩ := stripped.pubkey
  have unsignedFront := filter_eq_nil (fun field member =>
    stripped.unsigned field (List.mem_append_left after member))
  have unsignedBack := filter_eq_nil (fun field member =>
    stripped.unsigned field (List.mem_append_right before member))
  rw [same, only, List.filter_append,
    List.filter_cons_of_pos (by simpa using stripped.isSignature), unsignedFront, unsignedBack]
  exact ⟨rfl, rfl⟩

/-- Stripping is exact exactly if a sequence of fields that gives an entry has but one signing
key and one signature.
-/
theorem strips_exactly_iff (data : List UInt8)
    : StripsExactly data
      ↔ ∀ fields, data = serialized fields → Yields fields →
          (fields.filter Field.IsSigningPubKey).length = 1
          ∧ (fields.filter Field.IsSignature).length = 1 := by
  constructor
  · rintro strips fields rfl yields
    exact strips.counts yields
  · intro once
    refine ⟨fun rounds enough => ?_, fun entry extracted => ?_⟩
    · rw [validationEntry_settled data enough]
      rfl
    · obtain ⟨fields, walk, kept, rfl, yields, scanned, hasKey, hasSig, sig, vbody⟩ :=
        exists_yields extracted
      obtain ⟨oneKey, oneSig⟩ := once fields rfl yields
      obtain ⟨front, key, back, keySplit, isKey, lastKey⟩ :=
        exists_last Field.IsSigningPubKey yields.keyed
      obtain ⟨before, signature, after, rfl, isSig, lastSig⟩ :=
        exists_last Field.IsSignature yields.signed
      have onlyKey := only_of_filter isKey (keySplit ▸ oneKey)
      obtain ⟨pubkey, isPubkey, value⟩ := scan_last_pubkey isKey lastKey (keySplit ▸ scanned)
      have isKept := scan_last_sig isSig lastSig scanned
      rw [hasSig] at isKept
      cases isKept
      rw [Nat.zero_add] at vbody
      rw [vbody_eq] at vbody
      refine ⟨before, signature, after, {
        whole := rfl
        isSignature := isSig
        sig
        vbody
        unsigned := only_of_filter isSig oneSig
        restored := ?_
        pubkey := ⟨key, ?_, ?_⟩
      }⟩
      · rw [vbody, serialized_append, serialized_append, serialized_cons, List.take_left' rfl,
          List.drop_left' rfl]
      · rw [keySplit, List.filter_append, List.filter_cons_of_pos (by simpa using isKey),
          filter_eq_nil (fun field member => onlyKey field (List.mem_append_left back member)),
          filter_eq_nil (fun field member => onlyKey field (List.mem_append_right front member))]
        rfl
      · rw [hasKey] at isPubkey
        rw [Option.some.inj isPubkey]
        exact value

/-- A field of a type with a length of its own in front, and short codes. -/
def shortBlob (code : Nat) (range : 1 ≤ code ∧ code ≤ 15) (value : List UInt8)
    (length : value.length < maxLength) : Field where
  typeCode := .short 7 (by decide)
  fieldCode := .short code range
  value := value
  fits := .bytes (.inl rfl) length

/-- A signing key of 33 zeros and two signatures. -/
def signedTwice : List Field := [
  shortBlob 3 (by decide) (List.replicate 33 0) (by decide),
  shortBlob 6 (by decide) [0xAA] (by decide),
  shortBlob 6 (by decide) [0xBB] (by decide)
]

/-- Of two signatures the first is left in what is hashed. -/
theorem signedTwice_not_stripped : ¬ StripsExactly (serialized signedTwice) := by
  intro strips
  have yields : Yields signedTwice := {
    sized := by decide +kernel
    keyed := by decide +kernel
    signed := by decide +kernel
  }
  have two : (signedTwice.filter Field.IsSignature).length = 2 := by decide +kernel
  have one := (strips.counts yields).2
  rw [two] at one
  cases one

end PerpDex.SpvProof
