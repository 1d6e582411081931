import PerpDex.Lib.Except
import PerpDex.Lib.Wire
import PerpDex.Membership.Statement

/-! Validations as the validators' stream delivers them, and the section of a transport that
carries the signing key, the signature and the signed content of each of them.
-/

namespace PerpDex.SpvProof

open Wire

-----------------------------------------------------------------------------------------
-- Fields of a serialized object
-----------------------------------------------------------------------------------------

/-- One field of a serialized object: its codes and where it lies. -/
structure StField where
  typeCode : Nat
  fieldCode : Nat
  idStart : Nat
  valueStart : Nat
  next : Nat
deriving DecidableEq

/-- Half of a field's identifier, and the position after it: a nibble of the header, or a
byte of its own when the nibble is zero.
-/
def codeAt (b : List UInt8) (nibble i : Nat) : Option (Nat × Nat) :=
  if nibble = 0 then b[i]?.map (fun code => (code.toNat, i + 1)) else some (nibble, i)

/-- The start and the length of a value that is prefixed with its length in 1, 2 or 3 bytes. -/
def variableExtent (b : List UInt8) (i : Nat) : Option (Nat × Nat) := do
  let l0 ← b[i]?
  if l0.toNat ≤ 192 then
    some (i + 1, l0.toNat)
  else if l0.toNat ≤ 240 then
    let low ← b[i + 1]?
    some (i + 2, 193 + (l0.toNat - 193) * 256 + low.toNat)
  else
    let a ← b[i + 1]?
    let bb ← b[i + 2]?
    some (i + 3, 12481 + (l0.toNat - 241) * 65536 + a.toNat * 256 + bb.toNat)

/-- The start and the length of a field's value, for the types that a validation carries. -/
def valueExtent (b : List UInt8) (typeCode i : Nat) : Option (Nat × Nat) :=
  match typeCode with
  | 1 => some (i, 2)
  | 2 => some (i, 4)
  | 3 => some (i, 8)
  | 4 => some (i, 16)
  | 5 => some (i, 32)
  | 16 => some (i, 1)
  | 6 => b[i]?.map (fun first => (i, if 128 ≤ first.toNat then 48 else 8))
  | 7 => variableExtent b i
  | 8 => variableExtent b i
  | 19 => variableExtent b i
  | _ => none

/-- The field at a position; none at a truncation or an unhandled type. -/
def stNext (b : List UInt8) (pos : Nat) : Option StField := do
  let h ← b[pos]?
  let type ← codeAt b (h.toNat / 16) (pos + 1)
  let field ← codeAt b (h.toNat % 16) type.2
  let extent ← valueExtent b type.1 field.2
  if extent.1 + extent.2 ≤ b.length then
    some {
      typeCode := type.1, fieldCode := field.1, idStart := pos, valueStart := extent.1,
      next := extent.1 + extent.2
    }
  else none

theorem codeAt_le {b : List UInt8} {nibble i : Nat} {code : Nat × Nat}
    (found : codeAt b nibble i = some code)
    : i ≤ code.2 := by
  unfold codeAt at found
  split at found
  · obtain ⟨_, _, rfl⟩ := Option.map_eq_some_iff.mp found
    exact Nat.le_succ i
  · cases found
    exact Nat.le_refl i

theorem variableExtent_le {b : List UInt8} {i : Nat} {extent : Nat × Nat}
    (found : variableExtent b i = some extent)
    : i ≤ extent.1 := by
  obtain ⟨l0, _, found⟩ := Option.bind_eq_some_iff.mp found
  split at found
  · cases found
    exact Nat.le_succ i
  split at found
  · obtain ⟨low, _, found⟩ := Option.bind_eq_some_iff.mp found
    cases found
    exact Nat.le_add_right i 2
  · obtain ⟨a, _, found⟩ := Option.bind_eq_some_iff.mp found
    obtain ⟨bb, _, found⟩ := Option.bind_eq_some_iff.mp found
    cases found
    exact Nat.le_add_right i 3

theorem valueExtent_le {b : List UInt8} {typeCode i : Nat} {extent : Nat × Nat}
    (found : valueExtent b typeCode i = some extent)
    : i ≤ extent.1 := by
  unfold valueExtent at found
  split at found
  case h_7 =>
    obtain ⟨_, _, rfl⟩ := Option.map_eq_some_iff.mp found
    exact Nat.le_refl i
  case h_11 => cases found
  all_goals first
    | exact variableExtent_le found
    | (cases found; exact Nat.le_refl i)

/-- Every field takes at least the byte of its header, and ends inside the object. -/
theorem stNext_progress {b : List UInt8} {pos : Nat} {field : StField}
    (found : stNext b pos = some field)
    : pos < field.next ∧ field.next ≤ b.length := by
  obtain ⟨h, _, found⟩ := Option.bind_eq_some_iff.mp found
  obtain ⟨type, typed, found⟩ := Option.bind_eq_some_iff.mp found
  obtain ⟨code, coded, found⟩ := Option.bind_eq_some_iff.mp found
  obtain ⟨extent, valued, found⟩ := Option.bind_eq_some_iff.mp found
  have afterType := codeAt_le typed
  have afterField := codeAt_le coded
  have afterExtent := valueExtent_le valued
  split at found
  case isTrue inside =>
    cases found
    refine ⟨?_, inside⟩
    show pos < extent.1 + extent.2
    omega
  case isFalse => cases found

-----------------------------------------------------------------------------------------
-- The entry of a validation
-----------------------------------------------------------------------------------------

/-- What the enclave checks of a validation: the signing key, the signature, and the
validation without its signature field.
-/
structure ValidationEntry where
  pubkey : Bytes 33
  sig : List UInt8
  vbody : List UInt8
deriving DecidableEq

/-- The last signature field met, with the bytes it takes up. -/
structure SigField where
  sig : List UInt8
  start : Nat
  stop : Nat

/-- What a walk over the fields has found so far. -/
structure Walk where
  pubkey : Option (Bytes 33)
  sig : Option SigField

/-- `data[from..to]`. -/
def slice (data : List UInt8) (start stop : Nat) : List UInt8 :=
  (data.take stop).drop start

/-- One round of the walk: sfSigningPubKey and sfSignature are kept, the rest is passed over. -/
def Walk.record (data : List UInt8) (walk : Walk) (field : StField) : Except String Walk :=
  let value := slice data field.valueStart field.next
  if field.typeCode = 7 ∧ field.fieldCode = 3 then
    if sized : value.length = 33 then
      .ok { walk with pubkey := some ⟨value, sized⟩ }
    else .error "sfSigningPubKey not 33 bytes"
  else if field.typeCode = 7 ∧ field.fieldCode = 6 then
    .ok { walk with sig := some { sig := value, start := field.idStart, stop := field.next } }
  else .ok walk

/-- The walk from a position to the end. The fuel is the number of bytes left, which no walk
exhausts.
-/
def walkFields (data : List UInt8) : (fuel pos : Nat) → Walk → Except String Walk
  | 0, _, walk => .ok walk
  | fuel + 1, pos, walk =>
      if pos < data.length then do
        let field ← okOr (stNext data pos) "STValidation walk"
        let walk ← walk.record data field
        walkFields data fuel field.next walk
      else .ok walk

def validationEntry (data : List UInt8) : Except String ValidationEntry := do
  let walk ← walkFields data data.length 0 { pubkey := none, sig := none }
  let pubkey ← okOr walk.pubkey "no sfSigningPubKey"
  let field ← okOr walk.sig "no sfSignature"
  .ok { pubkey, sig := field.sig, vbody := data.take field.start ++ data.drop field.stop }

/-- Fuel for every byte that is left is enough: more changes nothing. -/
theorem walkFields_fuel (data : List UInt8) {fuel more pos : Nat} (walk : Walk)
    (enough : data.length - pos ≤ fuel) (atLeast : fuel ≤ more)
    : walkFields data more pos walk = walkFields data fuel pos walk := by
  induction fuel generalizing more pos walk with
  | zero =>
      cases more with
      | zero => rfl
      | succ more =>
          have done : ¬ pos < data.length := by omega
          simp only [walkFields, if_neg done]
  | succ fuel ih =>
      cases more with
      | zero => omega
      | succ more =>
          rw [walkFields, walkFields]
          split
          case isFalse => rfl
          case isTrue inside =>
            cases found : stNext data pos with
            | none => rfl
            | some field =>
                have ahead := (stNext_progress found).1
                refine congrArg (Walk.record data walk field >>= ·) (funext fun walk => ?_)
                exact ih walk (by omega) (by omega)

-----------------------------------------------------------------------------------------
-- The validations section
-----------------------------------------------------------------------------------------

/-- `pubkey33 ‖ sig_len u8 ‖ sig ‖ vbody_len u16 ‖ vbody`. -/
def entryBytes (entry : ValidationEntry) : List UInt8 :=
  entry.pubkey.toList ++ (beBytes 1 entry.sig.length
    ++ (entry.sig ++ (beBytes 2 entry.vbody.length ++ entry.vbody)))

/-- One round of the framing loop. The counter is a `u16` and wraps. -/
def frameValidation (framed : UInt16 × List UInt8) (data : List UInt8)
    : Except String (UInt16 × List UInt8) := do
  let entry ← validationEntry data
  if 72 < entry.sig.length ∨ 65535 < entry.vbody.length then
    .error "validation sig/vbody too large"
  else
    .ok (framed.1 + 1, framed.2 ++ entryBytes entry)

/-- The count and the framed entries of the validations collected for one ledger. -/
def buildValidationsSection (datas : List (List UInt8)) : Except String (UInt16 × List UInt8) :=
  datas.foldlM frameValidation (0, [])

/-- A validation is framed as an entry. -/
structure FramesAs (data : List UInt8) (entry : ValidationEntry) : Prop where
  extracted : validationEntry data = .ok entry
  sigFits : entry.sig.length ≤ 72
  vbodyFits : entry.vbody.length ≤ 65535

/-- Framed entries are those of the validations, in order. -/
theorem map_validationEntry_of_framed {datas : List (List UInt8)}
    {entries : List ValidationEntry} (framed : List.Forall₂ FramesAs datas entries)
    : datas.map validationEntry = entries.map .ok := by
  induction framed with
  | nil => rfl
  | cons frames _ ih => rw [List.map_cons, List.map_cons, frames.extracted, ih]

theorem framesAs_of_mem {datas : List (List UInt8)} {entries : List ValidationEntry}
    (framed : List.Forall₂ FramesAs datas entries) {entry : ValidationEntry}
    (member : entry ∈ entries)
    : ∃ data ∈ datas, FramesAs data entry := by
  induction framed with
  | nil => cases member
  | @cons data first _ _ frames _ ih =>
      rcases List.mem_cons.mp member with rfl | later
      · exact ⟨data, List.mem_cons_self, frames⟩
      · obtain ⟨other, inside, frames⟩ := ih later
        exact ⟨other, List.mem_cons_of_mem data inside, frames⟩

theorem frameValidation_eq_ok_iff {start result : UInt16 × List UInt8} {data : List UInt8}
    : frameValidation start data = .ok result
      ↔ ∃ entry, FramesAs data entry ∧ result = (start.1 + 1, start.2 ++ entryBytes entry) := by
  rw [frameValidation, Except.bind_eq_ok_iff]
  constructor
  · intro framed
    rcases framed with ⟨entry, extracted, checked⟩
    split at checked
    case isTrue => cases checked
    case isFalse fits =>
      obtain ⟨sigFits, vbodyFits⟩ := not_or.mp fits
      cases checked
      exact ⟨entry, ⟨extracted, Nat.not_lt.mp sigFits, Nat.not_lt.mp vbodyFits⟩, rfl⟩
  · intro framed
    rcases framed with ⟨entry, frames, rfl⟩
    refine ⟨entry, frames.extracted, if_neg ?_⟩
    exact not_or.mpr ⟨Nat.not_lt.mpr frames.sigFits, Nat.not_lt.mpr frames.vbodyFits⟩

/-- The framing loop from any section on. -/
theorem foldlM_frameValidation_eq_ok_iff {datas : List (List UInt8)}
    {start result : UInt16 × List UInt8}
    : datas.foldlM frameValidation start = .ok result
      ↔ ∃ entries, List.Forall₂ FramesAs datas entries
        ∧ result = (start.1 + UInt16.ofNat entries.length,
          start.2 ++ entries.flatMap entryBytes) := by
  induction datas generalizing start with
  | nil =>
      constructor
      · intro done
        cases done
        exact ⟨[], .nil, by simp⟩
      · intro framed
        rcases framed with ⟨entries, nothing, rfl⟩
        cases nothing
        simp
        rfl
  | cons data others ih =>
      rw [List.foldlM_cons, Except.bind_eq_ok_iff]
      constructor
      · intro framed
        rcases framed with ⟨next, first, rest⟩
        obtain ⟨entry, frames, rfl⟩ := frameValidation_eq_ok_iff.mp first
        obtain ⟨entries, framed, rfl⟩ := ih.mp rest
        refine ⟨entry :: entries, .cons frames framed, Prod.ext ?_ ?_⟩
        · simp [UInt16.add_assoc, UInt16.add_comm]
        · simp
      · intro framed
        rcases framed with ⟨entries, all, rfl⟩
        cases all with
        | @cons _ entry _ entries frames framed =>
            refine ⟨_, frameValidation_eq_ok_iff.mpr ⟨entry, frames, rfl⟩,
              ih.mpr ⟨entries, framed, Prod.ext ?_ ?_⟩⟩
            · simp [UInt16.add_assoc, UInt16.add_comm]
            · simp

/-- A section is built exactly if every validation is framed; it is then the entries one
after the other, counted modulo 2^16.
-/
theorem buildValidationsSection_eq_ok_iff {datas : List (List UInt8)}
    {result : UInt16 × List UInt8}
    : buildValidationsSection datas = .ok result
      ↔ ∃ entries, List.Forall₂ FramesAs datas entries
        ∧ result = (UInt16.ofNat entries.length, entries.flatMap entryBytes) := by
  rw [buildValidationsSection, foldlM_frameValidation_eq_ok_iff]
  simp

end PerpDex.SpvProof
