import PerpDex.Lib.Hex
import PerpDex.Lib.Json
import PerpDex.Lib.UrlEncoded
import PerpDex.Auth.Signature
import PerpDex.Spv.Buffer

/-! The attested clock: ask every endpoint for the latest validated ledger, take the newest
answer that parses, and pair its header with the validations buffered for its hash.
The choice is made on the index an answer states, before anything ties the answer to buffered
validations.
-/

namespace PerpDex.AttestedClock

open Wire SpvProof DepositSpv

-----------------------------------------------------------------------------------------
-- Reading an answer
-----------------------------------------------------------------------------------------

/-- A computation that may return an error, or panic (`none`). -/
abbrev Parse := ExceptT String Option

/-- `context` on a missing value. -/
def context {α : Type} (value : Option α) (missing : String) : Parse α :=
  ExceptT.mk (some (okOr value missing))

/-- `u8::from_str_radix(pair, 16)` on a text of two bytes; a leading plus is accepted. -/
def pairValue (first second : UInt8) : Option UInt8 := do
  let low ← Hex.digitValue (Char.ofNat second.toNat)
  if first = 0x2B then some (UInt8.ofNat low)
  else
    let high ← Hex.digitValue (Char.ofNat first.toNat)
    some (UInt8.ofNat (16 * high + low))

/-- The next byte is not the first of a character. -/
def insideChar (rest : List UInt8) : Bool :=
  rest.head?.any (fun next => 0x80 ≤ next.toNat ∧ next.toNat < 0xC0)

/-- The text cut into slices `hex[i..i + 2]`, each read as a byte, up to the first that is
not hex. A slice that goes past the end or ends inside a character panics.
-/
def hexBytes : List UInt8 → Parse (List UInt8)
  | [] => pure []
  | [_] => ExceptT.mk none
  | first :: second :: rest =>
      if insideChar rest then ExceptT.mk none
      else do
        let byte ← context (pairValue first second) "ledger_data is not hex"
        let bytes ← hexBytes rest
        pure (byte :: bytes)

/-- What is used of an answer. -/
structure LedgerHeader where
  header : Header
  ledgerHash : String
  index : Nat
deriving DecidableEq

/-- An index given as a number or as text. -/
def indexValue (value : Json) : Option Nat :=
  (value.asU64.map UInt64.toNat).or (value.asStr.bind parseU64)

/-- The sequence that the validators signed, at offset 0 of the header. -/
def headerSeq (header : Header) : Nat := beValue (header.toList.take 4)

/-- The header, the hash and the index of an answer once its `ledger_data` is bytes. -/
def headerFromRaw (result : Json) (raw : List UInt8) : Parse LedgerHeader := do
  if sized : raw.length = 118 then
    let header : Header := ⟨raw, sized⟩
    let ledgerHash ← context (result.index "ledger_hash").asStr
      "ledger response has no ledger_hash"
    let index ← context (indexValue (result.index "ledger_index"))
      "ledger response has no usable ledger_index"
    if headerSeq header = index then pure { header, ledgerHash, index }
    else throw ("ledger_data says sequence " ++ toString (headerSeq header)
      ++ " but the response says " ++ toString index)
  else throw ("ledger_data is " ++ toString raw.length ++ " bytes, expected 118")

def headerFromLedgerResponse (j : Json) : Parse LedgerHeader := do
  let result := j.index "result"
  if (result.index "validated").asBool.getD false then
    let hex ← context ((result.index "ledger").index "ledger_data").asStr
      "ledger response has no ledger_data (binary:true not set?)"
    let raw ← hexBytes (utf8 hex)
    headerFromRaw result raw
  else throw "ledger response is not for a validated ledger"

-----------------------------------------------------------------------------------------
-- Choosing among the answers
-----------------------------------------------------------------------------------------

/-- An answer that parses, with the endpoint it comes from. -/
structure Sourced where
  url : String
  ledger : LedgerHeader
deriving DecidableEq

/-- An answer read; `none` is a panic, and an answer that does not parse is skipped. -/
def parseResponse (response : String × Json) : Option (Option Sourced) :=
  (headerFromLedgerResponse response.2).run.map
    (fun outcome => outcome.toOption.map (fun ledger => { url := response.1, ledger }))

/-- One round of `max_by_key`: among equals the later one is kept. -/
def newer (best : Option Sourced) (candidate : Sourced) : Option Sourced :=
  match best with
  | none => some candidate
  | some best => if candidate.ledger.index < best.ledger.index then some best else some candidate

/-- One answer taken up by the search for the newest. -/
def consider (best : Option Sourced) (response : String × Json) : Option (Option Sourced) :=
  (parseResponse response).map (fun parsed => (parsed.map (newer best)).getD best)

/-- The newest answer among those that parse. -/
def newestParsed (responses : List (String × Json)) : Option (Option Sourced) :=
  responses.foldlM consider none

/-- The blob for the chosen answer. -/
def blobFor (tried : Nat) (buffer : ValidationBuffer) (newest : Option Sourced)
    : Except String (Sourced × List UInt8) := do
  let chosen ← okOr newest
    ("no endpoint returned a usable validated ledger (" ++ toString tried ++ " tried)")
  let validations ← okOr (buffer.get chosen.ledger.ledgerHash)
    ("no buffered validations yet for ledger " ++ toString chosen.ledger.index ++ " ("
      ++ chosen.ledger.ledgerHash ++ ")")
  let blob ← buildXclkBlob chosen.ledger.header validations
  .ok (chosen, blob)

/-- One tick up to the call of the enclave, on the answers that are JSON. -/
def advanceOnce (tried : Nat) (buffer : ValidationBuffer) (responses : List (String × Json))
    : Option (Except String (Sourced × List UInt8)) :=
  (newestParsed responses).map (blobFor tried buffer)

-----------------------------------------------------------------------------------------
-- Panics
-----------------------------------------------------------------------------------------

/-- A sequence panics if a step of it does that is reached. -/
theorem run_bind_eq_none_iff {α β : Type} {first : Parse α} {next : α → Parse β}
    : (first >>= next).run = none
      ↔ first.run = none ∨ ∃ value, first.run = some (.ok value) ∧ (next value).run = none := by
  show first.run.bind _ = none ↔ _
  cases first.run with
  | none => exact ⟨fun _ => .inl rfl, fun _ => rfl⟩
  | some outcome =>
      cases outcome with
      | error reason => exact ⟨fun panics => (by cases panics), fun given => (by simp at given)⟩
      | ok value =>
          constructor
          · intro panics
            exact .inr ⟨value, rfl, panics⟩
          · intro given
            rcases given with panics | ⟨other, same, panics⟩
            · cases panics
            · cases same
              exact panics

theorem run_context_ne_none {α : Type} (value : Option α) (missing : String)
    : (context value missing).run ≠ none :=
  Option.some_ne_none _

theorem run_context_eq_ok_iff {α : Type} {value : Option α} {missing : String} {result : α}
    : (context value missing).run = some (.ok result) ↔ value = some result := by
  show some (okOr value missing) = some (.ok result) ↔ _
  rw [Option.some_inj]
  exact okOr_eq_ok_iff

/-- Up to the first slice that is not a hex byte, no byte is left over and no slice ends
inside a character.
-/
def SlicesCleanly : List UInt8 → Prop
  | [] => True
  | [_] => False
  | first :: second :: rest =>
      insideChar rest = false ∧ ((pairValue first second).isSome → SlicesCleanly rest)

theorem hexBytes_panics_iff (text : List UInt8)
    : (hexBytes text).run = none ↔ ¬ SlicesCleanly text := by
  induction text using hexBytes.induct with
  | case1 => exact ⟨fun panics => (by cases panics), fun dirty => absurd trivial dirty⟩
  | case2 last => exact ⟨fun _ => id, fun _ => rfl⟩
  | case3 first second rest inside =>
      rw [hexBytes, if_pos inside]
      refine ⟨fun _ clean => ?_, fun _ => rfl⟩
      rw [clean.1] at inside
      cases inside
  | case4 first second rest boundary ih =>
      have onBoundary : insideChar rest = false := Bool.eq_false_iff.mpr boundary
      rw [hexBytes, if_neg boundary, run_bind_eq_none_iff]
      constructor
      · intro panics clean
        rcases panics with never | ⟨byte, isHex, panics⟩
        · exact run_context_ne_none _ _ never
        · rw [run_context_eq_ok_iff] at isHex
          rcases run_bind_eq_none_iff.mp panics with inRest | ⟨bytes, _, never⟩
          · exact ih.mp inRest (clean.2 (by simp [isHex]))
          · cases never
      · intro dirty
        cases isHex : pairValue first second with
        | none => exact absurd ⟨onBoundary, fun some => by simp [isHex] at some⟩ dirty
        | some byte =>
            refine .inr ⟨byte, run_context_eq_ok_iff.mpr rfl, run_bind_eq_none_iff.mpr (.inl ?_)⟩
            exact ih.mpr (fun clean => dirty ⟨onBoundary, fun _ => clean⟩)

theorem headerFromRaw_ne_none (result : Json) (raw : List UInt8)
    : (headerFromRaw result raw).run ≠ none := by
  unfold headerFromRaw
  split
  case isFalse => exact Option.some_ne_none _
  case isTrue sized =>
    intro panics
    rcases run_bind_eq_none_iff.mp panics with never | ⟨hash, _, panics⟩
    · exact run_context_ne_none _ _ never
    rcases run_bind_eq_none_iff.mp panics with never | ⟨index, _, panics⟩
    · exact run_context_ne_none _ _ never
    split at panics <;> cases panics

/-- The `ledger_data` of an answer that says it is validated can be sliced. -/
def Sliceable (response : Json) : Prop :=
  ((response.index "result").index "validated").asBool.getD false = true →
    ∀ text, (((response.index "result").index "ledger").index "ledger_data").asStr = some text →
      SlicesCleanly (utf8 text)

theorem headerFromLedgerResponse_panics_iff (response : Json)
    : (headerFromLedgerResponse response).run = none ↔ ¬ Sliceable response := by
  unfold headerFromLedgerResponse Sliceable
  dsimp only
  split
  case isFalse unvalidated =>
    refine ⟨fun panics => (by cases panics), fun dirty => absurd (fun validated => ?_) dirty⟩
    exact absurd validated unvalidated
  case isTrue validated =>
    rw [run_bind_eq_none_iff]
    constructor
    · intro panics clean
      rcases panics with never | ⟨text, isText, panics⟩
      · exact run_context_ne_none _ _ never
      · rw [run_context_eq_ok_iff] at isText
        rcases run_bind_eq_none_iff.mp panics with sliced | ⟨raw, _, never⟩
        · exact (hexBytes_panics_iff _).mp sliced (clean validated text isText)
        · exact headerFromRaw_ne_none _ _ never
    · intro dirty
      obtain ⟨_, notAll⟩ := Classical.not_imp.mp dirty
      obtain ⟨text, notText⟩ := not_forall.mp notAll
      obtain ⟨isText, dirtyText⟩ := Classical.not_imp.mp notText
      refine .inr ⟨text, run_context_eq_ok_iff.mpr isText, run_bind_eq_none_iff.mpr (.inl ?_)⟩
      exact (hexBytes_panics_iff _).mpr dirtyText

theorem parseResponse_eq_none_iff (response : String × Json)
    : parseResponse response = none ↔ ¬ Sliceable response.2 := by
  rw [parseResponse, Option.map_eq_none_iff, headerFromLedgerResponse_panics_iff]

-----------------------------------------------------------------------------------------
-- The choice
-----------------------------------------------------------------------------------------

/-- The answers that parse, in order. -/
def usable (responses : List (String × Json)) : List Sourced :=
  responses.filterMap (fun response => (parseResponse response).join)

/-- Without a panic the search runs over the answers that parse. -/
theorem foldlM_consider {responses : List (String × Json)}
    (calm : ∀ response ∈ responses, Sliceable response.2) (best : Option Sourced)
    : responses.foldlM consider best = some ((usable responses).foldl newer best) := by
  induction responses generalizing best with
  | nil => rfl
  | cons response others ih =>
      have later := ih (fun other member => calm other (.tail response member))
      have here : parseResponse response ≠ none := by
        rw [Ne, parseResponse_eq_none_iff, not_not]
        exact calm response List.mem_cons_self
      obtain ⟨parsed, found⟩ := Option.ne_none_iff_exists'.mp here
      rw [List.foldlM_cons, consider, found]
      cases parsed with
      | none =>
          have skipped : usable (response :: others) = usable others :=
            List.filterMap_cons_none (by rw [found]; rfl)
          rw [skipped]
          exact later best
      | some ledger =>
          have kept : usable (response :: others) = ledger :: usable others :=
            List.filterMap_cons_some (by rw [found]; rfl)
          rw [kept]
          exact later (newer best ledger)

/-- One answer that panics ends the search. -/
theorem foldlM_consider_panics {responses : List (String × Json)} {bad : String × Json}
    (member : bad ∈ responses) (panics : ¬ Sliceable bad.2) (best : Option Sourced)
    : responses.foldlM consider best = none := by
  induction responses generalizing best with
  | nil => cases member
  | cons response others ih =>
      rw [List.foldlM_cons]
      rcases List.mem_cons.mp member with rfl | later
      · rw [consider, (parseResponse_eq_none_iff bad).mpr panics]
        rfl
      · cases consider best response with
        | none => rfl
        | some next => exact ih later next

/-- The search ends with the answer of the highest index, and the last of those. -/
theorem newest_spec {parsed : List Sourced} (nonempty : parsed ≠ [])
    : ∃ best position, parsed.foldl newer none = some best ∧ parsed[position]? = some best
      ∧ ∀ (i : Nat) (other : Sourced), parsed[i]? = some other →
        other.ledger.index < best.ledger.index
          ∨ (other.ledger.index = best.ledger.index ∧ i ≤ position) := by
  induction parsed using List.reverseRecOn with
  | nil => exact absurd rfl nonempty
  | append_singleton front last ih =>
      have split : ∀ (i : Nat) (other : Sourced), (front ++ [last])[i]? = some other →
          front[i]? = some other ∨ (i = front.length ∧ other = last) := by
        intro i other found
        by_cases inside : i < front.length
        · rw [List.getElem?_append_left inside] at found
          exact .inl found
        · have bound := (List.getElem?_eq_some_iff.mp found).1
          rw [List.length_append, List.length_singleton] at bound
          obtain rfl : i = front.length := by omega
          rw [List.getElem?_concat_length] at found
          exact .inr ⟨rfl, (Option.some.inj found).symm⟩
      rw [List.foldl_append]
      by_cases empty : front = []
      · subst empty
        refine ⟨last, 0, rfl, rfl, fun i other found => ?_⟩
        rcases split i other found with nothing | ⟨rfl, rfl⟩
        · cases nothing
        · exact .inr ⟨rfl, Nat.le_refl 0⟩
      · obtain ⟨best, position, chosen, isAt, highest⟩ := ih empty
        have inFront : position < front.length := (List.getElem?_eq_some_iff.mp isAt).1
        rw [chosen]
        by_cases lower : last.ledger.index < best.ledger.index
        · refine ⟨best, position, if_pos lower, ?_, fun i other found => ?_⟩
          · rw [List.getElem?_append_left inFront]
            exact isAt
          · rcases split i other found with before | ⟨_, rfl⟩
            · exact highest i other before
            · exact .inl lower
        · refine ⟨last, front.length, if_neg lower, List.getElem?_concat_length,
            fun i other found => ?_⟩
          rcases split i other found with before | ⟨rfl, rfl⟩
          · have ranked := highest i other before
            omega
          · exact .inr ⟨rfl, Nat.le_refl _⟩

-----------------------------------------------------------------------------------------
-- One bad endpoint
-----------------------------------------------------------------------------------------

section BadEndpoint

variable (sha512 : List UInt8 → List UInt8) (buffer : ValidationBuffer)

/-- SHA-512Half('LWR\0' ‖ header). -/
def ledgerHash (header : Header) : List UInt8 :=
  (sha512 ([0x4C, 0x57, 0x52, 0x00] ++ header.toList)).take 32

/-- An answer about a ledger whose header hashes to the hash it states, and whose validations
are buffered.
-/
structure Honest (ledger : LedgerHeader) : Prop where
  hashes : Hex.decode ledger.ledgerHash = some (ledgerHash sha512 ledger.header)
  buffered : ∃ validations, buffer.get ledger.ledgerHash = some validations

/-- An honest answer whose buffered validations can be framed. -/
def Provable (ledger : LedgerHeader) : Prop :=
  Honest sha512 buffer ledger
    ∧ ∃ validations blob, buffer.get ledger.ledgerHash = some validations
      ∧ buildXclkBlob ledger.header validations = .ok blob

/-- No answer panics, and the tick has a blob for an honest ledger. -/
def Advances (tried : Nat) (responses : List (String × Json)) : Prop :=
  (∀ response ∈ responses, (headerFromLedgerResponse response.2).run ≠ none)
    ∧ ∃ chosen blob, advanceOnce tried buffer responses = some (.ok (chosen, blob))
      ∧ Honest sha512 buffer chosen.ledger

/-- Every answer that parses and is not provable is outranked by a provable one: a higher
index, or the same index later in the list.
-/
def Outranked (parsed : List Sourced) : Prop :=
  ∀ (i : Nat) (other : Sourced), parsed[i]? = some other →
    ¬ Provable sha512 buffer other.ledger →
      ∃ (j : Nat) (better : Sourced), parsed[j]? = some better
        ∧ Provable sha512 buffer better.ledger
        ∧ (other.ledger.index < better.ledger.index
          ∨ (other.ledger.index = better.ledger.index ∧ i < j))

variable {sha512 buffer}

/-- The choice is provable exactly if every answer that is not is outranked. -/
theorem provable_newest_iff {parsed : List Sourced} {best : Sourced} (nonempty : parsed ≠ [])
    (chosen : parsed.foldl newer none = some best)
    : Provable sha512 buffer best.ledger ↔ Outranked sha512 buffer parsed := by
  obtain ⟨newest, position, found, isAt, highest⟩ := newest_spec nonempty
  obtain rfl : best = newest := Option.some.inj (chosen.symm.trans found)
  constructor
  · intro provable i other isOther unprovable
    refine ⟨position, best, isAt, provable, ?_⟩
    rcases highest i other isOther with lower | ⟨equal, before⟩
    · exact .inl lower
    · rcases Nat.lt_or_eq_of_le before with strictly | rfl
      · exact .inr ⟨equal, strictly⟩
      · cases isOther.symm.trans isAt
        exact absurd provable unprovable
  · intro outranked
    by_contra unprovable
    obtain ⟨j, better, isBetter, _, higher⟩ := outranked position best isAt unprovable
    have ranked := highest j better isBetter
    omega

/-- What the tick makes of a choice. -/
theorem blobFor_eq_ok_iff {tried : Nat} {newest : Option Sourced} {chosen : Sourced}
    {blob : List UInt8}
    : blobFor tried buffer newest = .ok (chosen, blob)
      ↔ newest = some chosen ∧ ∃ validations,
        buffer.get chosen.ledger.ledgerHash = some validations
          ∧ buildXclkBlob chosen.ledger.header validations = .ok blob := by
  constructor
  · intro ok
    obtain ⟨picked, isPicked, ok⟩ := Except.bind_eq_ok_iff.mp ok
    obtain ⟨validations, found, ok⟩ := Except.bind_eq_ok_iff.mp ok
    obtain ⟨built, isBuilt, ok⟩ := Except.bind_eq_ok_iff.mp ok
    cases ok
    exact ⟨okOr_eq_ok_iff.mp isPicked, validations, okOr_eq_ok_iff.mp found, isBuilt⟩
  · intro given
    rcases given with ⟨rfl, validations, found, isBuilt⟩
    refine Except.bind_eq_ok_iff.mpr ⟨chosen, rfl, ?_⟩
    refine Except.bind_eq_ok_iff.mpr ⟨validations, okOr_eq_ok_iff.mpr found, ?_⟩
    exact Except.bind_eq_ok_iff.mpr ⟨blob, isBuilt, rfl⟩

/-- Among any answers of which one is honest, the clock advances to an honest ledger exactly
if the `ledger_data` of each answer can be sliced and every answer that parses without being
provable is outranked by a provable one.
-/
theorem clock_advances_iff {tried : Nat} {responses : List (String × Json)}
    (honest : ∃ sourced ∈ usable responses, Honest sha512 buffer sourced.ledger)
    : Advances sha512 buffer tried responses
      ↔ (∀ response ∈ responses, Sliceable response.2)
        ∧ Outranked sha512 buffer (usable responses) := by
  obtain ⟨sourced, member, _⟩ := honest
  have nonempty : usable responses ≠ [] := List.ne_nil_of_mem member
  obtain ⟨best, _, found, _, _⟩ := newest_spec nonempty
  constructor
  · intro advances
    obtain ⟨calm, chosen, blob, ticked, isHonest⟩ := advances
    have sliceable : ∀ response ∈ responses, Sliceable response.2 := by
      intro response inside
      by_contra dirty
      exact calm response inside ((headerFromLedgerResponse_panics_iff _).mpr dirty)
    refine ⟨sliceable, (provable_newest_iff nonempty found).mp ?_⟩
    rw [advanceOnce, newestParsed, foldlM_consider sliceable, found] at ticked
    obtain ⟨same, validations, isHeld, built⟩ := blobFor_eq_ok_iff.mp (Option.some.inj ticked)
    cases same
    exact ⟨isHonest, validations, blob, isHeld, built⟩
  · intro given
    obtain ⟨sliceable, outranked⟩ := given
    obtain ⟨isHonest, validations, blob, isHeld, built⟩ :=
      (provable_newest_iff nonempty found).mpr outranked
    refine ⟨fun response inside panics => ?_, best, blob, ?_, isHonest⟩
    · exact (headerFromLedgerResponse_panics_iff _).mp panics (sliceable response inside)
    · rw [advanceOnce, newestParsed, foldlM_consider sliceable, found]
      exact congrArg some (blobFor_eq_ok_iff.mpr ⟨rfl, validations, isHeld, built⟩)

end BadEndpoint

-----------------------------------------------------------------------------------------
-- Honest answers
-----------------------------------------------------------------------------------------

/-- The byte of a digit. -/
def asciiByte (char : Char) : UInt8 := UInt8.ofNat char.toNat

theorem digitChar_ascii : ∀ value < 16, (Hex.digitChar value).toNat < 0x80 := by
  decide

theorem pairValue_digits : ∀ high < 16, ∀ low < 16,
    pairValue (asciiByte (Hex.digitChar high)) (asciiByte (Hex.digitChar low))
      = some (UInt8.ofNat (16 * high + low)) := by
  decide

theorem encodeChars_ascii {bytes : List UInt8} {char : Char}
    (member : char ∈ Hex.encodeChars bytes)
    : char.toNat < 0x80 := by
  induction bytes with
  | nil => cases member
  | cons byte rest ih =>
      have bound := byte.toNat_lt
      rcases List.mem_cons.mp member with rfl | member
      · exact digitChar_ascii _ (by omega)
      rcases List.mem_cons.mp member with rfl | member
      · exact digitChar_ascii _ (by omega)
      · exact ih member

theorem utf8_encode (bytes : List UInt8)
    : utf8 (Hex.encode bytes) = (Hex.encodeChars bytes).map asciiByte := by
  have encoded : utf8 (Hex.encode bytes)
      = (Hex.encodeChars bytes).flatMap String.utf8EncodeChar := by
    rw [utf8, Hex.encode]
    simp [List.utf8Encode]
  rw [encoded, List.map_eq_flatMap]
  refine List.flatMap_congr (fun char member => ?_)
  exact UrlEncoded.utf8EncodeChar_ascii (encodeChars_ascii member)

/-- Hex digits are characters of one byte. -/
theorem insideChar_encodeChars (bytes : List UInt8)
    : insideChar ((Hex.encodeChars bytes).map asciiByte) = false := by
  cases bytes with
  | nil => rfl
  | cons byte rest =>
      have bound := byte.toNat_lt
      have small := digitChar_ascii (byte.toNat / 16) (by omega)
      have outside : ¬ 0x80 ≤ (asciiByte (Hex.digitChar (byte.toNat / 16))).toNat := by
        rw [asciiByte, UInt8.toNat_ofNat']
        omega
      simp [insideChar, Hex.encodeChars, outside]

/-- The hex text of a header reads back as its bytes. -/
theorem hexBytes_encode (bytes : List UInt8)
    : hexBytes (utf8 (Hex.encode bytes)) = pure bytes := by
  rw [utf8_encode]
  induction bytes with
  | nil => rfl
  | cons byte rest ih =>
      have bound := byte.toNat_lt
      have value := pairValue_digits (byte.toNat / 16) (by omega) (byte.toNat % 16) (by omega)
      have joined : 16 * (byte.toNat / 16) + byte.toNat % 16 = byte.toNat := by omega
      rw [joined, UInt8.ofNat_toNat] at value
      rw [Hex.encodeChars, List.map_cons, List.map_cons, hexBytes,
        if_neg (by simp [insideChar_encodeChars]), value, ih]
      rfl

/-- What an answer about a validated ledger holds. -/
def answerResult (data hash : String) (index : UInt64) : Json :=
  .object [
    ("ledger", .object [("ledger_data", .string data)]),
    ("ledger_hash", .string hash),
    ("ledger_index", .number (.posInt index)),
    ("validated", .bool true)]

def answer (data hash : String) (index : UInt64) : Json :=
  .object [("result", answerResult data hash index)]

/-- Every answer with a header that states its own index parses. -/
theorem parseResponse_answer (url hash : String) {header : Header} {index : UInt64}
    (agrees : headerSeq header = index.toNat)
    : parseResponse (url, answer (Hex.encode header.toList) hash index)
      = some (some { url, ledger := { header, ledgerHash := hash, index := index.toNat } }) := by
  have read : headerFromLedgerResponse (answer (Hex.encode header.toList) hash index)
      = headerFromRaw (answerResult (Hex.encode header.toList) hash index) header.toList := by
    unfold headerFromLedgerResponse
    show (hexBytes (utf8 (Hex.encode header.toList)) >>= _) = _
    rw [hexBytes_encode]
    rfl
  have accepted
      : headerFromRaw (answerResult (Hex.encode header.toList) hash index) header.toList
        = pure { header, ledgerHash := hash, index := index.toNat } := by
    unfold headerFromRaw
    rw [dif_pos header.toList_length]
    show (if headerSeq header = index.toNat then _ else _) = _
    rw [if_pos agrees]
    rfl
  rw [parseResponse, read, accepted]
  rfl

-----------------------------------------------------------------------------------------
-- A newer answer nobody can prove
-----------------------------------------------------------------------------------------

/-- The header of ledger 21038626 of the test network. -/
def realHeader : Header :=
  ⟨[0x01, 0x41, 0x06, 0x22, 0x01, 0x63, 0x45, 0x5E, 0x94, 0x86, 0x17, 0xB4, 0x32, 0xC5,
    0xB7, 0x46, 0x31, 0xAB, 0x7C, 0x12, 0x01, 0x72, 0xA9, 0x18, 0xC5, 0xA2, 0x3C, 0xA5,
    0xB3, 0x2D, 0xE2, 0x72, 0x02, 0xD3, 0xEA, 0x62, 0xE3, 0xA7, 0x95, 0x50, 0x0E, 0xE4,
    0xA5, 0xEB, 0x3F, 0x65, 0x70, 0xC1, 0xF9, 0xCE, 0xA1, 0x88, 0x9D, 0x00, 0xF8, 0xC4,
    0x46, 0x2F, 0x31, 0x82, 0x0A, 0x87, 0xA7, 0x23, 0x19, 0x8F, 0x38, 0xEF, 0x30, 0x1A,
    0xE8, 0xB2, 0x43, 0xE3, 0xFF, 0x07, 0x42, 0x86, 0x40, 0x84, 0x31, 0xA7, 0xAA, 0x52,
    0x68, 0x50, 0x06, 0x79, 0xDF, 0x31, 0x76, 0x7F, 0x78, 0x32, 0xDC, 0x97, 0x75, 0xE4,
    0xE1, 0x5C, 0xB2, 0x56, 0x66, 0x99, 0xB7, 0x58, 0x3A, 0xF6, 0x32, 0x49, 0x23, 0x54,
    0x32, 0x49, 0x23, 0x5C, 0x0A, 0x00], rfl⟩

def realHash : String := "B892DB7D9ACDF42C8D88B56E8F9B37871B816BBF0B97019A97BA626372BBEE52"

/-- SHA-512 on the hash prefix and that header. -/
def realSha512 (_ : List UInt8) : List UInt8 :=
  [0xB8, 0x92, 0xDB, 0x7D, 0x9A, 0xCD, 0xF4, 0x2C, 0x8D, 0x88, 0xB5, 0x6E, 0x8F, 0x9B,
   0x37, 0x87, 0x1B, 0x81, 0x6B, 0xBF, 0x0B, 0x97, 0x01, 0x9A, 0x97, 0xBA, 0x62, 0x63,
   0x72, 0xBB, 0xEE, 0x52, 0x65, 0x14, 0xDB, 0x48, 0x68, 0x24, 0xC8, 0x4F, 0xCF, 0xB7,
   0xF3, 0xCB, 0xA6, 0xF9, 0x5B, 0x3E, 0x49, 0x21, 0x62, 0x57, 0x62, 0x82, 0x3B, 0xC5,
   0x32, 0x03, 0xEF, 0xF2, 0x74, 0xCA, 0xEB, 0x4D]

def realAnswer : String × Json :=
  ("honest", answer (Hex.encode realHeader.toList) realHash 21038626)

/-- A buffer that holds a validation of that ledger. -/
def realBuffer : ValidationBuffer := ValidationBuffer.new.insert realHash sampleValidation

/-- What the answer parses to. -/
def realSourced : Sourced where
  url := "honest"
  ledger := { header := realHeader, ledgerHash := realHash, index := 21038626 }

theorem parseResponse_real : parseResponse realAnswer = some (some realSourced) :=
  parseResponse_answer "honest" realHash (by decide)

theorem honest_real : Honest realSha512 realBuffer realSourced.ledger where
  hashes := by decide +kernel
  buffered := ⟨[sampleValidation], by decide +kernel⟩

theorem provable_real : Provable realSha512 realBuffer realSourced.ledger := by
  have built := buildXclkBlob_of_framed realSourced.ledger.header (.cons framesAs_sample .nil)
  exact ⟨honest_real, [sampleValidation], _, by decide +kernel, built⟩

/-- The `ledger_data` of an answer that parses or is refused can be sliced. -/
theorem sliceable_of_parsed {response : String × Json} (read : (parseResponse response).isSome)
    : Sliceable response.2 := by
  by_contra dirty
  rw [(parseResponse_eq_none_iff response).mpr dirty] at read
  cases read

/-- An endpoint that has not validated a ledger. -/
def unsyncedAnswer : String × Json :=
  ("unsynced", .object [("result", .object [("validated", .bool false)])])

theorem parseResponse_unsynced : parseResponse unsyncedAnswer = some none := by
  rfl

/-- A header of the index before and nothing else. -/
def laggingHeader : Header := ⟨[0x01, 0x41, 0x06, 0x21] ++ List.replicate 114 0, rfl⟩

/-- An answer about the index before, under a hash that no validation names. -/
def laggingAnswer : String × Json :=
  ("lagging", answer (Hex.encode laggingHeader.toList) "unknown" 21038625)

def laggingSourced : Sourced where
  url := "lagging"
  ledger := { header := laggingHeader, ledgerHash := "unknown", index := 21038625 }

theorem parseResponse_lagging : parseResponse laggingAnswer = some (some laggingSourced) :=
  parseResponse_answer "lagging" "unknown" (by decide)

/-- Four endpoints: the honest one answers third, and the lagging one answers twice. -/
def mixedAnswers : List (String × Json) :=
  [unsyncedAnswer, laggingAnswer, realAnswer, laggingAnswer]

theorem usable_mixed : usable mixedAnswers = [laggingSourced, realSourced, laggingSourced] := by
  simp [usable, mixedAnswers, parseResponse_unsynced, parseResponse_lagging, parseResponse_real]

/-- Among answers that do not parse or that lag behind, the honest one advances the clock. -/
theorem clock_advances_mixed
    : (∃ sourced ∈ usable mixedAnswers, Honest realSha512 realBuffer sourced.ledger)
      ∧ Advances realSha512 realBuffer 4 mixedAnswers := by
  have honest : ∃ sourced ∈ usable mixedAnswers,
      Honest realSha512 realBuffer sourced.ledger := by
    rw [usable_mixed]
    exact ⟨realSourced, by simp, honest_real⟩
  refine ⟨honest, (clock_advances_iff honest).mpr ⟨?_, ?_⟩⟩
  · have parsed : ∀ response ∈ mixedAnswers, (parseResponse response).isSome := by
      simp [mixedAnswers, parseResponse_unsynced, parseResponse_lagging, parseResponse_real]
    exact fun response member => sliceable_of_parsed (parsed response member)
  · intro i other found unprovable
    rw [usable_mixed] at found ⊢
    have known : other = laggingSourced ∨ other = realSourced := by
      simpa [or_comm] using List.mem_of_getElem? found
    rcases known with rfl | rfl
    · exact ⟨1, realSourced, rfl, provable_real, .inl (by decide)⟩
    · exact absurd provable_real unprovable

/-- A header of the next index and nothing else. -/
def forgedHeader : Header := ⟨[0x01, 0x41, 0x06, 0x23] ++ List.replicate 114 0, rfl⟩

/-- An answer about the next index, under a hash that no validation names. -/
def forgedAnswer : String × Json :=
  ("forged", answer (Hex.encode forgedHeader.toList) "unknown" 21038627)

theorem parseResponse_forged
    : parseResponse forgedAnswer = some (some {
        url := "forged",
        ledger := { header := forgedHeader, ledgerHash := "unknown", index := 21038627 } }) :=
  parseResponse_answer "forged" "unknown" (by decide)

/-- An answer whose `ledger_data` has an odd number of digits. -/
def oddAnswer : String × Json := ("odd", answer "0" "unknown" 0)

/-- A newer answer without buffered validations keeps the honest one from being used, and
hex of odd length panics.
-/
theorem clock_stopped_by_one_endpoint
    : realSourced ∈ usable [realAnswer, forgedAnswer]
      ∧ Honest realSha512 realBuffer realSourced.ledger
      ∧ ¬ Advances realSha512 realBuffer 2 [realAnswer, forgedAnswer]
      ∧ advanceOnce 2 realBuffer [realAnswer, oddAnswer] = none := by
  refine ⟨by simp [usable, parseResponse_real], honest_real, ?_, ?_⟩
  · intro advances
    obtain ⟨_, chosen, blob, ticked, _⟩ := advances
    have picked : ((newestParsed [realAnswer, forgedAnswer]).map
        (fun newest => newest.map (fun sourced => sourced.ledger.ledgerHash)))
          = some (some "unknown") := by
      simp [newestParsed, consider, parseResponse_real, parseResponse_forged, newer, realSourced]
    obtain ⟨newest, isNewest, made⟩ := Option.map_eq_some_iff.mp ticked
    obtain ⟨rfl, validations, isHeld, _⟩ := blobFor_eq_ok_iff.mp made
    rw [isNewest] at picked
    have unknown : chosen.ledger.ledgerHash = "unknown" :=
      Option.some.inj (Option.some.inj picked)
    rw [unknown] at isHeld
    have nothing : realBuffer.get "unknown" = none := by decide +kernel
    cases nothing.symm.trans isHeld
  · have odd : ¬ Sliceable oddAnswer.2 :=
      (parseResponse_eq_none_iff oddAnswer).mp (by decide +kernel)
    rw [advanceOnce, newestParsed, foldlM_consider_panics (by simp) odd]
    rfl

end PerpDex.AttestedClock
