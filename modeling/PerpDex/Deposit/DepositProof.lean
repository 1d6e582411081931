import PerpDex.Deposit.Scanner
import PerpDex.Spv.Clock
import PerpDex.Spv.Inclusion

/-! Which payment a deposit proof is about.
A payment is found by its place among the expanded transactions of a ledger, and its bytes are
taken from the same place of a second answer. The rebuilt tree has the signed root whatever the
order of the second answer is, so a proof may be one of another transaction.
-/

namespace PerpDex

-----------------------------------------------------------------------------------------
-- The header of a ledger from its fields
-----------------------------------------------------------------------------------------

namespace SpvProof

open Wire
open AttestedClock (indexValue)

/-- 32 bytes in hexadecimal. -/
def headerHash (ledger : Json) (key : String) : Except String (Bytes 32) := do
  let text ← okOr (ledger.index key).asStr s!"{key} not a string"
  let bytes ← okOr (Hex.decode text) s!"{key} not hex"
  if sized : bytes.length = 32 then .ok ⟨bytes, sized⟩
  else .error s!"{key} must be 32 bytes, got {bytes.length}"

/-- A number that has to fit a field of the header. -/
def headerNumber (ledger : Json) (key : String) (width : Nat) (wide : String)
    : Except String Nat := do
  let value ← okOr (indexValue (ledger.index key)) key
  tryFrom width value wide

/-- The canonical header, big-endian throughout. -/
def serializeLedgerHeader (ledger : Json) : Except String Header := do
  let seq ← headerNumber ledger "ledger_index" 4
    "ledger_index does not fit the header's u32 sequence field"
  let coins ← okOr (ledger.index "total_coins").asStr "total_coins"
  let drops ← okOr (parseU64 coins) "total_coins parse"
  let parent ← headerHash ledger "parent_hash"
  let txh ← headerHash ledger "transaction_hash"
  let acct ← headerHash ledger "account_hash"
  let pct ← headerNumber ledger "parent_close_time" 4
    "parent_close_time does not fit the header's u32 field"
  let ct ← headerNumber ledger "close_time" 4 "close_time does not fit the header's u32 field"
  let ctr ← headerNumber ledger "close_time_resolution" 1
    "close_time_resolution does not fit the header's u8 field"
  let cf ← headerNumber ledger "close_flags" 1
    "close_flags does not fit the header's u8 field"
  .ok ⟨beBytes 4 seq ++ (beBytes 8 drops ++ (parent.toList ++ (txh.toList ++ (acct.toList
    ++ (beBytes 4 pct ++ (beBytes 4 ct ++ (beBytes 1 ctr ++ beBytes 1 cf))))))),
    by simp [length_beBytes]⟩

end SpvProof

namespace DepositSpv

open Wire SpvProof
open AttestedClock (Parse context pairValue insideChar headerSeq)
open TxShamap (TxShaMap Item PathError TxInclusionProof txId)

-----------------------------------------------------------------------------------------
-- Building a proof
-----------------------------------------------------------------------------------------

/-- The slices `s[i..i + 2]` from an offset on, each read as a byte. A slice that ends inside a
character panics.
-/
def unhexFrom : Nat → List UInt8 → Parse (List UInt8)
  | _, [] => pure []
  | _, [_] => ExceptT.mk none
  | offset, first :: second :: rest =>
      if insideChar rest then ExceptT.mk none
      else do
        let byte ← context (pairValue first second)
          s!"bad hex at {offset}: invalid digit found in string"
        let bytes ← unhexFrom (offset + 2) rest
        pure (byte :: bytes)

def unhex (s : String) : Parse (List UInt8) :=
  if (utf8 s).length % 2 ≠ 0 then throw s!"odd-length hex ({(utf8 s).length} chars)"
  else unhexFrom 0 (utf8 s)

example : (unhex "aé1").run = none := by decide +kernel

/-- An error says what was being done when it came up. -/
def doing {α : Type} (what : String) (action : Parse α) : Parse α :=
  ExceptT.mk (action.run.map (fun outcome => outcome.mapError (fun cause => s!"{what}: {cause}")))

/-- A step that does not panic. -/
def calm {α : Type} (outcome : Except String α) : Parse α := ExceptT.mk (some outcome)

def ofPath {α : Type} : Except PathError α → Parse α
  | .ok value => pure value
  | .error (.refused message) => throw message
  | .error .panicked => ExceptT.mk none

/-- The bytes of the header as the node serialized them, or else its fields. -/
def ledgerHeader (ledger : Json) : Parse Header :=
  match (ledger.index "ledger_data").asStr with
  | some hex => do
      let raw ← doing "ledger_data hex" (unhex hex)
      if sized : raw.length = 118 then pure ⟨raw, sized⟩
      else throw s!"ledger_data is {raw.length} bytes, expected 118"
  | none =>
      doing "serialize ledger header from JSON fields" (calm (serializeLedgerHeader ledger))

/-- The bytes of the transactions from one of them on, each with its metadata. -/
def ledgerItems : Nat → List Json → Parse (List Item)
  | _, [] => pure []
  | i, t :: rest => do
      let txHex ← context (t.index "tx_blob").asStr
        s!"transaction {i} has no tx_blob (binary:true not set?)"
      let metaHex ← context (t.index "meta").asStr s!"transaction {i} has no meta"
      let txBlob ← unhex txHex
      let metadata ← unhex metaHex
      let items ← ledgerItems (i + 1) rest
      pure ((txBlob, metadata) :: items)

/-- How a scan fails: with an error that its loop reports, or in a panic, which ends the task
the loop runs in.
-/
inductive ScanFailure where
  | reported (message : String)
  | panicked
deriving DecidableEq

/-- What was being done is added to a message; a panic has none. -/
instance : Failure ScanFailure where
  report := .reported
  explain
    | what, .reported message => .reported s!"{what}: {message}"
    | _, .panicked => .panicked

structure DepositProof where
  blob : List UInt8
  txId : Bytes 32
  ledgerIndex : Nat
deriving DecidableEq

/-- The root of the transaction tree in a header. -/
def signedRoot (header : Header) : List UInt8 := (header.toList.drop 44).take 32

section Model

variable (sha512half : List UInt8 → Bytes 32) (render : Json → String)

/-- The proof for the transaction at a place of a ledger. How JSON is written is a parameter. -/
def buildDepositProof (ledgerJson : Json) (targetIndex : Nat) (validations : List (List UInt8))
    : Parse DepositProof := do
  let header ← ledgerHeader (ledgerJson.index "ledger")
  let txs ← context (ledgerTransactions ledgerJson)
    "ledger has no expanded transactions array"
  if txs.length ≤ targetIndex then
    throw s!"transaction index {targetIndex} out of range ({txs.length} in ledger)"
  else
    let items ← ledgerItems 0 txs
    let map ← doing "rebuild the transaction SHAMap" (calm (TxShaMap.build sha512half items))
    if (map.rootHash sha512half).toList ≠ signedRoot header then
      throw ("rebuilt tx root does not match the signed transaction_hash for ledger "
        ++ render (ledgerJson.index "ledger_index") ++ " (" ++ toString items.length
        ++ " transactions) — the transaction list is incomplete or altered")
    else
      let item := items.getD targetIndex ([], [])
      let key := txId sha512half item.1
      let proof ← doing "read the inclusion path off the rebuilt map"
        (ofPath (map.inclusionProof sha512half key))
      let blob ← doing "assemble the XDEP blob"
        (calm (buildXdepBlob header validations item.1 item.2 proof.innerRootToLeaf))
      pure { blob, txId := key, ledgerIndex := headerSeq header }

/-- What is handed to the enclave, or how the scan fails there. -/
def builtBlob (ledgerJson : Json) (targetIndex : Nat) (validations : List (List UInt8))
    : Except ScanFailure (List UInt8) :=
  match (buildDepositProof sha512half render ledgerJson targetIndex validations).run with
  | none => .error .panicked
  | some (.error cause) => .error (.reported cause)
  | some (.ok proof) => .ok proof.blob

variable (escrow : String)

/-- The proof that a pass builds for the payment at a place. -/
def Pass.proofAt (pass : Pass) (idx : Nat) : Option DepositProof := do
  let j ← pass.ledger.toOption
  let ledgerHash ← ((j.index "result").index "ledger_hash").asStr
  let validations ← pass.validations ledgerHash
  let jb ← pass.binary.toOption
  let outcome ← (buildDepositProof sha512half render (jb.index "result") idx validations).run
  outcome.toOption

/-- The scan hands this proof to the enclave for the payment at a place. -/
def Pass.Submits (pass : Pass) (index idx : Nat) (proof : DepositProof) : Prop :=
  pass.proofAt sha512half render idx = some proof
  ∧ idx ∈ (scanOneLedger (builtBlob sha512half render) escrow pass index).1.map Prod.fst

end Model

-----------------------------------------------------------------------------------------
-- When a proof is built
-----------------------------------------------------------------------------------------

/-- What a binary answer yields if it can be proven from: the header and the transactions, whose
tree has the signed root, and validations that can be framed.
-/
structure AnswerProves (sha512half : List UInt8 → Bytes 32) (result : Json)
    (validations : List (List UInt8)) (header : Header) (items : List Item) : Prop where
  headerRead : (ledgerHeader (result.index "ledger")).run = some (.ok header)
  itemsRead
    : ∃ txs,
        ledgerTransactions result = some txs ∧ (ledgerItems 0 txs).run = some (.ok items)
  rooted
    : ∃ map,
        TxShaMap.build sha512half items = .ok map
        ∧ (map.rootHash sha512half).toList = signedRoot header
  framed : ∃ framed, buildValidationsSection validations = .ok framed

/-- Reading a binary answer for a place panics: one of its hexadecimal texts, of the header or,
if the place is among them, of the transactions, is cut inside a character.
-/
def AnswerPanics (result : Json) (idx : Nat) : Prop :=
  (ledgerHeader (result.index "ledger")).run = none
  ∨ ∃ header txs,
      (ledgerHeader (result.index "ledger")).run = some (.ok header)
      ∧ ledgerTransactions result = some txs ∧ idx < txs.length
      ∧ (ledgerItems 0 txs).run = none

/-- The blob of the proof holds the transaction, next to the validations. -/
def Carries (validations : List (List UInt8)) (proof : DepositProof) (txBlob : List UInt8)
    : Prop :=
  ∃ header metadata path,
    buildXdepBlob header validations txBlob metadata path = .ok proof.blob

theorem run_bind_eq_ok_iff {α β : Type} {first : Parse α} {next : α → Parse β} {result : β}
    : (first >>= next).run = some (.ok result)
      ↔ ∃ value, first.run = some (.ok value) ∧ (next value).run = some (.ok result) := by
  show first.run.bind _ = _ ↔ _
  cases first.run with
  | none => exact ⟨fun nothing => (by cases nothing), fun ⟨_, nothing, _⟩ => (by cases nothing)⟩
  | some outcome =>
      cases outcome with
      | error reason =>
          exact ⟨fun failed => (by cases failed), fun ⟨_, failed, _⟩ => (by cases failed)⟩
      | ok value =>
          constructor
          · exact fun succeeded => ⟨value, rfl, succeeded⟩
          · intro given
            rcases given with ⟨other, same, succeeded⟩
            cases same
            exact succeeded

theorem run_doing_eq_ok_iff {α : Type} {what : String} {action : Parse α} {result : α}
    : (doing what action).run = some (.ok result) ↔ action.run = some (.ok result) := by
  show action.run.map _ = _ ↔ _
  cases action.run with
  | none => exact ⟨fun nothing => (by cases nothing), fun nothing => (by cases nothing)⟩
  | some outcome =>
      cases outcome with
      | error reason =>
          exact ⟨fun failed => (by cases failed), fun failed => (by cases failed)⟩
      | ok value => exact Iff.rfl

theorem run_doing_eq_none_iff {α : Type} {what : String} {action : Parse α}
    : (doing what action).run = none ↔ action.run = none :=
  Option.map_eq_none_iff

theorem length_ledgerItems {txs : List Json}
    : ∀ {i : Nat} {items : List Item}, (ledgerItems i txs).run = some (.ok items)
      → items.length = txs.length := by
  induction txs with
  | nil =>
      intro i items read
      cases read
      rfl
  | cons t rest ih =>
      intro i items read
      obtain ⟨txHex, -, read⟩ := run_bind_eq_ok_iff.mp read
      obtain ⟨metaHex, -, read⟩ := run_bind_eq_ok_iff.mp read
      obtain ⟨txBlob, -, read⟩ := run_bind_eq_ok_iff.mp read
      obtain ⟨metadata, -, read⟩ := run_bind_eq_ok_iff.mp read
      obtain ⟨others, later, read⟩ := run_bind_eq_ok_iff.mp read
      cases read
      rw [List.length_cons, List.length_cons, ih later]

/-- Transactions of a ledger and their paths fit the transport. -/
theorem buildXdepBlob_ok {header : Header} {validations : List (List UInt8)} {item : Item}
    {path : List (Bytes 512)} {framed : UInt16 × List UInt8}
    (isFramed : buildValidationsSection validations = .ok framed)
    (writable : TxShamap.Writable item) (shallow : path.length ≤ TxShamap.maxDepth)
    : ∃ blob, buildXdepBlob header validations item.1 item.2 path = .ok blob := by
  have short : ∀ {length : Nat}, length ≤ 918744 → length < 256 ^ 4 := by omega
  have deep : path.length < 256 ^ 1 := lt_of_le_of_lt shallow (by decide)
  rw [buildXdepBlob, isFramed]
  simp only [buildXdepBlobFramed, tryFrom, if_pos (short writable.1), if_pos (short writable.2),
    if_pos deep, bind, Except.bind]
  exact ⟨_, rfl⟩

/-- Where the transaction stands in a blob. -/
theorem Carries.blob_eq {validations : List (List UInt8)} {proof : DepositProof}
    {txBlob : List UInt8} {framed : UInt16 × List UInt8}
    (isFramed : buildValidationsSection validations = .ok framed)
    (carries : Carries validations proof txBlob)
    : ∃ header rest,
        txBlob.length < 256 ^ 4
        ∧ proof.blob
          = attestedPrefix xdepMagic header framed.1 framed.2
            ++ (beBytes 4 txBlob.length ++ (txBlob ++ rest)) := by
  obtain ⟨header, metadata, path, built⟩ := carries
  obtain ⟨same, framedToo, built⟩ := Except.bind_eq_ok_iff.mp built
  obtain rfl := Except.ok.inj (isFramed.symm.trans framedToo)
  obtain ⟨txLen, txOk, built⟩ := Except.bind_eq_ok_iff.mp built
  obtain ⟨metaLen, -, built⟩ := Except.bind_eq_ok_iff.mp built
  obtain ⟨depth, -, built⟩ := Except.bind_eq_ok_iff.mp built
  obtain ⟨fits, rfl⟩ := tryFrom_eq_ok_iff.mp txOk
  exact ⟨header, _, fits, (Except.ok.inj built).symm⟩

/-- A blob holds one transaction only. -/
theorem Carries.unique {validations : List (List UInt8)} {proof : DepositProof}
    {left right : List UInt8} (isLeft : Carries validations proof left)
    (isRight : Carries validations proof right)
    : left = right := by
  obtain ⟨framed, isFramed⟩ : ∃ framed, buildValidationsSection validations = .ok framed := by
    obtain ⟨_, _, _, built⟩ := isLeft
    obtain ⟨framed, isFramed, -⟩ := Except.bind_eq_ok_iff.mp built
    exact ⟨framed, isFramed⟩
  obtain ⟨header, rest, fits, blob⟩ := isLeft.blob_eq isFramed
  obtain ⟨header', rest', fits', blob'⟩ := isRight.blob_eq isFramed
  have prefixes : (attestedPrefix xdepMagic header framed.1 framed.2).length
      = (attestedPrefix xdepMagic header' framed.1 framed.2).length := by
    simp [attestedPrefix]
  have after := (List.append_inj (blob.symm.trans blob') prefixes).2
  obtain ⟨lengths, texts⟩ := List.append_inj after (by rw [length_beBytes, length_beBytes])
  have sized : left.length = right.length := by
    have values := congrArg beValue lengths
    rwa [beValue_beBytes, beValue_beBytes, Nat.mod_eq_of_lt fits, Nat.mod_eq_of_lt fits']
      at values
  exact (List.append_inj texts sized).1

section Build

variable {sha512half : List UInt8 → Bytes 32} {render : Json → String} {result : Json}
  {validations : List (List UInt8)} {idx : Nat}

/-- A proof that is built holds the transaction at its place. -/
theorem carries_of_built {proof : DepositProof}
    (built
      : (buildDepositProof sha512half render result idx validations).run = some (.ok proof))
    : ∃ header items item,
        AnswerProves sha512half result validations header items
        ∧ items[idx]? = some item
        ∧ Carries validations proof item.1 := by
  obtain ⟨header, headerRead, built⟩ := run_bind_eq_ok_iff.mp built
  obtain ⟨txs, listed, built⟩ := run_bind_eq_ok_iff.mp built
  rw [AttestedClock.run_context_eq_ok_iff] at listed
  split at built
  · cases built
  rename_i inRange
  obtain ⟨items, itemsRead, built⟩ := run_bind_eq_ok_iff.mp built
  obtain ⟨map, mapBuilt, built⟩ := run_bind_eq_ok_iff.mp built
  rw [run_doing_eq_ok_iff] at mapBuilt
  split at built
  · cases built
  rename_i rooted
  obtain ⟨path, -, built⟩ := run_bind_eq_ok_iff.mp built
  obtain ⟨blob, blobBuilt, built⟩ := run_bind_eq_ok_iff.mp built
  rw [run_doing_eq_ok_iff] at blobBuilt
  cases built
  have written := Option.some.inj blobBuilt
  obtain ⟨framed, isFramed, -⟩ := Except.bind_eq_ok_iff.mp written
  have length := length_ledgerItems itemsRead
  have within : idx < items.length := by omega
  refine ⟨header, items, items[idx], ⟨headerRead, ⟨txs, listed, itemsRead⟩,
    ⟨map, Option.some.inj mapBuilt, not_not.mp rooted⟩, framed, isFramed⟩,
    List.getElem?_eq_getElem within, header, items[idx].2, path.innerRootToLeaf, ?_⟩
  rw [List.getD_eq_getElem _ _ within] at written
  exact written

/-- An answer that can be proven from yields a proof for each of its places. -/
theorem exists_built {header : Header} {items : List Item} {item : Item}
    (proves : AnswerProves sha512half result validations header items)
    (placed : items[idx]? = some item)
    : ∃ proof,
        (buildDepositProof sha512half render result idx validations).run = some (.ok proof)
        ∧ Carries validations proof item.1 := by
  obtain ⟨headerRead, ⟨txs, listed, itemsRead⟩, ⟨map, mapBuilt, rooted⟩, framed, isFramed⟩ :=
    proves
  obtain ⟨writable, spread, isRoot⟩ := TxShamap.build_eq_ok_iff.mp mapBuilt
  obtain ⟨within, isItem⟩ := List.getElem?_eq_some_iff.mp placed
  have member : item ∈ items := List.mem_of_getElem? placed
  have inRange : ¬ txs.length ≤ idx := by
    rw [← length_ledgerItems itemsRead]
    omega
  have place : items.getD idx ([], []) = item := by
    rw [List.getD_eq_getElem _ _ within, isItem]
  have ends := (TxShamap.walk_rootOf spread (TxShamap.mem_entriesOf member)).1
  rw [← isRoot] at ends
  have opened := TxShamap.inclusionProof_ok mapBuilt ends
  obtain ⟨blob, written⟩ : ∃ blob, buildXdepBlob header validations item.1 item.2
      (TxShamap.pathOf sha512half map (txId sha512half item.1)) = .ok blob :=
    buildXdepBlob_ok isFramed (writable item member) (TxShamap.length_pathOf mapBuilt _)
  refine ⟨⟨blob, txId sha512half item.1, headerSeq header⟩, ?_, header, _, _, written⟩
  refine run_bind_eq_ok_iff.mpr ⟨header, headerRead, ?_⟩
  refine run_bind_eq_ok_iff.mpr ⟨txs, AttestedClock.run_context_eq_ok_iff.mpr listed, ?_⟩
  rw [if_neg inRange]
  refine run_bind_eq_ok_iff.mpr ⟨items, itemsRead, ?_⟩
  refine run_bind_eq_ok_iff.mpr ⟨map, run_doing_eq_ok_iff.mpr (congrArg some mapBuilt), ?_⟩
  rw [if_neg (not_not.mpr rooted)]
  dsimp only
  rw [place, opened]
  refine run_bind_eq_ok_iff.mpr ⟨_, run_doing_eq_ok_iff.mpr rfl, ?_⟩
  exact run_bind_eq_ok_iff.mpr
    ⟨blob, run_doing_eq_ok_iff.mpr (congrArg some written), rfl⟩

/-- Building a proof panics exactly if reading the answer does: the path of a transaction of the
rebuilt tree is read off without one.
-/
theorem built_eq_none_iff
    : (buildDepositProof sha512half render result idx validations).run = none
      ↔ AnswerPanics result idx := by
  constructor
  · intro panics
    rcases AttestedClock.run_bind_eq_none_iff.mp panics with here | ⟨header, headerRead, panics⟩
    · exact .inl here
    rcases AttestedClock.run_bind_eq_none_iff.mp panics with never | ⟨txs, listed, panics⟩
    · exact absurd never (AttestedClock.run_context_ne_none _ _)
    rw [AttestedClock.run_context_eq_ok_iff] at listed
    split at panics
    · cases panics
    rename_i inRange
    rcases AttestedClock.run_bind_eq_none_iff.mp panics with cut | ⟨items, itemsRead, panics⟩
    · exact .inr ⟨header, txs, headerRead, listed, Nat.lt_of_not_le inRange, cut⟩
    rcases AttestedClock.run_bind_eq_none_iff.mp panics with never | ⟨map, mapBuilt, panics⟩
    · cases run_doing_eq_none_iff.mp never
    rw [run_doing_eq_ok_iff] at mapBuilt
    split at panics
    · cases panics
    rcases AttestedClock.run_bind_eq_none_iff.mp panics with noPath | ⟨path, -, panics⟩
    · have length := length_ledgerItems itemsRead
      have within : idx < items.length := by omega
      have isMap := Option.some.inj mapBuilt
      obtain ⟨writable, spread, isRoot⟩ := TxShamap.build_eq_ok_iff.mp isMap
      have ends := (TxShamap.walk_rootOf spread
        (TxShamap.mem_entriesOf (List.getElem_mem within))).1
      rw [← isRoot] at ends
      rw [run_doing_eq_none_iff, List.getD_eq_getElem _ _ within,
        TxShamap.inclusionProof_ok isMap ends] at noPath
      cases noPath
    rcases AttestedClock.run_bind_eq_none_iff.mp panics with never | ⟨blob, -, panics⟩
    · cases run_doing_eq_none_iff.mp never
    · cases panics
  · intro given
    rcases given with here | ⟨header, txs, headerRead, listed, within, cut⟩
    · exact AttestedClock.run_bind_eq_none_iff.mpr (.inl here)
    · refine AttestedClock.run_bind_eq_none_iff.mpr (.inr ⟨header, headerRead, ?_⟩)
      refine AttestedClock.run_bind_eq_none_iff.mpr
        (.inr ⟨txs, AttestedClock.run_context_eq_ok_iff.mpr listed, ?_⟩)
      rw [if_neg (Nat.not_le_of_lt within)]
      exact AttestedClock.run_bind_eq_none_iff.mpr (.inl cut)

theorem builtBlob_panicked_iff
    : builtBlob sha512half render result idx validations = .error .panicked
      ↔ AnswerPanics result idx := by
  rw [← @built_eq_none_iff sha512half render result validations idx, builtBlob]
  split
  case h_1 panics => exact iff_of_true rfl panics
  case h_2 cause failed => exact iff_of_false (fun given => by cases given) (by simp [failed])
  case h_3 proof built => exact iff_of_false (fun given => by cases given) (by simp [built])

/-- An answer that panics for a place panics for every earlier one. -/
theorem AnswerPanics.earlier {other : Nat} (panics : AnswerPanics result idx)
    (before : other ≤ idx)
    : AnswerPanics result other := by
  rcases panics with here | ⟨header, txs, headerRead, listed, within, cut⟩
  · exact .inl here
  · exact .inr ⟨header, txs, headerRead, listed, lt_of_le_of_lt before within, cut⟩

end Build

-----------------------------------------------------------------------------------------
-- What a scan submits
-----------------------------------------------------------------------------------------

/-- The expanded answer has this hash for the payment at a place. -/
def HashAt (expanded : Json) (idx : Nat) (id : Bytes 32) : Prop :=
  ∃ txs tx text,
    ledgerTransactions expanded = some txs
    ∧ txs[idx]? = some tx
    ∧ (tx.index "hash").asStr = some text
    ∧ Hex.decode text = some id.toList

theorem HashAt.unique {expanded : Json} {idx : Nat} {left right : Bytes 32}
    (isLeft : HashAt expanded idx left) (isRight : HashAt expanded idx right)
    : left = right := by
  obtain ⟨_, _, _, transactions, place, named, decoded⟩ := isLeft
  obtain ⟨_, _, _, transactions', place', named', decoded'⟩ := isRight
  obtain rfl := Option.some.inj (transactions.symm.trans transactions')
  obtain rfl := Option.some.inj (place.symm.trans place')
  obtain rfl := Option.some.inj (named.symm.trans named')
  exact List.Vector.toList_injective (Option.some.inj (decoded.symm.trans decoded'))

/-- The validations that are buffered for the ledger of the expanded answer. -/
def Pass.Buffered (pass : Pass) (expanded : Json) (validations : List (List UInt8)) : Prop :=
  ∃ ledgerHash,
    (expanded.index "ledger_hash").asStr = some ledgerHash
    ∧ pass.validations ledgerHash = some validations

section Scan

variable (sha512half : List UInt8 → Bytes 32) (render : Json → String) (escrow : String)

/-- Each proof that is submitted for a payment of the expanded answer carries the transaction
with the payment's hash, and if none is submitted for it the scan ends with an error that is
reported.
-/
def Pass.ScanProves (pass : Pass) (index : Nat) : Prop :=
  ∀ j, pass.ledger = .ok j →
    ∀ idx ∈ findEscrowPayments (j.index "result") escrow,
      (∀ proof, pass.Submits sha512half render escrow index idx proof →
        ∃ validations txBlob,
          pass.Buffered (j.index "result") validations
          ∧ Carries validations proof txBlob
          ∧ HashAt (j.index "result") idx (txId sha512half txBlob))
      ∧ ((¬ ∃ proof, pass.Submits sha512half render escrow index idx proof) →
          ∃ message,
            (scanOneLedger (builtBlob sha512half render) escrow pass index).2
            = .error (.reported message))

/-- Where there is a payment to prove, reading the binary answer does not panic; and nothing can
be proven from the two answers, or for each payment of the expanded one the transaction at the
same place of the binary one, if there is any, has its hash.
-/
structure Pass.Aligned (pass : Pass) : Prop where
  unharmed
    : ∀ j jb validations,
        pass.ledger = .ok j → pass.Buffered (j.index "result") validations →
        pass.binary = .ok jb →
        ∀ idx ∈ findEscrowPayments (j.index "result") escrow,
          ¬ AnswerPanics (jb.index "result") idx
  hashed
    : ∀ j jb validations header items,
        pass.ledger = .ok j → pass.Buffered (j.index "result") validations →
        pass.binary = .ok jb →
        AnswerProves sha512half (jb.index "result") validations header items →
        ∀ idx ∈ findEscrowPayments (j.index "result") escrow, ∀ item, items[idx]? = some item →
          HashAt (j.index "result") idx (txId sha512half item.1)

variable {sha512half render escrow} {pass : Pass} {index idx : Nat}

theorem Pass.proofAt_eq_some_iff {proof : DepositProof}
    : pass.proofAt sha512half render idx = some proof
      ↔ ∃ j jb validations,
          pass.ledger = .ok j ∧ pass.Buffered (j.index "result") validations
          ∧ pass.binary = .ok jb
          ∧ (buildDepositProof sha512half render (jb.index "result") idx validations).run
            = some (.ok proof) := by
  have ofToOption : ∀ {α : Type} {outcome : Except String α} {value : α},
      outcome.toOption = some value ↔ outcome = .ok value := by
    intro α outcome value
    cases outcome with
    | error reason => simp [Except.toOption]
    | ok other => simp [Except.toOption]
  simp only [Pass.proofAt, Option.bind_eq_bind, Option.bind_eq_some_iff, ofToOption]
  constructor
  · rintro ⟨j, answered, hash, hashed, validations, buffered, jb, fetched, _, built, rfl⟩
    exact ⟨j, jb, validations, answered, ⟨hash, hashed, buffered⟩, fetched, built⟩
  · rintro ⟨j, jb, validations, answered, ⟨hash, hashed, buffered⟩, fetched, built⟩
    exact ⟨j, answered, hash, hashed, validations, buffered, jb, fetched, _, built, rfl⟩

/-- How a payment is offered: with the proof that is built for its place. -/
theorem Pass.offers_eq_ok_iff {offer : Nat → Except ScanFailure SubmitOutcome}
    (ready : pass.offers (builtBlob sha512half render) index = some offer)
    {outcome : SubmitOutcome}
    : offer idx = .ok outcome
      ↔ ∃ proof,
          pass.proofAt sha512half render idx = some proof
          ∧ outcomeOf (pass.credit idx proof.blob) = outcome := by
  simp only [Pass.offers, Option.bind_eq_bind, Option.bind_eq_some_iff, Option.some.injEq]
    at ready
  obtain ⟨j, answered, hash, hashed, validations, buffered, jb, fetched, rfl⟩ := ready
  have proofAt : pass.proofAt sha512half render idx
      = (buildDepositProof sha512half render (jb.index "result") idx validations).run.bind
          Except.toOption := by
    simp only [Pass.proofAt, answered, hashed, buffered, fetched, Option.bind_eq_bind,
      Option.bind_some]
  rw [offerDeposit, builtBlob, proofAt]
  cases (buildDepositProof sha512half render (jb.index "result") idx validations).run with
  | none => simp
  | some built =>
      cases built with
      | error reason => simp [Except.toOption]
      | ok proof => simp [Except.toOption]

theorem pairwise_findEscrowPayments (result : Json) (escrow : String)
    : (findEscrowPayments result escrow).Pairwise (· < ·) := by
  rw [findEscrowPayments]
  split
  · exact List.Pairwise.nil
  · rename_i txs _
    rw [escrowPayments]
    refine List.Pairwise.sublist (List.Sublist.map Prod.snd List.filter_sublist) ?_
    rw [List.zipIdx_map_snd]
    exact List.pairwise_lt_range'

/-- A payment is offered if all before it are, none of them to an unarmed boundary. -/
theorem mem_offerAll_of_front {offer : Nat → Except ScanFailure SubmitOutcome}
    {front back : List Nat} {outcome : SubmitOutcome}
    (goesOn : ∀ earlier ∈ front, ∃ other, offer earlier = .ok other ∧ other ≠ .boundaryNotArmed)
    (offered : offer idx = .ok outcome)
    : idx ∈ (offerAll offer (front ++ idx :: back)).1.map Prod.fst := by
  induction front with
  | nil =>
      rw [List.nil_append, offerAll, offered]
      cases outcome <;> exact List.mem_cons_self
  | cons first front ih =>
      obtain ⟨⟨other, offeredFirst, armed⟩, later⟩ := List.forall_mem_cons.mp goesOn
      have logged := ih later
      cases other with
      | boundaryNotArmed => exact absurd rfl armed
      | _ =>
          simp only [List.cons_append, offerAll, offeredFirst, List.map_cons]
          exact List.mem_cons_of_mem _ logged

/-- A round of offers that ends in a panic has met it in an offer. -/
theorem exists_panicked_of_offerAll {offer : Nat → Except ScanFailure SubmitOutcome}
    {hits : List Nat} (failed : (offerAll offer hits).2 = .error .panicked)
    : ∃ idx ∈ hits, offer idx = .error .panicked := by
  induction hits with
  | nil => cases failed
  | cons first rest ih =>
      rw [offerAll] at failed
      cases offered : offer first with
      | error failure =>
          rw [offered] at failed
          have isPanic : failure = .panicked := Except.error.inj failed
          exact ⟨first, List.mem_cons_self, isPanic ▸ offered⟩
      | ok outcome =>
          rw [offered] at failed
          cases outcome with
          | boundaryNotArmed => cases failed
          | _ =>
              obtain ⟨idx, later, panicked⟩ := ih failed
              exact ⟨idx, List.mem_cons_of_mem first later, panicked⟩

/-- Where an answer can be proven from, a pass builds a proof for each of its places. -/
theorem Pass.exists_proofAt {j jb : Json} {validations : List (List UInt8)} {header : Header}
    {items : List Item} {item : Item} (answered : pass.ledger = .ok j)
    (buffered : pass.Buffered (j.index "result") validations) (fetched : pass.binary = .ok jb)
    (proves : AnswerProves sha512half (jb.index "result") validations header items)
    (placed : items[idx]? = some item)
    : ∃ proof,
        pass.proofAt sha512half render idx = some proof ∧ Carries validations proof item.1 := by
  obtain ⟨proof, built, carries⟩ := @exists_built sha512half render _ _ _ _ _ _ proves placed
  exact ⟨proof,
    Pass.proofAt_eq_some_iff.mpr ⟨j, jb, validations, answered, buffered, fetched, built⟩,
    carries⟩

/-- With both answers and validations at hand, a scan offers the payments one after the other. -/
theorem Pass.scan_eq_offerAll {j jb : Json} {validations : List (List UInt8)}
    (answered : pass.ledger = .ok j) (buffered : pass.Buffered (j.index "result") validations)
    (fetched : pass.binary = .ok jb)
    (listed : idx ∈ findEscrowPayments (j.index "result") escrow)
    : ∃ offer,
        pass.offers (builtBlob sha512half render) index = some offer
        ∧ scanOneLedger (builtBlob sha512half render) escrow pass index
          = offerAll offer (findEscrowPayments (j.index "result") escrow) := by
  obtain ⟨hash, hashed, held⟩ := buffered
  have nonempty : findEscrowPayments (j.index "result") escrow ≠ [] := List.ne_nil_of_mem listed
  refine ⟨offerDeposit (builtBlob sha512half render) pass (jb.index "result") validations index,
    ?_, ?_⟩
  · simp [Pass.offers, answered, hashed, held, fetched, Except.toOption]
  · simp [scanOneLedger, answered, nonempty, hashed, held, fetched]

/-- The scan submits every proof that can be built, as long as the enclave credits. -/
theorem Pass.submits_of_credited {j jb : Json} {validations : List (List UInt8)}
    {header : Header} {items : List Item} {item : Item} (answered : pass.ledger = .ok j)
    (buffered : pass.Buffered (j.index "result") validations) (fetched : pass.binary = .ok jb)
    (credits : ∀ place blob, pass.credit place blob = .ok .null)
    (proves : AnswerProves sha512half (jb.index "result") validations header items)
    (listed : idx ∈ findEscrowPayments (j.index "result") escrow)
    (placed : items[idx]? = some item)
    : ∃ proof,
        pass.Submits sha512half render escrow index idx proof
        ∧ Carries validations proof item.1 := by
  have builds : ∀ {place : Nat} {found : Item}, items[place]? = some found →
      ∃ proof, pass.proofAt sha512half render place = some proof
        ∧ Carries validations proof found.1 :=
    Pass.exists_proofAt answered buffered fetched proves
  obtain ⟨proof, built, carries⟩ := builds placed
  obtain ⟨offer, ready, scan⟩ := @Pass.scan_eq_offerAll sha512half render escrow pass index _ _ _ _
    answered buffered fetched listed
  have offered : ∀ {place : Nat} {proof : DepositProof},
      pass.proofAt sha512half render place = some proof →
      offer place = .ok (.credited .null) := by
    intro place proof there
    exact (Pass.offers_eq_ok_iff ready).mpr ⟨proof, there, by rw [credits]; rfl⟩
  refine ⟨proof, ⟨built, ?_⟩, carries⟩
  obtain ⟨front, back, split⟩ := List.append_of_mem listed
  rw [scan, split]
  refine mem_offerAll_of_front (fun earlier before => ?_) (offered built)
  -- places are listed in order, so an earlier one is in the answer, too
  have sorted := pairwise_findEscrowPayments (j.index "result") escrow
  rw [split] at sorted
  have less := (List.pairwise_append.mp sorted).2.2 earlier before idx List.mem_cons_self
  obtain ⟨within, -⟩ := List.getElem?_eq_some_iff.mp placed
  obtain ⟨other, builtEarlier, -⟩ :=
    builds (List.getElem?_eq_getElem (show earlier < items.length by omega))
  exact ⟨_, offered builtEarlier, fun unarmed => (by cases unarmed)⟩

/-- An offer panics only where reading the binary answer does. -/
theorem Pass.panics_of_offer {offer : Nat → Except ScanFailure SubmitOutcome}
    (ready : pass.offers (builtBlob sha512half render) index = some offer)
    (failed : offer idx = .error .panicked)
    : ∃ j jb validations,
        pass.ledger = .ok j ∧ pass.Buffered (j.index "result") validations
        ∧ pass.binary = .ok jb ∧ AnswerPanics (jb.index "result") idx := by
  simp only [Pass.offers, Option.bind_eq_bind, Option.bind_eq_some_iff, Option.some.injEq]
    at ready
  obtain ⟨j, answered, hash, hashed, validations, buffered, jb, fetched, rfl⟩ := ready
  have ofToOption : ∀ {outcome : Except String Json} {value : Json},
      outcome.toOption = some value → outcome = .ok value := by
    intro outcome value same
    cases outcome with
    | error reason => cases same
    | ok other => exact congrArg Except.ok (Option.some.inj same)
  refine ⟨j, jb, validations, ofToOption answered, ⟨hash, hashed, buffered⟩, ofToOption fetched,
    ?_⟩
  rw [offerDeposit] at failed
  cases built : builtBlob sha512half render (jb.index "result") idx validations with
  | ok proof =>
      rw [built] at failed
      cases failed
  | error failure =>
      cases failure with
      | panicked => exact builtBlob_panicked_iff.mp built
      | reported message =>
          rw [built] at failed
          cases failed

/-- If reading the binary answer panics for a payment, it does for the first one, and the scan
ends in it before anything is submitted.
-/
theorem Pass.scan_panics {j jb : Json} {validations : List (List UInt8)}
    (answered : pass.ledger = .ok j) (buffered : pass.Buffered (j.index "result") validations)
    (fetched : pass.binary = .ok jb)
    (listed : idx ∈ findEscrowPayments (j.index "result") escrow)
    (panics : AnswerPanics (jb.index "result") idx)
    : scanOneLedger (builtBlob sha512half render) escrow pass index = ([], .error .panicked) := by
  obtain ⟨offer, ready, scan⟩ := @Pass.scan_eq_offerAll sha512half render escrow pass index _ _ _ _
    answered buffered fetched listed
  have sorted := pairwise_findEscrowPayments (j.index "result") escrow
  rw [scan]
  cases hits : findEscrowPayments (j.index "result") escrow with
  | nil =>
      rw [hits] at listed
      cases listed
  | cons first rest =>
      rw [hits] at listed sorted
      have before : first ≤ idx := by
        rcases List.mem_cons.mp listed with rfl | later
        · exact le_rfl
        · exact (List.rel_of_pairwise_cons sorted later).le
      obtain ⟨hash, hashed, held⟩ := buffered
      have isOffer : offerDeposit (builtBlob sha512half render) pass (jb.index "result")
          validations index = offer := by
        rw [← Option.some_inj, ← ready]
        simp [Pass.offers, answered, hashed, held, fetched, Except.toOption]
      have failed : offer first = .error .panicked := by
        rw [← isOffer, offerDeposit, builtBlob_panicked_iff.mpr (panics.earlier before)]
        rfl
      rw [offerAll, failed]

/-- A scan that fails without a report has met a panic. -/
theorem Pass.panics_of_scan {j : Json} (answered : pass.ledger = .ok j)
    (failed
      : (scanOneLedger (builtBlob sha512half render) escrow pass index).2 = .error .panicked)
    : ∃ jb validations,
        pass.Buffered (j.index "result") validations ∧ pass.binary = .ok jb
        ∧ ∃ idx ∈ findEscrowPayments (j.index "result") escrow,
            AnswerPanics (jb.index "result") idx := by
  rcases @scanOneLedger_cases _ _ (builtBlob sha512half render) escrow pass index with
    ⟨message, reported, -⟩ | ⟨other, answeredToo, ⟨-, quiet⟩ | ⟨offer, ready, scan⟩⟩
  · rw [reported] at failed
    cases failed
  · rw [quiet] at failed
    cases failed
  · obtain rfl := Except.ok.inj (answered.symm.trans answeredToo)
    rw [scan] at failed
    obtain ⟨idx, listed, panicked⟩ := exists_panicked_of_offerAll failed
    obtain ⟨same, jb, validations, answeredSame, buffered, fetched, panics⟩ :=
      Pass.panics_of_offer ready panicked
    obtain rfl := Except.ok.inj (answered.symm.trans answeredSame)
    exact ⟨jb, validations, buffered, fetched, idx, listed, panics⟩

/-- A scan that ends without a failure has submitted a proof for every payment. -/
theorem Pass.submits_of_completed {j : Json} (answered : pass.ledger = .ok j)
    (listed : idx ∈ findEscrowPayments (j.index "result") escrow)
    (completed : (scanOneLedger (builtBlob sha512half render) escrow pass index).2 = .ok ())
    : ∃ proof, pass.Submits sha512half render escrow index idx proof := by
  rcases @scanOneLedger_cases _ _ (builtBlob sha512half render) escrow pass index with
    ⟨message, failed, -⟩ | ⟨other, answeredToo, ⟨quiet, -⟩ | ⟨offer, ready, scan⟩⟩
  · rw [failed] at completed
    cases completed
  · obtain rfl := Except.ok.inj (answered.symm.trans answeredToo)
    rw [quiet] at listed
    cases listed
  · obtain rfl := Except.ok.inj (answered.symm.trans answeredToo)
    rw [scan] at completed
    have goesOn := (offerAll_ok_iff offer _).mp completed idx listed
    cases offered : offer idx with
    | error message => exact absurd (.inl ⟨message, offered⟩) goesOn
    | ok outcome =>
        obtain ⟨proof, built, -⟩ := (Pass.offers_eq_ok_iff ready).mp offered
        refine ⟨proof, built, ?_⟩
        rw [scan]
        exact List.mem_map_of_mem ((mem_offerAll completed).mpr ⟨listed, offered⟩)

/-- A scan that proves every payment or reports an error has not met a panic. -/
theorem Pass.unharmed_of_scanProves {j jb : Json} {validations : List (List UInt8)}
    (proves : pass.ScanProves sha512half render escrow index) (answered : pass.ledger = .ok j)
    (buffered : pass.Buffered (j.index "result") validations) (fetched : pass.binary = .ok jb)
    (listed : idx ∈ findEscrowPayments (j.index "result") escrow)
    : ¬ AnswerPanics (jb.index "result") idx := by
  intro panics
  have ends := @Pass.scan_panics sha512half render escrow pass index idx j jb validations
    answered buffered fetched listed panics
  have unsubmitted : ¬ ∃ proof, pass.Submits sha512half render escrow index idx proof := by
    rintro ⟨proof, -, logged⟩
    rw [ends] at logged
    cases logged
  obtain ⟨message, reported⟩ := (proves j answered idx listed).2 unsubmitted
  have panicked := congrArg Prod.snd ends
  rw [reported] at panicked
  cases panicked

/-- Where the enclave takes every payment, a scan whose proofs are about the payments finds the
payment's hash at its place.
-/
theorem Pass.hashed_of_scanProves {j jb : Json} {validations : List (List UInt8)}
    {header : Header} {items : List Item}
    (proves
      : ({ pass with credit := fun _ _ => .ok .null } : Pass).ScanProves sha512half render
          escrow index)
    (answered : pass.ledger = .ok j) (buffered : pass.Buffered (j.index "result") validations)
    (fetched : pass.binary = .ok jb)
    (answer : AnswerProves sha512half (jb.index "result") validations header items)
    (listed : idx ∈ findEscrowPayments (j.index "result") escrow)
    {item : Item} (placed : items[idx]? = some item)
    : HashAt (j.index "result") idx (txId sha512half item.1) := by
  obtain ⟨proof, submits, carries⟩ := @Pass.submits_of_credited sha512half render escrow
    { pass with credit := fun _ _ => .ok .null } index idx j jb validations header items item
    answered buffered fetched (fun _ _ => rfl) answer listed placed
  obtain ⟨others, txBlob, bufferedToo, carriesToo, hashed⟩ :=
    (proves j answered idx listed).1 proof submits
  obtain rfl : others = validations := by
    obtain ⟨hash, named, held⟩ := buffered
    obtain ⟨hashToo, namedToo, heldToo⟩ := bufferedToo
    obtain rfl := Option.some.inj (named.symm.trans namedToo)
    exact Option.some.inj (heldToo.symm.trans held)
  rw [carries.unique carriesToo]
  exact hashed

/-- A scan over aligned answers proves every payment or reports an error. -/
theorem Pass.Aligned.scanProves (aligned : pass.Aligned sha512half escrow)
    (credit : Nat → List UInt8 → EnclaveReply)
    : ({ pass with credit } : Pass).ScanProves sha512half render escrow index := by
  intro j answered idx listed
  constructor
  · intro proof submits
    obtain ⟨other, jb, validations, answeredToo, buffered, fetched, built⟩ :=
      Pass.proofAt_eq_some_iff.mp submits.1
    obtain rfl := Except.ok.inj (answered.symm.trans answeredToo)
    obtain ⟨header, items, item, answer, placed, carries⟩ := carries_of_built built
    exact ⟨validations, item.1, buffered, carries,
      aligned.hashed j jb validations header items answered buffered fetched answer idx listed
        item placed⟩
  · intro nothing
    cases ended : (scanOneLedger (builtBlob sha512half render) escrow
      ({ pass with credit } : Pass) index).2 with
    | ok => exact absurd (Pass.submits_of_completed answered listed ended) nothing
    | error failure =>
        cases failure with
        | reported message => exact ⟨message, rfl⟩
        | panicked =>
            obtain ⟨jb, validations, buffered, fetched, place, isHit, panics⟩ :=
              Pass.panics_of_scan answered ended
            exact absurd panics
              (aligned.unharmed j jb validations answered buffered fetched place isHit)

end Scan

/-- Whatever the enclave replies, each proof that a scan submits for a payment of the expanded
answer is about that payment, or the scan reports an error, exactly if the two answers are
aligned or nothing can be proven from them, and reading the second one does not panic.
-/
theorem deposit_proof_about_payment_iff (sha512half : List UInt8 → Bytes 32)
    (render : Json → String) (escrow : String) (pass : Pass) (index : Nat)
    : (∀ credit, ({ pass with credit } : Pass).ScanProves sha512half render escrow index)
      ↔ pass.Aligned sha512half escrow := by
  constructor
  · intro proves
    constructor
    · intro j jb validations answered buffered fetched idx listed
      exact Pass.unharmed_of_scanProves (proves pass.credit) answered buffered fetched listed
    · intro j jb validations header items answered buffered fetched answer idx listed item placed
      exact Pass.hashed_of_scanProves (proves (fun _ _ => .ok .null)) answered buffered fetched
        answer listed placed
  · exact fun aligned credit => aligned.scanProves credit

section Swapped

open TxShamap (bytes32 firstItem secondItem firstId secondId pairSha512half pairMap)

/-- A header over the tree of the two transactions. -/
def pairHeader : Header :=
  ⟨List.replicate 44 0
    ++ ((bytes32 0xdb671893131f89d2c989cd471aba792ca5181caadcec8d43171d3d03a42a80da).toList
      ++ List.replicate 42 0),
    by simp⟩

/-- A payment to the escrow and another transaction. -/
def expandedAnswer : Json :=
  .object
    [("ledger_hash", .string "AB"),
      ("ledger", .object
        [("transactions", .array
          [.object
            [("TransactionType", .string "Payment"), ("Destination", .string "rEscrow"),
              ("hash", .string (Hex.encode (bytes32 firstId).toList))],
          .object
            [("TransactionType", .string "EscrowFinish"),
              ("hash", .string (Hex.encode (bytes32 secondId).toList))]])])]

def binaryTransaction (item : Item) : Json :=
  .object
    [("tx_blob", .string (Hex.encode item.1)), ("meta", .string (Hex.encode item.2))]

/-- The same ledger, with the transactions the other way round. -/
def binaryAnswer : Json :=
  .object
    [("ledger", .object
      [("ledger_data", .string (Hex.encode pairHeader.toList)),
        ("transactions", .array [binaryTransaction secondItem, binaryTransaction firstItem])])]

def swappedPass : Pass where
  probes := []
  validated := .error "not asked"
  ledger := .ok (.object [("result", expandedAnswer)])
  validations := fun _ => some [sampleValidation]
  binary := .ok (.object [("result", binaryAnswer)])
  credit := fun _ _ => .ok .null

theorem binaryAnswer_proves
    : AnswerProves pairSha512half binaryAnswer [sampleValidation] pairHeader
        [secondItem, firstItem] where
  headerRead := by decide +kernel
  itemsRead := ⟨_, rfl, by decide +kernel⟩
  rooted := by
    refine ⟨pairMap, TxShamap.build_perm (List.Perm.swap _ _ _) TxShamap.pairMap_built, ?_⟩
    decide +kernel
  framed := ⟨_, buildValidationsSection_eq_ok_iff.mpr ⟨[sampleEntry], .cons framesAs_sample .nil,
    rfl⟩⟩

/-- The order of the binary answer decides which transaction is proven: here it is the one next
to the payment.
-/
theorem swapped_proof_not_about_payment
    : 0 ∈ findEscrowPayments expandedAnswer "rEscrow"
      ∧ HashAt expandedAnswer 0 (txId pairSha512half firstItem.1)
      ∧ (∃ proof,
          swappedPass.Submits pairSha512half (fun _ => "") "rEscrow" 100 0 proof
          ∧ Carries [sampleValidation] proof secondItem.1)
      ∧ ¬ swappedPass.ScanProves pairSha512half (fun _ => "") "rEscrow" 100 := by
  have listed : 0 ∈ findEscrowPayments expandedAnswer "rEscrow" := by decide +kernel
  have hashed : HashAt expandedAnswer 0 (txId pairSha512half firstItem.1) :=
    ⟨_, _, _, rfl, rfl, rfl, by decide +kernel⟩
  have buffered : swappedPass.Buffered expandedAnswer [sampleValidation] := ⟨"AB", rfl, rfl⟩
  obtain ⟨proof, submits, carries⟩ := @Pass.submits_of_credited pairSha512half (fun _ => "")
    "rEscrow" swappedPass 100 0 _ _ _ _ _ _ rfl buffered rfl (fun _ _ => rfl)
    binaryAnswer_proves listed rfl
  refine ⟨listed, hashed, ⟨proof, submits, carries⟩, fun proves => ?_⟩
  obtain ⟨validations, txBlob, bufferedToo, carriesToo, hashedToo⟩ :=
    (proves _ rfl 0 listed).1 proof submits
  obtain ⟨_, -, held⟩ := bufferedToo
  obtain rfl : [sampleValidation] = validations := Option.some.inj held
  obtain rfl := carries.unique carriesToo
  exact absurd (hashed.unique hashedToo) (by decide +kernel)

end Swapped

end DepositSpv

end PerpDex
