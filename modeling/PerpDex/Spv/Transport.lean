import PerpDex.Spv.Validation

/-! The transports of the enclave: an attested ledger header, and after it custody proofs
(`XSPV`), one deposit (`XDEP`) or nothing (`XCLK`).
A blob is decoded by the documented layout to what it was built from as long as the count of
its validations has not wrapped, and never as a transport of another kind.
-/

namespace PerpDex.SpvProof

open Wire

abbrev Header := Bytes 118

/-- A reserves proof: one account root (kind 0) or trust line (kind 1). -/
structure XspvProof where
  kind : UInt8
  leafIndex : Bytes 32
  leafData : List UInt8
  innerRootToLeaf : List (Bytes 512)
deriving DecidableEq

-----------------------------------------------------------------------------------------
-- Writing
-----------------------------------------------------------------------------------------

/-- `try_from` into an unsigned integer of `width` bytes. -/
def tryFrom (width value : Nat) (context : String) : Except String Nat :=
  if value < 256 ^ width then .ok value else .error context

def xspvMagic : List UInt8 := [0x58, 0x53, 0x50, 0x56]

def xdepMagic : List UInt8 := [0x58, 0x44, 0x45, 0x50]

def xclkMagic : List UInt8 := [0x58, 0x43, 0x4C, 0x4B]

/-- What the three transports start with. -/
def attestedPrefix (magic : List UInt8) (header : Header) (valCount : UInt16)
    (validations : List UInt8) : List UInt8 :=
  magic ++ ([1] ++ (beBytes 2 118 ++ (header.toList ++ (beBytes 2 valCount.toNat
    ++ validations))))

/-- The nodes of an inclusion path one after the other. -/
def pathBytes (innerRootToLeaf : List (Bytes 512)) : List UInt8 :=
  innerRootToLeaf.flatMap List.Vector.toList

def proofBytes (proof : XspvProof) : Except String (List UInt8) := do
  let leafLen ← tryFrom 2 proof.leafData.length "ledger entry too large for a u16 length"
  let depth ← tryFrom 1 proof.innerRootToLeaf.length
    "inclusion path deeper than a u8 can express"
  .ok ([proof.kind] ++ (proof.leafIndex.toList ++ (beBytes 2 leafLen ++ (proof.leafData
    ++ (beBytes 1 depth ++ pathBytes proof.innerRootToLeaf)))))

def buildXspvBlobFramed (header : Header) (valCount : UInt16) (validations : List UInt8)
    (proofs : List XspvProof) : Except String (List UInt8) := do
  let proofCount ← tryFrom 1 proofs.length "too many proofs for a u8 count"
  let written ← proofs.mapM proofBytes
  .ok (attestedPrefix xspvMagic header valCount validations
    ++ (beBytes 1 proofCount ++ written.flatten))

def buildXspvBlob (header : Header) (validations : List (List UInt8))
    (proofs : List XspvProof) : Except String (List UInt8) := do
  let framed ← buildValidationsSection validations
  buildXspvBlobFramed header framed.1 framed.2 proofs

def buildXdepBlobFramed (header : Header) (valCount : UInt16) (validations txBlob metadata
    : List UInt8) (innerRootToLeaf : List (Bytes 512)) : Except String (List UInt8) := do
  let txLen ← tryFrom 4 txBlob.length "transaction too large for a u32 length"
  let metaLen ← tryFrom 4 metadata.length "metadata too large for a u32 length"
  let depth ← tryFrom 1 innerRootToLeaf.length "inclusion path deeper than a u8 can express"
  .ok (attestedPrefix xdepMagic header valCount validations
    ++ (beBytes 4 txLen ++ (txBlob ++ (beBytes 4 metaLen ++ (metadata
      ++ (beBytes 1 depth ++ pathBytes innerRootToLeaf))))))

def buildXdepBlob (header : Header) (validations : List (List UInt8))
    (txBlob metadata : List UInt8) (innerRootToLeaf : List (Bytes 512))
    : Except String (List UInt8) := do
  let framed ← buildValidationsSection validations
  buildXdepBlobFramed header framed.1 framed.2 txBlob metadata innerRootToLeaf

def buildXclkBlobFramed (header : Header) (valCount : UInt16) (validations : List UInt8)
    : Except String (List UInt8) :=
  .ok (attestedPrefix xclkMagic header valCount validations)

def buildXclkBlob (header : Header) (validations : List (List UInt8))
    : Except String (List UInt8) := do
  let framed ← buildValidationsSection validations
  buildXclkBlobFramed header framed.1 framed.2

-----------------------------------------------------------------------------------------
-- Reading by the documented layout
-----------------------------------------------------------------------------------------

def readEntry : Reader ValidationEntry := do
  let pubkey ← takeArray 33
  let sigLen ← uintBe 1
  require (sigLen ≤ 72)
  let sig ← take sigLen
  let vbodyLen ← uintBe 2
  let vbody ← take vbodyLen
  pure { pubkey, sig, vbody }

/-- The header and the number of validations that the common prefix announces. -/
structure Announced where
  header : Header
  valCount : Nat

def readAnnounced (magic : List UInt8) : Reader Announced := do
  let found ← take 4
  require (found = magic)
  let version ← byte
  require (version = 1)
  let headerLen ← uintBe 2
  require (headerLen = 118)
  let header ← takeArray 118
  let valCount ← uintBe 2
  pure { header, valCount }

def readPath : Reader (List (Bytes 512)) := do
  let depth ← uintBe 1
  many (takeArray 512) depth

def readProof : Reader XspvProof := do
  let kind ← byte
  let leafIndex ← takeArray 32
  let leafLen ← uintBe 2
  let leafData ← take leafLen
  let innerRootToLeaf ← readPath
  pure { kind, leafIndex, leafData, innerRootToLeaf }

/-- The three transports. -/
inductive Format
  | xspv
  | xdep
  | xclk
deriving DecidableEq

/-- What a transport carries after the validations. -/
inductive Payload
  | proofs (proofs : List XspvProof)
  | deposit (txBlob metadata : List UInt8) (innerRootToLeaf : List (Bytes 512))
  | nothing
deriving DecidableEq

/-- The transport a payload goes into. -/
def Payload.format : Payload → Format
  | .proofs _ => .xspv
  | .deposit _ _ _ => .xdep
  | .nothing => .xclk

def Format.magic : Format → List UInt8
  | .xspv => xspvMagic
  | .xdep => xdepMagic
  | .xclk => xclkMagic

def readProofs : Reader Payload := do
  let proofCount ← uintBe 1
  let proofs ← many readProof proofCount
  pure (.proofs proofs)

def readDeposit : Reader Payload := do
  let txLen ← uintBe 4
  let txBlob ← take txLen
  let metaLen ← uintBe 4
  let metadata ← take metaLen
  let innerRootToLeaf ← readPath
  pure (.deposit txBlob metadata innerRootToLeaf)

def readPayload : Format → Reader Payload
  | .xspv => readProofs
  | .xdep => readDeposit
  | .xclk => pure .nothing

/-- What a blob says: a header, the entries of its validations, and the payload. -/
structure Attested where
  header : Header
  entries : List ValidationEntry
  payload : Payload
deriving DecidableEq

def readAttested (format : Format) : Reader Attested := do
  let announced ← readAnnounced format.magic
  let entries ← many readEntry announced.valCount
  let payload ← readPayload format
  pure { header := announced.header, entries, payload }

/-- A blob read as a transport of one kind, to its last byte. -/
def readBlob (format : Format) (blob : List UInt8) : Option Attested :=
  whole (readAttested format) blob

/-- The blob of a payload, by the builder of its transport. -/
def buildBlob (header : Header) (validations : List (List UInt8))
    : Payload → Except String (List UInt8)
  | .proofs proofs => buildXspvBlob header validations proofs
  | .deposit txBlob metadata path => buildXdepBlob header validations txBlob metadata path
  | .nothing => buildXclkBlob header validations

-----------------------------------------------------------------------------------------
-- Each part is read back
-----------------------------------------------------------------------------------------

theorem tryFrom_eq_ok_iff {width value result : Nat} {context : String}
    : tryFrom width value context = .ok result ↔ value < 256 ^ width ∧ result = value := by
  unfold tryFrom
  split
  case isTrue fits =>
    constructor
    · intro same
      cases same
      exact ⟨fits, rfl⟩
    · intro given
      rw [given.2]
  case isFalse wide =>
    constructor
    · intro failed
      cases failed
    · intro given
      exact absurd given.1 wide

theorem reads_entry {entry : ValidationEntry} (sigFits : entry.sig.length ≤ 72)
    (vbodyFits : entry.vbody.length ≤ 65535)
    : Reads readEntry (entryBytes entry) entry := by
  have body : Reads (take entry.vbody.length >>= fun vbody =>
      pure { pubkey := entry.pubkey, sig := entry.sig, vbody }) (entry.vbody ++ []) entry :=
    (reads_take rfl).bind (Reads.pure entry)
  rw [List.append_nil] at body
  have sigLen : entry.sig.length < 256 ^ 1 := by omega
  have vbodyLen : entry.vbody.length < 256 ^ 2 := by omega
  refine (reads_takeArray entry.pubkey).bind ((reads_beBytes sigLen).bind ?_)
  refine (reads_require sigFits).bind ((reads_take rfl).bind ?_)
  exact (reads_beBytes vbodyLen).bind body

/-- Framed entries are read back, one after the other. -/
theorem reads_entries {validations : List (List UInt8)} {entries : List ValidationEntry}
    (framed : List.Forall₂ FramesAs validations entries)
    : Reads (many readEntry entries.length) (entries.flatMap entryBytes) entries := by
  refine Reads.many (fun entry member => ?_)
  obtain ⟨data, _, frames⟩ := framesAs_of_mem framed member
  exact reads_entry frames.sigFits frames.vbodyFits

theorem reads_announced {magic : List UInt8} (sized : magic.length = 4) (header : Header)
    (valCount : UInt16)
    : Reads (readAnnounced magic)
      (magic ++ ([1] ++ (beBytes 2 118 ++ (header.toList ++ beBytes 2 valCount.toNat))))
      { header, valCount := valCount.toNat } := by
  have count : Reads (uintBe 2 >>= fun valCount => pure ({ header, valCount } : Announced))
      (beBytes 2 valCount.toNat ++ []) { header, valCount := valCount.toNat } :=
    (reads_beBytes valCount.toNat_lt).bind (Reads.pure _)
  rw [List.append_nil] at count
  have headerLen : 118 < 256 ^ 2 := by decide
  refine (reads_take sized).bind ((reads_require rfl).bind ?_)
  refine (reads_byte 1).bind ((reads_require rfl).bind ?_)
  refine (reads_beBytes headerLen).bind ((reads_require rfl).bind ?_)
  exact (reads_takeArray header).bind count

/-- A blob that starts with another magic is refused at once. -/
theorem refuses_announced {magic other : List UInt8} (sized : other.length = 4)
    (different : other ≠ magic) (rest : List UInt8)
    : Refuses (readAnnounced magic) (other ++ rest) := by
  refine (reads_take sized).refuses ?_
  exact (refuses_require different).bind _ rest

theorem reads_path {path : List (Bytes 512)} (shallow : path.length < 256 ^ 1)
    : Reads readPath (beBytes 1 path.length ++ pathBytes path) path := by
  refine (reads_beBytes shallow).bind ?_
  exact Reads.many (fun node _ => reads_takeArray node)

/-- A proof that is written is read back. -/
theorem reads_proof {proof : XspvProof} {bytes : List UInt8}
    (written : proofBytes proof = .ok bytes)
    : Reads readProof bytes proof := by
  obtain ⟨leafLen, leafOk, written⟩ := Except.bind_eq_ok_iff.mp written
  obtain ⟨depth, depthOk, written⟩ := Except.bind_eq_ok_iff.mp written
  obtain ⟨leafFits, rfl⟩ := tryFrom_eq_ok_iff.mp leafOk
  obtain ⟨shallow, rfl⟩ := tryFrom_eq_ok_iff.mp depthOk
  cases written
  have path : Reads (readPath >>= fun innerRootToLeaf =>
      pure ({ proof with innerRootToLeaf } : XspvProof))
      (beBytes 1 proof.innerRootToLeaf.length ++ pathBytes proof.innerRootToLeaf ++ []) proof :=
    (reads_path shallow).bind (Reads.pure proof)
  rw [List.append_nil] at path
  refine (reads_byte proof.kind).bind ((reads_takeArray proof.leafIndex).bind ?_)
  exact (reads_beBytes leafFits).bind ((reads_take rfl).bind path)

theorem reads_proofs {proofs : List XspvProof} {written : List (List UInt8)}
    (ok : proofs.mapM proofBytes = .ok written)
    : Reads (many readProof proofs.length) written.flatten proofs := by
  induction proofs generalizing written with
  | nil =>
      cases ok
      exact Reads.pure []
  | cons proof others ih =>
      rw [List.mapM_cons] at ok
      obtain ⟨bytes, first, ok⟩ := Except.bind_eq_ok_iff.mp ok
      obtain ⟨rest, later, ok⟩ := Except.bind_eq_ok_iff.mp ok
      cases ok
      have listed : Reads (many readProof others.length >>= fun others =>
          pure (proof :: others)) (rest.flatten ++ []) (proof :: others) :=
        (ih later).bind (Reads.pure (proof :: others))
      rw [List.append_nil] at listed
      exact (reads_proof first).bind listed

/-- What a builder writes after the validations is read back as the payload. -/
structure Written (header : Header) (validations : List (List UInt8)) (payload : Payload)
    (blob : List UInt8) (entries : List ValidationEntry) (rest : List UInt8) : Prop where
  framed : List.Forall₂ FramesAs validations entries
  reads : Reads (readPayload payload.format) rest payload
  blob_eq : blob = attestedPrefix payload.format.magic header (UInt16.ofNat entries.length)
    (entries.flatMap entryBytes) ++ rest

theorem written_of_buildXspvBlob {header : Header} {validations : List (List UInt8)}
    {proofs : List XspvProof} {blob : List UInt8}
    (built : buildXspvBlob header validations proofs = .ok blob)
    : ∃ entries rest, Written header validations (.proofs proofs) blob entries rest := by
  obtain ⟨result, sectionOk, built⟩ := Except.bind_eq_ok_iff.mp built
  obtain ⟨entries, framed, rfl⟩ := buildValidationsSection_eq_ok_iff.mp sectionOk
  obtain ⟨proofCount, countOk, built⟩ := Except.bind_eq_ok_iff.mp built
  obtain ⟨written, proofsOk, built⟩ := Except.bind_eq_ok_iff.mp built
  obtain ⟨few, rfl⟩ := tryFrom_eq_ok_iff.mp countOk
  cases built
  have listed : Reads (many readProof proofs.length >>= fun proofs =>
      pure (Payload.proofs proofs)) (written.flatten ++ []) (.proofs proofs) :=
    (reads_proofs proofsOk).bind (Reads.pure _)
  rw [List.append_nil] at listed
  exact ⟨entries, _, framed, (reads_beBytes few).bind listed, rfl⟩

theorem written_of_buildXdepBlob {header : Header} {validations : List (List UInt8)}
    {txBlob metadata : List UInt8} {path : List (Bytes 512)} {blob : List UInt8}
    (built : buildXdepBlob header validations txBlob metadata path = .ok blob)
    : ∃ entries rest,
      Written header validations (.deposit txBlob metadata path) blob entries rest := by
  obtain ⟨result, sectionOk, built⟩ := Except.bind_eq_ok_iff.mp built
  obtain ⟨entries, framed, rfl⟩ := buildValidationsSection_eq_ok_iff.mp sectionOk
  obtain ⟨txLen, txOk, built⟩ := Except.bind_eq_ok_iff.mp built
  obtain ⟨metaLen, metaOk, built⟩ := Except.bind_eq_ok_iff.mp built
  obtain ⟨depth, depthOk, built⟩ := Except.bind_eq_ok_iff.mp built
  obtain ⟨txFits, rfl⟩ := tryFrom_eq_ok_iff.mp txOk
  obtain ⟨metaFits, rfl⟩ := tryFrom_eq_ok_iff.mp metaOk
  obtain ⟨shallow, rfl⟩ := tryFrom_eq_ok_iff.mp depthOk
  cases built
  have last : Reads (readPath >>= fun path => pure (Payload.deposit txBlob metadata path))
      (beBytes 1 path.length ++ pathBytes path ++ []) (.deposit txBlob metadata path) :=
    (reads_path shallow).bind (Reads.pure _)
  rw [List.append_nil] at last
  refine ⟨entries, _, framed, ?_, rfl⟩
  refine (reads_beBytes txFits).bind ((reads_take rfl).bind ?_)
  exact (reads_beBytes metaFits).bind ((reads_take rfl).bind last)

theorem written_of_buildXclkBlob {header : Header} {validations : List (List UInt8)}
    {blob : List UInt8} (built : buildXclkBlob header validations = .ok blob)
    : ∃ entries rest, Written header validations .nothing blob entries rest := by
  obtain ⟨result, sectionOk, built⟩ := Except.bind_eq_ok_iff.mp built
  obtain ⟨entries, framed, rfl⟩ := buildValidationsSection_eq_ok_iff.mp sectionOk
  cases built
  exact ⟨entries, [], framed, Reads.pure _, (List.append_nil _).symm⟩

/-- The clock transport of validations that are all framed. -/
theorem buildXclkBlob_of_framed (header : Header) {validations : List (List UInt8)}
    {entries : List ValidationEntry} (framed : List.Forall₂ FramesAs validations entries)
    : buildXclkBlob header validations
      = .ok (attestedPrefix xclkMagic header (UInt16.ofNat entries.length)
        (entries.flatMap entryBytes)) := by
  have sectionOk := buildValidationsSection_eq_ok_iff.mpr ⟨entries, framed, rfl⟩
  exact Except.bind_eq_ok_iff.mpr ⟨_, sectionOk, rfl⟩

/-- A blob that is built is the common prefix over the framed entries, and then bytes that
are read back as the payload.
-/
theorem written_of_build {header : Header} {validations : List (List UInt8)}
    {payload : Payload} {blob : List UInt8}
    (built : buildBlob header validations payload = .ok blob)
    : ∃ entries rest, Written header validations payload blob entries rest := by
  cases payload with
  | proofs proofs => exact written_of_buildXspvBlob built
  | deposit txBlob metadata path => exact written_of_buildXdepBlob built
  | nothing => exact written_of_buildXclkBlob built

-----------------------------------------------------------------------------------------
-- Whole blobs
-----------------------------------------------------------------------------------------

theorem Format.length_magic (format : Format) : format.magic.length = 4 := by
  cases format <;> rfl

theorem Format.magic_injective : Function.Injective Format.magic := by
  intro left right
  cases left <;> cases right <;> decide

/-- The blob read as its own transport gives back the header, one entry for each validation,
in order, and the payload.
-/
def ReadsBack (header : Header) (validations : List (List UInt8)) (payload : Payload)
    (blob : List UInt8) : Prop :=
  ∃ entries, readBlob payload.format blob = some { header, entries, payload }
    ∧ validations.map validationEntry = entries.map .ok

section Whole

variable {header : Header} {validations : List (List UInt8)} {payload : Payload}
  {blob : List UInt8} {entries : List ValidationEntry} {rest : List UInt8}

/-- What is left to read once the common prefix is read. -/
theorem Written.readAttested_eq
    (written : Written header validations payload blob entries rest)
    : readAttested payload.format blob
      = (many readEntry (entries.length % 65536) >>= fun read =>
          readPayload payload.format >>= fun payload =>
            pure { header, entries := read, payload })
          (entries.flatMap entryBytes ++ rest) := by
  have announced := reads_announced payload.format.length_magic header
    (UInt16.ofNat entries.length)
  have next := announced.bind_append (fun announced =>
    many readEntry announced.valCount >>= fun read =>
      readPayload payload.format >>= fun payload =>
        pure ({ header := announced.header, entries := read, payload } : Attested))
    (entries.flatMap entryBytes ++ rest)
  rw [UInt16.toNat_ofNat'] at next
  rw [written.blob_eq, attestedPrefix, readAttested, ← next, UInt16.toNat_ofNat']
  simp only [List.append_assoc]

/-- With a count that has not wrapped, a blob is read back. -/
theorem Written.readsBack (written : Written header validations payload blob entries rest)
    (few : validations.length < 65536)
    : ReadsBack header validations payload blob := by
  have counted : entries.length % 65536 = entries.length := by
    rw [← written.framed.length_eq]
    exact Nat.mod_eq_of_lt few
  have last : Reads (readPayload payload.format >>= fun payload =>
      pure ({ header, entries, payload } : Attested)) (rest ++ []) { header, entries, payload } :=
    written.reads.bind (Reads.pure _)
  rw [List.append_nil] at last
  have final := last []
  rw [List.append_nil] at final
  refine ⟨entries, whole_eq_some_iff.mpr ?_, map_validationEntry_of_framed written.framed⟩
  rw [written.readAttested_eq, counted, (reads_entries written.framed).bind_append]
  exact final

/-- A blob that is read back has a count that has not wrapped: the reader takes no more
entries than the count says.
-/
theorem Written.lt_of_readsBack (written : Written header validations payload blob entries rest)
    (back : ReadsBack header validations payload blob)
    : validations.length < 65536 := by
  obtain ⟨found, read, same⟩ := back
  have attested := whole_eq_some_iff.mp read
  rw [written.readAttested_eq] at attested
  obtain ⟨items, middle, many_, attested⟩ := bind_eq_some_iff.mp attested
  obtain ⟨payload_, last, _, attested⟩ := bind_eq_some_iff.mp attested
  cases attested
  have counted := length_of_many many_
  have lengths := congrArg List.length same
  rw [List.length_map, List.length_map, counted] at lengths
  rw [lengths]
  exact Nat.mod_lt _ (by decide)

/-- No blob is read as a transport of another kind. -/
theorem Written.readBlob_other (written : Written header validations payload blob entries rest)
    {format : Format} (other : format ≠ payload.format)
    : readBlob format blob = none := by
  have different : payload.format.magic ≠ format.magic :=
    fun same => other (Format.magic_injective same).symm
  have refused := (refuses_announced payload.format.length_magic different
    ([1] ++ (beBytes 2 118 ++ (header.toList ++ (beBytes 2 (UInt16.ofNat entries.length).toNat
      ++ (entries.flatMap entryBytes ++ rest)))))).bind (fun announced =>
        many readEntry announced.valCount >>= fun read =>
          readPayload format >>= fun payload =>
            pure ({ header := announced.header, entries := read, payload } : Attested)) []
  have nothing := refused.whole
  rw [List.append_nil] at nothing
  rw [readBlob, written.blob_eq, attestedPrefix, readAttested, ← nothing]
  simp only [List.append_assoc]

end Whole

/-- A blob that a builder returns is decoded, by the documented layout and to its last byte,
to the header, the entry of each validation and the payload exactly if there are fewer than
2^16 validations. No builder's blob is read as another transport, and below that bound equal
blobs carry equal content.
-/
theorem blob_decodable_iff {header : Header} {validations : List (List UInt8)}
    {payload : Payload} {blob : List UInt8}
    (built : buildBlob header validations payload = .ok blob)
    : (ReadsBack header validations payload blob ↔ validations.length < 65536)
      ∧ (∀ format, format ≠ payload.format → readBlob format blob = none)
      ∧ ∀ otherHeader otherValidations otherPayload,
        buildBlob otherHeader otherValidations otherPayload = .ok blob →
          validations.length < 65536 → otherValidations.length < 65536 →
            header = otherHeader
              ∧ validations.map validationEntry = otherValidations.map validationEntry
              ∧ payload = otherPayload := by
  obtain ⟨entries, rest, written⟩ := written_of_build built
  refine ⟨⟨written.lt_of_readsBack, written.readsBack⟩, ?_, ?_⟩
  · intro format other
    exact written.readBlob_other other
  · intro otherHeader otherValidations otherPayload otherBuilt few otherFew
    obtain ⟨_, _, otherWritten⟩ := written_of_build otherBuilt
    obtain ⟨found, read, same⟩ := written.readsBack few
    obtain ⟨otherFound, otherRead, otherSame⟩ := otherWritten.readsBack otherFew
    by_cases formats : otherPayload.format = payload.format
    · rw [formats, read] at otherRead
      cases otherRead
      exact ⟨rfl, same.trans otherSame.symm, rfl⟩
    · rw [written.readBlob_other formats] at otherRead
      cases otherRead

-----------------------------------------------------------------------------------------
-- The count that wraps
-----------------------------------------------------------------------------------------

/-- A validation with a signing key of 33 bytes and a signature of two, and nothing else. -/
def sampleValidation : List UInt8 :=
  0x73 :: 33 :: (List.replicate 33 2 ++ [0x76, 2, 0x30, 0x44])

def sampleEntry : ValidationEntry where
  pubkey := List.Vector.replicate 33 2
  sig := [0x30, 0x44]
  vbody := 0x73 :: 33 :: List.replicate 33 2

theorem framesAs_sample : FramesAs sampleValidation sampleEntry where
  extracted := by decide +kernel
  sigFits := by decide
  vbodyFits := by decide

def zeroHeader : Header := List.Vector.replicate 118 0

/-- A clock transport over one validation is decoded. -/
theorem blob_decodable_oneValidation
    : ∃ blob, buildBlob zeroHeader [sampleValidation] .nothing = .ok blob
      ∧ ReadsBack zeroHeader [sampleValidation] .nothing blob := by
  have built : buildBlob zeroHeader [sampleValidation] .nothing = .ok _ :=
    buildXclkBlob_of_framed zeroHeader (.cons framesAs_sample .nil)
  exact ⟨_, built, (blob_decodable_iff built).1.mpr (by decide)⟩

theorem framed_replicate (count : Nat)
    : List.Forall₂ FramesAs (List.replicate count sampleValidation)
      (List.replicate count sampleEntry) := by
  induction count with
  | zero => exact .nil
  | succ count ih => exact .cons framesAs_sample ih

/-- With 65,536 validations the count of the transport is zero while their entries follow. -/
theorem wrapped_count_not_decodable
    : ∃ blob, buildXclkBlob zeroHeader (List.replicate 65536 sampleValidation) = .ok blob
      ∧ ¬ ReadsBack zeroHeader (List.replicate 65536 sampleValidation) .nothing blob := by
  have built := buildXclkBlob_of_framed zeroHeader (framed_replicate 65536)
  refine ⟨_, built, fun back => ?_⟩
  obtain ⟨_, _, written⟩ := written_of_buildXclkBlob built
  have few := written.lt_of_readsBack back
  rw [List.length_replicate] at few
  exact Nat.lt_irrefl _ few

end PerpDex.SpvProof
