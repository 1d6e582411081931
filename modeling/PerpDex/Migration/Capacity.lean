import PerpDex.Lib.BTreeMap
import PerpDex.Lib.Except
import PerpDex.Lib.Occurrence
import PerpDex.Lib.StableSort
import PerpDex.Lib.Wire

/-! The capacity check before a migration.
The sealed files of a node are counted and measured, and what they hold is estimated from their
sizes on disk; every limit that the migration depends on is compared with the estimate.
-/

namespace PerpDex

namespace PathACapacity

open Wire

-----------------------------------------------------------------------------------------
-- Limits
-----------------------------------------------------------------------------------------

def exportCipherBufBytes : Nat := 16 * 1024 * 1024

def enclaveHeapMaxBytes : Nat := 64 * 1024 * 1024

def manifestMaxFiles : Nat := 512

def perpStateMaxFilesPerShard : Nat := 200

def heapPeakFactor : Nat := 3

def sealOverheadBytes : Nat := 592

def plainTextOffset : Nat := 512

def sealedPayloadSizeOffset : Nat := 528

def sealSectionStampMax : Nat := 64

def sealHeaderMin : Nat := 520

def sealHeaderMax : Nat := 640

/-- The schemas of a perp-meta section. -/
inductive MetaSchema where
  | legacyB7
  | legacyB8
  | legacyB9
  | legacyB10
  | legacyB12
  | legacyB14
  | legacyB15
  | legacyB16
  | legacyB17
  | legacyB18
  | alreadyB19
  | unknown
deriving DecidableEq

/-- The plaintext length of each schema. -/
def goldenSizes : List (Nat × MetaSchema) :=
  [(88, .legacyB7), (120, .legacyB8), (128, .legacyB9), (136, .legacyB10), (144, .legacyB12),
    (152, .legacyB14), (160, .legacyB15), (176, .legacyB16), (184, .legacyB17),
    (192, .legacyB18), (200, .alreadyB19)]

-----------------------------------------------------------------------------------------
-- Files
-----------------------------------------------------------------------------------------

/-- A directory entry: what its metadata says, and its bytes if it can be opened and read. -/
structure Entry where
  name : String
  isFile : Bool
  size : Nat
  contents : Option (List UInt8)

structure MetaSchemaFinding where
  file : String
  payloadLen : Option Nat
  schema : MetaSchema

/-- A file name that counts for a shard. -/
def perpShardOf (name : String) : Option Nat :=
  match name.toList with
  | 's' :: rest =>
      if "_perp_".toList <:+: name.toList then
        (Text.parseNat (rest.takeWhile Char.isDigit)).filter (· < 2 ^ 32)
      else none
  | _ => none

def isPerpMetaFile (name : String) : Bool :=
  "s".toList.isPrefixOf name.toList && "_perp_meta.sealed".toList.isSuffixOf name.toList

/-- Four bytes as a number, the least significant first. -/
def readU32 (bytes : List UInt8) (offset : Nat) : Nat := leValue ((bytes.drop offset).take 4)

def checkedSub (left right : Nat) : Option Nat := if right ≤ left then some (left - right) else none

/-- The plaintext length in the header of a sealed file, if the header agrees with the file. -/
def readSealedPayloadLen (entry : Entry) : Option Nat := do
  let contents ← entry.contents
  if contents.length < sealedPayloadSizeOffset + 4 then none
  let plaintextLen := readU32 contents plainTextOffset
  let payloadSize := readU32 contents sealedPayloadSizeOffset
  let aad ← checkedSub payloadSize plaintextLen
  if sealSectionStampMax < aad then none
  let overhead ← checkedSub contents.length payloadSize
  if sealHeaderMin ≤ overhead ∧ overhead ≤ sealHeaderMax then some plaintextLen else none

def classifyPerpMeta (payloadLen : Option Nat) : MetaSchema :=
  (payloadLen.bind (goldenSizes.lookup ·)).getD .unknown

-----------------------------------------------------------------------------------------
-- The assessment
-----------------------------------------------------------------------------------------

structure CapacityCheck where
  axis : String
  usage : Nat
  limit : Nat
  unit : String
  ok : Bool

def CapacityCheck.new (axis : String) (usage limit : Nat) (unit : String) : CapacityCheck where
  axis := axis
  usage := usage
  limit := limit
  unit := unit
  ok := usage ≤ limit

structure CapacityReport where
  totalSealedBytes : Nat
  totalFiles : Nat
  estPayloadBytes : Nat
  estHeapPeakBytes : Nat
  perpFilesByShard : BTreeMap Nat Nat
  checks : List CapacityCheck
  perpMetaFindings : List MetaSchemaFinding

def CapacityReport.ok (report : CapacityReport) : Bool := report.checks.all (·.ok)

/-- What the walk over the directory adds up. -/
structure Tally where
  totalSealedBytes : Nat
  totalFiles : Nat
  perpFilesByShard : BTreeMap Nat Nat
  perpMetaFindings : List MetaSchemaFinding

def Tally.empty : Tally where
  totalSealedBytes := 0
  totalFiles := 0
  perpFilesByShard := .empty
  perpMetaFindings := []

/-- A file that the migration seals again. -/
def isInput (entry : Entry) : Bool :=
  entry.isFile
    && (".sealed".toList.isSuffixOf entry.name.toList
      || ".account".toList.isSuffixOf entry.name.toList)

def finding (entry : Entry) : MetaSchemaFinding where
  file := entry.name
  payloadLen := readSealedPayloadLen entry
  schema := classifyPerpMeta (readSealedPayloadLen entry)

/-- One entry; the sum of the sizes wraps around at 64 bits. -/
def Tally.add (tally : Tally) (entry : Entry) : Tally :=
  if isInput entry then
    {
      totalSealedBytes := (tally.totalSealedBytes + entry.size) % 2 ^ 64
      totalFiles := tally.totalFiles + 1
      perpFilesByShard :=
        match perpShardOf entry.name with
        | some shard => tally.perpFilesByShard.upsert shard (fun count => count.getD 0 + 1)
        | none => tally.perpFilesByShard
      perpMetaFindings :=
        tally.perpMetaFindings ++ if isPerpMetaFile entry.name then [finding entry] else []
    }
  else tally

def saturatingMul (left right : Nat) : Nat := min (left * right) (2 ^ 64 - 1)

/-- The sealed bytes without the assumed overhead of each file, or all of them if nothing would
be left.
-/
def estimate (totalSealedBytes totalFiles : Nat) : Nat :=
  let overhead := saturatingMul totalFiles sealOverheadBytes
  max (totalSealedBytes - overhead)
    (if 0 < totalSealedBytes ∧ totalSealedBytes ≤ overhead then totalSealedBytes else 0)

def report (tally : Tally) : CapacityReport :=
  let perpMetaFindings := StableSort.sortBy MetaSchemaFinding.file tally.perpMetaFindings
  let unmigratableMetas := (perpMetaFindings.filter (·.schema = .unknown)).length
  let estPayloadBytes := estimate tally.totalSealedBytes tally.totalFiles
  let estHeapPeakBytes := saturatingMul estPayloadBytes heapPeakFactor
  let maxPerpPerShard := tally.perpFilesByShard.values.max?.getD 0
  {
    totalSealedBytes := tally.totalSealedBytes
    totalFiles := tally.totalFiles
    estPayloadBytes
    estHeapPeakBytes
    perpFilesByShard := tally.perpFilesByShard
    checks :=
      [.new "export ciphertext buffer (payload bytes)" estPayloadBytes exportCipherBufBytes "B",
        .new "enclave heap (export PEAK ≈ 3× payload)" estHeapPeakBytes enclaveHeapMaxBytes "B",
        .new "migration manifest (total resealed files)" tally.totalFiles manifestMaxFiles
          "files",
        .new "perp-state files per shard (max shard)" maxPerpPerShard perpStateMaxFilesPerShard
          "files",
        .new "perp-meta schema (β3.2a): non-migratable metas" unmigratableMetas 0 "files"]
    perpMetaFindings
  }

/-- The walk ends at the first entry that cannot be read. -/
def assessAccountsDir (accountsDir : String)
    (directory : Except String (List (Except String Entry))) : Except String CapacityReport := do
  let entries ← directory.mapError (fun _ => "read accounts dir " ++ accountsDir)
  let tally ← entries.foldlM (fun tally entry => entry.map tally.add) Tally.empty
  pure (report tally)

-----------------------------------------------------------------------------------------
-- What the walk adds up
-----------------------------------------------------------------------------------------

/-- The files that count for a shard. -/
def shardCount (shard : Nat) (inputs : List Entry) : Nat :=
  inputs.countP (fun entry => perpShardOf entry.name = some shard)

/-- A tally of some files. -/
structure Tally.Of (inputs : List Entry) (tally : Tally) : Prop where
  bytes : tally.totalSealedBytes = (inputs.map (·.size)).sum % 2 ^ 64
  files : tally.totalFiles = inputs.length
  shards : ∀ shard, (tally.perpFilesByShard.get? shard).getD 0 = shardCount shard inputs
  findings : tally.perpMetaFindings
    = (inputs.filter (fun entry => isPerpMetaFile entry.name)).map finding

theorem Tally.of_empty : Tally.Of [] .empty where
  bytes := rfl
  files := rfl
  shards := fun _ => rfl
  findings := rfl

/-- One more file. -/
theorem Tally.Of.add {inputs : List Entry} {tally : Tally} (of : Tally.Of inputs tally)
    {entry : Entry} (input : isInput entry)
    : Tally.Of (inputs ++ [entry]) (tally.add entry) := by
  rw [Tally.add, if_pos input]
  refine ⟨?_, ?_, fun shard => ?_, ?_⟩
  · rw [of.bytes, List.map_append, List.sum_append, Nat.mod_add_mod]
    rfl
  · rw [of.files, List.length_append]
    rfl
  · have before := of.shards shard
    have counted : shardCount shard (inputs ++ [entry])
        = shardCount shard inputs + if perpShardOf entry.name = some shard then 1 else 0 := by
      rw [shardCount, List.countP_append, List.countP_singleton]
      simp [shardCount]
    rw [counted]
    cases own : perpShardOf entry.name with
    | none => simpa using before
    | some other =>
        by_cases same : shard = other
        · subst same
          simp [before]
        · have apart : ¬ other = shard := fun equal => same equal.symm
          simpa [same, apart] using before
  · rw [of.findings, List.filter_append, List.map_append]
    by_cases perpMeta : isPerpMetaFile entry.name
    · simp [perpMeta]
    · simp [perpMeta]

theorem Tally.Of.foldl {inputs : List Entry} {tally : Tally} (of : Tally.Of inputs tally)
    (entries : List Entry)
    : Tally.Of (inputs ++ entries.filter isInput) (entries.foldl Tally.add tally) := by
  induction entries generalizing inputs tally with
  | nil => simpa using of
  | cons entry rest ih =>
      rw [List.foldl_cons]
      by_cases input : isInput entry
      · have next := ih (of.add input)
        rw [List.append_assoc] at next
        rw [List.filter_cons_of_pos input]
        exact next
      · have skipped : tally.add entry = tally := if_neg input
        rw [List.filter_cons_of_neg input, skipped]
        exact ih of

/-- The files of a directory that the migration seals again, if everything can be read. -/
def inputsOf (directory : Except String (List (Except String Entry)))
    : Except String (List Entry) := do
  let entries ← directory
  let read ← entries.mapM id
  pure (read.filter isInput)

theorem foldlM_add {entries : List (Except String Entry)} {tally final : Tally}
    : entries.foldlM (fun tally entry => entry.map tally.add) tally = .ok final
      ↔ ∃ read, entries.mapM id = .ok read ∧ read.foldl Tally.add tally = final := by
  induction entries generalizing tally with
  | nil => simp [Pure.pure, Except.pure]
  | cons entry rest ih =>
      cases entry with
      | error reason =>
          refine iff_of_false (fun walked => by cases walked) (fun given => ?_)
          obtain ⟨read, readAll, _⟩ := given
          cases readAll
      | ok first =>
          have walk : (Except.ok first :: rest).foldlM
                (fun tally entry => entry.map tally.add) tally
              = rest.foldlM (fun tally entry => entry.map tally.add) (tally.add first) := rfl
          rw [walk, ih, List.mapM_cons]
          constructor
          · intro given
            obtain ⟨read, readRest, folded⟩ := given
            exact ⟨first :: read,
              Except.bind_eq_ok_iff.mpr ⟨first, rfl,
                Except.bind_eq_ok_iff.mpr ⟨read, readRest, rfl⟩⟩, folded⟩
          · intro given
            obtain ⟨read, readAll, folded⟩ := given
            obtain ⟨head, sameHead, readRest⟩ := Except.bind_eq_ok_iff.mp readAll
            obtain ⟨others, readOthers, last⟩ := Except.bind_eq_ok_iff.mp readRest
            cases sameHead
            cases last
            exact ⟨others, readOthers, folded⟩

/-- A report is one of a tally of the files that are sealed again. -/
theorem assessAccountsDir_eq_ok_iff {accountsDir : String}
    {directory : Except String (List (Except String Entry))} {result : CapacityReport}
    : assessAccountsDir accountsDir directory = .ok result
      ↔ ∃ entries read, directory = .ok entries ∧ entries.mapM id = .ok read
        ∧ report (read.foldl Tally.add .empty) = result := by
  rw [assessAccountsDir, Except.bind_eq_ok_iff]
  constructor
  · intro given
    obtain ⟨entries, opened, walked⟩ := given
    obtain ⟨tally, folded, made⟩ := Except.bind_eq_ok_iff.mp walked
    obtain ⟨read, readAll, rfl⟩ := foldlM_add.mp folded
    exact ⟨entries, read, Except.mapError_eq_ok_iff.mp opened, readAll, Except.ok.inj made⟩
  · intro given
    obtain ⟨entries, read, opened, readAll, rfl⟩ := given
    exact ⟨entries, Except.mapError_eq_ok_iff.mpr opened,
      Except.bind_eq_ok_iff.mpr ⟨_, foldlM_add.mpr ⟨read, readAll, rfl⟩, rfl⟩⟩

theorem inputsOf_eq_ok_iff {directory : Except String (List (Except String Entry))}
    {inputs : List Entry}
    : inputsOf directory = .ok inputs
      ↔ ∃ entries read, directory = .ok entries ∧ entries.mapM id = .ok read
        ∧ read.filter isInput = inputs := by
  rw [inputsOf, Except.bind_eq_ok_iff]
  constructor
  · intro given
    obtain ⟨entries, opened, walked⟩ := given
    obtain ⟨read, readAll, made⟩ := Except.bind_eq_ok_iff.mp walked
    exact ⟨entries, read, opened, readAll, Except.ok.inj made⟩
  · intro given
    obtain ⟨entries, read, opened, readAll, rfl⟩ := given
    exact ⟨entries, opened, Except.bind_eq_ok_iff.mpr ⟨read, readAll, rfl⟩⟩

-----------------------------------------------------------------------------------------
-- The checks
-----------------------------------------------------------------------------------------

theorem report_ok_iff (tally : Tally)
    : (report tally).ok = true
      ↔ estimate tally.totalSealedBytes tally.totalFiles ≤ exportCipherBufBytes
        ∧ saturatingMul (estimate tally.totalSealedBytes tally.totalFiles) heapPeakFactor
          ≤ enclaveHeapMaxBytes
        ∧ tally.totalFiles ≤ manifestMaxFiles
        ∧ tally.perpFilesByShard.values.max?.getD 0 ≤ perpStateMaxFilesPerShard
        ∧ ((StableSort.sortBy MetaSchemaFinding.file tally.perpMetaFindings).filter
            (·.schema = .unknown)).length ≤ 0 := by
  simp only [report, CapacityReport.ok, CapacityCheck.new, List.all_cons, List.all_nil,
    Bool.and_true, Bool.and_eq_true, decide_eq_true_eq]

/-- The largest number of files of a shard is within a bound if every shard's is. -/
theorem Tally.Of.max_le_iff {inputs : List Entry} {tally : Tally} (of : Tally.Of inputs tally)
    (limit : Nat)
    : tally.perpFilesByShard.values.max?.getD 0 ≤ limit
      ↔ ∀ shard, shardCount shard inputs ≤ limit := by
  have bound : tally.perpFilesByShard.values.max?.getD 0 ≤ limit
      ↔ ∀ count ∈ tally.perpFilesByShard.values, count ≤ limit := by
    cases largest : tally.perpFilesByShard.values.max? with
    | none =>
        rw [List.max?_eq_none_iff.mp largest]
        simp
    | some count => exact List.max?_le_iff largest
  rw [bound]
  constructor
  · intro each shard
    rw [← of.shards shard]
    cases found : tally.perpFilesByShard.get? shard with
    | none => exact Nat.zero_le limit
    | some count =>
        refine each count (List.mem_map.mpr ⟨(shard, count), ?_, rfl⟩)
        exact BTreeMap.get?_eq_some_iff.mp found
  · intro each count member
    obtain ⟨⟨shard, value⟩, bound, rfl⟩ := List.mem_map.mp member
    have counted := of.shards shard
    rw [BTreeMap.get?_eq_some_iff.mpr bound, Option.getD_some] at counted
    show value ≤ limit
    rw [counted]
    exact each shard

/-- No finding is of an unknown schema if every meta section has a known one. -/
theorem Tally.Of.unknown_le_zero_iff {inputs : List Entry} {tally : Tally}
    (of : Tally.Of inputs tally)
    : ((StableSort.sortBy MetaSchemaFinding.file tally.perpMetaFindings).filter
          (·.schema = .unknown)).length ≤ 0
      ↔ ∀ entry ∈ inputs, isPerpMetaFile entry.name →
        classifyPerpMeta (readSealedPayloadLen entry) ≠ .unknown := by
  have sorted := (StableSort.sortBy_perm MetaSchemaFinding.file tally.perpMetaFindings).filter
    (fun found => decide (found.schema = .unknown))
  rw [sorted.length_eq, of.findings, Nat.le_zero, List.length_eq_zero_iff, List.filter_eq_nil_iff]
  simp only [List.forall_mem_map, List.mem_filter, finding, decide_eq_true_eq, and_imp]

/-- What the header of an entry must say for its plaintext length to be read off. -/
theorem readSealedPayloadLen_eq_some_iff {entry : Entry} {contents : List UInt8}
    (opened : entry.contents = some contents) {length : Nat}
    : readSealedPayloadLen entry = some length
      ↔ sealedPayloadSizeOffset + 4 ≤ contents.length
        ∧ readU32 contents plainTextOffset ≤ readU32 contents sealedPayloadSizeOffset
        ∧ readU32 contents sealedPayloadSizeOffset - readU32 contents plainTextOffset
          ≤ sealSectionStampMax
        ∧ readU32 contents sealedPayloadSizeOffset ≤ contents.length
        ∧ sealHeaderMin ≤ contents.length - readU32 contents sealedPayloadSizeOffset
        ∧ contents.length - readU32 contents sealedPayloadSizeOffset ≤ sealHeaderMax
        ∧ readU32 contents plainTextOffset = length := by
  simp only [readSealedPayloadLen, opened, Option.bind_eq_bind, Option.bind_some, Option.bind_none,
    checkedSub]
  generalize readU32 contents plainTextOffset = plain
  generalize readU32 contents sealedPayloadSizeOffset = payload
  by_cases long : contents.length < sealedPayloadSizeOffset + 4
  · rw [if_pos long]
    exact iff_of_false (fun same => by cases same) (fun given => by omega)
  · by_cases above : plain ≤ payload
    · by_cases stamp : sealSectionStampMax < payload - plain
      · simp only [if_neg long, if_pos above, Option.bind_some, if_pos stamp]
        exact iff_of_false (fun same => by cases same) (fun given => by omega)
      · by_cases within : payload ≤ contents.length
        · simp only [if_neg long, if_pos above, Option.bind_some, if_neg stamp, if_pos within]
          split
          case isTrue header =>
            rw [Option.some.injEq]
            exact ⟨fun same => ⟨by omega, above, by omega, within, header.1, header.2, same⟩,
              fun given => given.2.2.2.2.2.2⟩
          case isFalse header =>
            exact iff_of_false (fun same => by cases same)
              (fun given => header ⟨given.2.2.2.2.1, given.2.2.2.2.2.1⟩)
        · simp only [if_neg long, if_pos above, Option.bind_some, if_neg stamp, if_neg within]
          exact iff_of_false (fun same => by cases same) (fun given => within given.2.2.2.1)
    · simp only [if_neg long, if_neg above]
      exact iff_of_false (fun same => by cases same) (fun given => above given.2.1)

-----------------------------------------------------------------------------------------
-- Sealed files
-----------------------------------------------------------------------------------------

/-- A sealed file: a header of 560 bytes with the lengths in it, the plaintext under encryption,
and at most 64 bytes of authenticated data.
-/
structure SealedFile where
  name : String
  header : List UInt8
  plaintext : List UInt8
  aad : List UInt8
  headerSize : header.length = 560
  aadSize : aad.length ≤ 64
  plainTextField : readU32 header plainTextOffset = plaintext.length % 2 ^ 32
  payloadSizeField : readU32 header sealedPayloadSizeOffset
    = (plaintext.length + aad.length) % 2 ^ 32

namespace SealedFile

def contents (file : SealedFile) : List UInt8 := file.header ++ (file.plaintext ++ file.aad)

def entry (file : SealedFile) : Entry where
  name := file.name
  isFile := true
  size := file.contents.length
  contents := some file.contents

theorem length_contents (file : SealedFile)
    : file.contents.length = 560 + file.plaintext.length + file.aad.length := by
  rw [contents, List.length_append, List.length_append, file.headerSize, Nat.add_assoc]

/-- The fields of the header are read off the file. -/
theorem readU32_contents (file : SealedFile) {offset : Nat} (inside : offset + 4 ≤ 560)
    : readU32 file.contents offset = readU32 file.header offset := by
  have size := file.headerSize
  rw [readU32, readU32, contents, List.drop_append_of_le_length (by omega),
    List.take_append_of_le_length (by rw [List.length_drop]; omega)]

/-- The plaintext length is read off the header exactly if the lengths fit 32 bits. -/
theorem readSealedPayloadLen_entry (file : SealedFile) (length : Nat)
    : readSealedPayloadLen file.entry = some length
      ↔ file.plaintext.length + file.aad.length < 2 ^ 32 ∧ file.plaintext.length = length := by
  have size := file.length_contents
  have short := file.aadSize
  have plain : readU32 file.contents plainTextOffset = file.plaintext.length % 2 ^ 32 :=
    (file.readU32_contents (by decide)).trans file.plainTextField
  have payload : readU32 file.contents sealedPayloadSizeOffset
      = (file.plaintext.length + file.aad.length) % 2 ^ 32 :=
    (file.readU32_contents (by decide)).trans file.payloadSizeField
  have opened : file.entry.contents = some file.contents := rfl
  rw [readSealedPayloadLen_eq_some_iff opened, plain, payload, size]
  unfold sealedPayloadSizeOffset sealSectionStampMax sealHeaderMin sealHeaderMax
  omega

end SealedFile

-----------------------------------------------------------------------------------------
-- What the checks say of sealed files
-----------------------------------------------------------------------------------------

/-- The plaintext lengths of the known schemas. -/
def knownLengths : List Nat := goldenSizes.map Prod.fst

theorem classifyPerpMeta_ne_unknown_iff {payloadLen : Option Nat}
    : classifyPerpMeta payloadLen ≠ .unknown
      ↔ ∃ length ∈ knownLengths, payloadLen = some length := by
  cases payloadLen with
  | none => simp [classifyPerpMeta]
  | some length =>
      have known : ∀ length ∈ knownLengths, classifyPerpMeta (some length) ≠ .unknown := by decide
      by_cases listed : length ∈ knownLengths
      · exact iff_of_true (known length listed) ⟨length, listed, rfl⟩
      · have absent : goldenSizes.lookup length = none := by
          refine List.lookup_eq_none_iff.mpr (fun entry member => ?_)
          have apart : length ≠ entry.1 := by
            rintro rfl
            exact listed (List.mem_map.mpr ⟨entry, member, rfl⟩)
          simpa using apart
        refine iff_of_false (fun classified => classified ?_) (fun given => ?_)
        · rw [classifyPerpMeta, Option.bind_some, absent, Option.getD_none]
        · obtain ⟨other, inside, same⟩ := given
          exact listed (Option.some.inj same ▸ inside)

section Sealed

variable (files : List SealedFile)

def plaintextTotal : Nat := (files.map (·.plaintext.length)).sum

def aadTotal : Nat := (files.map (·.aad.length)).sum

theorem sum_sizes
    : ((files.map SealedFile.entry).map (·.size)).sum
      = 560 * files.length + plaintextTotal files + aadTotal files := by
  induction files with
  | nil => rfl
  | cons file rest ih =>
      have size : file.entry.size = 560 + file.plaintext.length + file.aad.length :=
        file.length_contents
      simp only [plaintextTotal, aadTotal, List.map_cons, List.sum_cons, List.length_cons] at ih ⊢
      omega

/-- The files that count for a shard. -/
def shardFiles (shard : Nat) : Nat :=
  files.countP (fun file => perpShardOf file.name = some shard)

/-- Every meta section is of a known schema. -/
def MetasKnown : Prop :=
  ∀ file ∈ files, isPerpMetaFile file.name → file.plaintext.length ∈ knownLengths

theorem metasKnown_iff
    : (∀ entry ∈ files.map SealedFile.entry, isPerpMetaFile entry.name →
        classifyPerpMeta (readSealedPayloadLen entry) ≠ .unknown) ↔ MetasKnown files := by
  rw [List.forall_mem_map]
  refine forall₂_congr (fun file _ => forall_congr' (fun _ => ?_))
  rw [classifyPerpMeta_ne_unknown_iff]
  constructor
  · intro given
    obtain ⟨length, known, read⟩ := given
    exact ((file.readSealedPayloadLen_entry length).mp read).2 ▸ known
  · intro known
    have small : ∀ length ∈ knownLengths, length ≤ 200 := by decide
    have bound := small _ known
    have short := file.aadSize
    exact ⟨_, known, (file.readSealedPayloadLen_entry _).mpr ⟨by omega, rfl⟩⟩

/-- The estimate fits the buffer exactly if what the files hold is at most that much and 32 bytes
a file.
-/
theorem estimate_le_iff {count held : Nat} (few : count ≤ manifestMaxFiles)
    : estimate (560 * count + held) count ≤ exportCipherBufBytes
      ↔ held ≤ exportCipherBufBytes + 32 * count := by
  unfold manifestMaxFiles at few
  unfold estimate saturatingMul sealOverheadBytes exportCipherBufBytes
  have product : min (count * 592) (2 ^ 64 - 1) = 592 * count := by omega
  rw [product]
  dsimp only
  split
  case isTrue fallback => omega
  case isFalse fallback => omega

/-- A report is without objections exactly if the files are few, hold little more than the
buffer, and the shards and meta sections are in order.
-/
theorem report_ok_of_sealed {tally : Tally}
    (of : Tally.Of (files.map SealedFile.entry) tally)
    (fits : (files.map (fun file => file.contents.length)).sum < 2 ^ 64)
    : (report tally).ok = true
      ↔ files.length ≤ manifestMaxFiles
        ∧ plaintextTotal files + aadTotal files ≤ exportCipherBufBytes + 32 * files.length
        ∧ (∀ shard, shardFiles files shard ≤ perpStateMaxFilesPerShard)
        ∧ MetasKnown files := by
  have sizes := sum_sizes files
  have bytes : tally.totalSealedBytes
      = 560 * files.length + (plaintextTotal files + aadTotal files) := by
    have total : ((files.map SealedFile.entry).map (·.size)).sum < 2 ^ 64 := by
      rw [List.map_map]
      exact fits
    rw [of.bytes, Nat.mod_eq_of_lt total, sizes, Nat.add_assoc]
  have count : tally.totalFiles = files.length := by rw [of.files, List.length_map]
  have shards : ∀ shard, shardCount shard (files.map SealedFile.entry) = shardFiles files shard :=
    fun shard => List.countP_map
  rw [report_ok_iff, of.max_le_iff, of.unknown_le_zero_iff, metasKnown_iff, bytes, count]
  simp only [shards]
  constructor
  · intro given
    obtain ⟨buffer, _, few, perShard, known⟩ := given
    exact ⟨few, (estimate_le_iff few).mp buffer, perShard, known⟩
  · intro given
    obtain ⟨few, held, perShard, known⟩ := given
    have buffer := (estimate_le_iff few).mpr held
    refine ⟨buffer, ?_, few, perShard, known⟩
    unfold saturatingMul heapPeakFactor enclaveHeapMaxBytes
    unfold exportCipherBufBytes at buffer
    omega

end Sealed

-----------------------------------------------------------------------------------------
-- What the gate promises
-----------------------------------------------------------------------------------------

/-- A perp-state file of a shard: `s`, the number of the shard and `_perp_` in front. -/
def PerpStateOf (shard : Nat) (name : String) : Prop :=
  ∃ digits tail, name.toList = 's' :: (digits ++ ("_perp_".toList ++ tail))
    ∧ Text.parseNat digits = some shard

/-- The perp-meta section of a shard. -/
def IsPerpMetaOf (shard : Nat) (name : String) : Prop :=
  ∃ digits, name.toList = 's' :: (digits ++ "_perp_meta.sealed".toList)
    ∧ Text.parseNat digits = some shard

/-- What a migration of the files must keep to. -/
structure WithinLimits (files : List SealedFile) : Prop where
  buffer : plaintextTotal files ≤ exportCipherBufBytes
  heap : 3 * plaintextTotal files ≤ enclaveHeapMaxBytes
  count : files.length ≤ 512
  shards : ∀ shard < 2 ^ 32, ∀ group : List SealedFile, group.Sublist files →
    (∀ file ∈ group, PerpStateOf shard file.name) → group.length ≤ 200
  metas : ∀ file ∈ files, ∀ shard, IsPerpMetaOf shard file.name →
    file.plaintext.length ∈ [88, 120, 128, 136, 144, 152, 160, 176, 184, 192, 200]

theorem perpShardOf_of_perpStateOf {shard : Nat} {name : String} (ofShard : PerpStateOf shard name)
    (bounded : shard < 2 ^ 32)
    : perpShardOf name = some shard := by
  obtain ⟨digits, tail, split, parsed⟩ := ofShard
  have eachDigit : ∀ char ∈ digits, char.isDigit = true := by
    unfold Text.parseNat at parsed
    split at parsed
    case isTrue numeral => exact List.all_eq_true.mp numeral.2
    case isFalse => cases parsed
  have run : (digits ++ ("_perp_".toList ++ tail)).takeWhile Char.isDigit = digits :=
    Text.takeWhile_append eachDigit (fun char first => by cases first; rfl)
  have occurs : "_perp_".toList <:+: 's' :: (digits ++ ("_perp_".toList ++ tail)) :=
    ⟨'s' :: digits, tail, by simp⟩
  rw [perpShardOf, split]
  simp only [if_pos occurs, run, parsed, Option.filter_some, bounded, decide_true, if_true]

theorem isPerpMetaFile_of_isPerpMetaOf {shard : Nat} {name : String}
    (perpMeta : IsPerpMetaOf shard name)
    : isPerpMetaFile name := by
  obtain ⟨digits, split, _⟩ := perpMeta
  have ends : "_perp_meta.sealed".toList.isSuffixOf
      ('s' :: (digits ++ "_perp_meta.sealed".toList)) = true :=
    List.isSuffixOf_iff_suffix.mpr ⟨'s' :: digits, rfl⟩
  rw [isPerpMetaFile, split, ends]
  rfl

/-- The walk over a directory of sealed files tallies them. -/
theorem tally_of_sealed {files : List SealedFile} {inputs read : List Entry}
    (sealed : inputs = files.map SealedFile.entry) (filtered : read.filter isInput = inputs)
    : Tally.Of (files.map SealedFile.entry) (read.foldl Tally.add .empty) := by
  have walked := Tally.of_empty.foldl read
  rw [List.nil_append, filtered, sealed] at walked
  exact walked

/-- Plaintext that fits the buffer is within all limits if the checks have no objections. -/
theorem withinLimits_of_checks {files : List SealedFile}
    (buffer : plaintextTotal files ≤ exportCipherBufBytes)
    (few : files.length ≤ manifestMaxFiles)
    (perShard : ∀ shard, shardFiles files shard ≤ perpStateMaxFilesPerShard)
    (known : MetasKnown files)
    : WithinLimits files := by
  refine ⟨buffer, ?_, few, fun shard bounded group within each => ?_,
    fun file member shard perpMeta => ?_⟩
  · unfold exportCipherBufBytes at buffer
    unfold enclaveHeapMaxBytes
    omega
  · have all : group.countP (fun file => perpShardOf file.name = some shard) = group.length :=
      List.countP_eq_length.mpr (fun file member =>
        decide_eq_true (perpShardOf_of_perpStateOf (each file member) bounded))
    have counted : group.countP (fun file => perpShardOf file.name = some shard)
        ≤ shardFiles files shard :=
      within.countP_le
    rw [all] at counted
    exact counted.trans (perShard shard)
  · exact known file member (isPerpMetaFile_of_isPerpMetaOf perpMeta)

/-- For every directory of sealed files: a report without objections promises the limits exactly
if the directory cannot be read, the plaintext fits the buffer, what the files hold exceeds it by
more than 32 bytes a file, or another check objects.
-/
theorem capacity_gate_iff (accountsDir : String)
    (directory : Except String (List (Except String Entry))) (files : List SealedFile)
    (sealed : ∀ inputs, inputsOf directory = .ok inputs → inputs = files.map SealedFile.entry)
    (fits : (files.map (fun file => file.contents.length)).sum < 2 ^ 64)
    : (∀ result, assessAccountsDir accountsDir directory = .ok result → result.ok = true →
          WithinLimits files)
      ↔ (∃ reason, inputsOf directory = .error reason)
        ∨ plaintextTotal files ≤ exportCipherBufBytes
        ∨ exportCipherBufBytes + 32 * files.length < plaintextTotal files + aadTotal files
        ∨ manifestMaxFiles < files.length
        ∨ (∃ shard, perpStateMaxFilesPerShard < shardFiles files shard)
        ∨ ¬ MetasKnown files := by
  constructor
  · intro promises
    by_contra refuted
    push Not at refuted
    obtain ⟨readable, exceeds, little, few, perShard, known⟩ := refuted
    cases found : inputsOf directory with
    | error reason => exact readable reason found
    | ok inputs =>
        obtain ⟨entries, read, opened, readAll, filtered⟩ := inputsOf_eq_ok_iff.mp found
        have of := tally_of_sealed (sealed inputs found) filtered
        have within := promises _ (assessAccountsDir_eq_ok_iff.mpr ⟨_, _, opened, readAll, rfl⟩)
          ((report_ok_of_sealed files of fits).mpr ⟨few, little, perShard, known⟩)
        exact absurd within.buffer (Nat.not_le_of_lt exceeds)
  · intro given result assessed ok
    obtain ⟨entries, read, opened, readAll, made⟩ := assessAccountsDir_eq_ok_iff.mp assessed
    have found : inputsOf directory = .ok (read.filter isInput) :=
      inputsOf_eq_ok_iff.mpr ⟨entries, read, opened, readAll, rfl⟩
    have of := tally_of_sealed (sealed _ found) rfl
    rw [← made] at ok
    obtain ⟨few, held, perShard, known⟩ := (report_ok_of_sealed files of fits).mp ok
    refine withinLimits_of_checks ?_ few perShard known
    rcases given with ⟨reason, unreadable⟩ | within | beyond | many | ⟨shard, crowded⟩ | foreign
    · rw [found] at unreadable
      cases unreadable
    · exact within
    · exact absurd held (Nat.not_le_of_lt beyond)
    · exact absurd few (Nat.not_le_of_lt many)
    · exact absurd (perShard shard) (Nat.not_le_of_lt crowded)
    · exact absurd known foreign

/-- A header for the bytes of the two lengths. -/
def sampleHeader (plaintextLen payloadSize : List UInt8) : List UInt8 :=
  List.replicate 512 0 ++ (plaintextLen ++ (List.replicate 12 0 ++ (payloadSize
    ++ List.replicate 28 0)))

/-- One byte more than the export buffer holds. -/
def oversized : SealedFile where
  name := "s0_perp_users_0.sealed"
  header := sampleHeader [1, 0, 0, 1] [1, 0, 0, 1]
  plaintext := List.replicate 16777217 0
  aad := []
  headerSize := by decide +kernel
  aadSize := by decide
  plainTextField := by
    rw [List.length_replicate]
    decide +kernel
  payloadSizeField := by
    rw [List.length_replicate, List.length_nil]
    decide +kernel

/-- A file that holds one byte. -/
def small : SealedFile where
  name := "signer_list.sealed"
  header := sampleHeader [1, 0, 0, 0] [1, 0, 0, 0]
  plaintext := [0]
  aad := []
  headerSize := by decide +kernel
  aadSize := by decide
  plainTextField := by decide +kernel
  payloadSizeField := by decide +kernel

/-- Witness: `capacity_gate_iff` for a directory of one small file. -/
theorem capacity_gate_iff_small
    : (∀ result, assessAccountsDir "accounts" (.ok [.ok small.entry]) = .ok result →
          result.ok = true → WithinLimits [small])
      ↔ (∃ reason, inputsOf (.ok [.ok small.entry]) = .error reason)
        ∨ plaintextTotal [small] ≤ exportCipherBufBytes
        ∨ exportCipherBufBytes + 32 * [small].length < plaintextTotal [small] + aadTotal [small]
        ∨ manifestMaxFiles < [small].length
        ∨ (∃ shard, perpStateMaxFilesPerShard < shardFiles [small] shard)
        ∨ ¬ MetasKnown [small] :=
  capacity_gate_iff "accounts" (.ok [.ok small.entry]) [small]
    (fun _ found => (Except.ok.inj found).symm) (by decide +kernel)

/-- One file with more plaintext than the export buffer holds passes every check. -/
theorem oversized_passes
    : exportCipherBufBytes < plaintextTotal [oversized]
      ∧ (∃ result, assessAccountsDir "accounts" (.ok [.ok oversized.entry]) = .ok result
        ∧ result.ok = true)
      ∧ ¬ WithinLimits [oversized] := by
  have held : plaintextTotal [oversized] = 16777217 := by
    rw [plaintextTotal, List.map_singleton, List.sum_singleton]
    exact List.length_replicate
  have exceeds : exportCipherBufBytes < plaintextTotal [oversized] := by
    rw [held]
    decide
  have filtered : [oversized.entry].filter isInput = [oversized.entry] :=
    List.filter_cons_of_pos rfl
  have of : Tally.Of ([oversized].map SealedFile.entry)
      ([oversized.entry].foldl Tally.add .empty) :=
    tally_of_sealed rfl filtered
  have fits : ([oversized].map (fun file => file.contents.length)).sum < 2 ^ 64 := by
    have size : oversized.plaintext.length = 16777217 := List.length_replicate
    have nothing : oversized.aad.length = 0 := rfl
    rw [List.map_singleton, List.sum_singleton, oversized.length_contents, size, nothing]
    decide
  have little : plaintextTotal [oversized] + aadTotal [oversized]
      ≤ exportCipherBufBytes + 32 * [oversized].length := by
    have nothing : aadTotal [oversized] = 0 := rfl
    rw [held, nothing, List.length_singleton, exportCipherBufBytes]
    omega
  have known : MetasKnown [oversized] := by
    intro file member perpMeta
    rw [List.mem_singleton.mp member] at perpMeta
    cases perpMeta
  have ok := (report_ok_of_sealed [oversized] of fits).mpr
    ⟨by decide, little, fun shard => List.countP_le_length.trans (by decide), known⟩
  exact ⟨exceeds, ⟨_, assessAccountsDir_eq_ok_iff.mpr ⟨_, _, rfl, rfl, rfl⟩, ok⟩,
    fun within => absurd within.buffer (Nat.not_le_of_lt exceeds)⟩

end PathACapacity

end PerpDex
