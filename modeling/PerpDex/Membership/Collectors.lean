import PerpDex.Lib.Wire
import PerpDex.Membership.Ceremony

/-! The four collectors of operator signatures, and whose signatures end up in a bundle.
Answers are told apart by the public key they carry; the first one under a key is kept, and
no signature is checked before the enclave reads the bundle.
-/

namespace PerpDex

namespace Membership

open Wire

-----------------------------------------------------------------------------------------
-- Gathering
-----------------------------------------------------------------------------------------

/-- One entry a public key, in the order of arrival, of the answers a collector can read. -/
def gatherWith (read : SigningMessage → Option QuorumEntry) (entries : List QuorumEntry)
    : List SigningMessage → List QuorumEntry
  | [] => entries
  | message :: rest =>
      match read message with
      | some entry =>
          if entries.any (fun known => known.pk = entry.pk) then gatherWith read entries rest
          else gatherWith read (entries ++ [entry]) rest
      | none => gatherWith read entries rest

/-- How the governance, reserves and policy collectors read an answer: bytes that are not
hexadecimal count as empty, and any signature that is not empty will do.
-/
def readCosignature : SigningMessage → Option QuorumEntry
  | .response _ (some derHex) (some pkHex) none =>
      let pk := (Hex.decode pkHex).getD []
      let der := (Hex.decode derHex).getD []
      if pk.length = 33 ∧ der ≠ [] then some { pk, sig := der } else none
  | _ => none

/-- `LibP2PGovernanceBundleCollector::collect`: the bundle and how many distinct signers. -/
def collectGovernance (window : List SigningMessage) : Except String (List UInt8 × Nat) :=
  let entries := gatherWith readCosignature [] window
  if entries.isEmpty then
    .error
      ("collected zero allowlist-governance responses within 30s; "
        ++ "check the operator quorum is online + the gossipsub mesh is healthy")
  else .ok (buildQuorumBundle entries, entries.length)

/-- `LibP2PSpvBaselineCollector::collect`: the bundle and the accepted public keys. -/
def collectSpvBaseline (window : List SigningMessage)
    : Except String (List UInt8 × List (List UInt8)) :=
  let entries := gatherWith readCosignature [] window
  if entries.isEmpty then
    .error
      ("collected zero SPV cosignatures within 150s — no operator enclave verified "
        ++ "the proof + cosigned")
  else .ok (buildQuorumBundle entries, entries.map QuorumEntry.pk)

/-- `LibP2PUnlPolicyCollector::collect`: the bundle and the accepted public keys. -/
def collectUnlPolicy (window : List SigningMessage)
    : Except String (List UInt8 × List (List UInt8)) :=
  let entries := gatherWith readCosignature [] window
  if entries.isEmpty then
    .error
      ("no operator endorsed the policy proposal within 30s — most likely the "
        ++ "freshness anchor did not match their own validated ledgers (Q-UNL-4)")
  else .ok (buildQuorumBundle entries, entries.map QuorumEntry.pk)

inductive Collector where
  | membership
  | governance
  | spvBaseline
  | unlPolicy
deriving DecidableEq

namespace Collector

/-- What a collector takes of an answer. -/
def read : Collector → SigningMessage → Option QuorumEntry
  | .membership => parseSigningResponse
  | .governance => readCosignature
  | .spvBaseline => readCosignature
  | .unlPolicy => readCosignature

/-- The bundle a collector returns for the answers of its window. -/
def bundle : Collector → List SigningMessage → Except String (List UInt8)
  | .membership, window => collect window
  | .governance, window => (collectGovernance window).map Prod.fst
  | .spvBaseline, window => (collectSpvBaseline window).map Prod.fst
  | .unlPolicy, window => (collectUnlPolicy window).map Prod.fst

end Collector

-----------------------------------------------------------------------------------------
-- The bundle as it is read
-----------------------------------------------------------------------------------------

/-- `pk[33] || u8 sig_len (8..=72) || sig`. -/
def readEntry : Reader QuorumEntry := do
  let pk ← take 33
  let sigLen ← byte
  require (8 ≤ sigLen.toNat ∧ sigLen.toNat ≤ 72)
  let sig ← take sigLen.toNat
  pure { pk, sig }

/-- The documented format of a bundle: version, number of entries, entries. -/
def readBundle : Reader (List QuorumEntry) := do
  let version ← uintLe 4
  require (version = 1)
  let count ← uintLe 4
  many readEntry count

/-- The bundle carries a valid signature of the operator with a public key. -/
def Endorses (valid : List UInt8 → List UInt8 → Prop) (bundle pk : List UInt8) : Prop :=
  ∃ entries, whole readBundle bundle = some entries
    ∧ ∃ entry ∈ entries, entry.pk = pk ∧ valid pk entry.sig

theorem length_leBytes (width value : Nat) : (leBytes width value).length = width := by
  induction width generalizing value with
  | zero => rfl
  | succ width ih => rw [leBytes, List.length_cons, ih]

/-- Bytes written least significant first are read back, up to their width. -/
theorem leValue_leBytes (width value : Nat)
    : leValue (leBytes width value) = value % 256 ^ width := by
  induction width generalizing value with
  | zero => simp [leBytes, leValue, Nat.mod_one]
  | succ width ih =>
      have low : (UInt8.ofNat (value % 256)).toNat = value % 256 := by simp
      rw [leBytes, leValue, ih, low, Nat.pow_succ, Nat.mul_comm (256 ^ width) 256, Nat.mod_mul]

/-- The bytes of one entry. -/
def entryBytes (entry : QuorumEntry) : List UInt8 :=
  entry.pk ++ UInt8.ofNat entry.sig.length :: entry.sig

/-- A signature has a length that the format can state. -/
def QuorumEntry.Framed (entry : QuorumEntry) : Prop :=
  8 ≤ entry.sig.length ∧ entry.sig.length ≤ 72

instance (entry : QuorumEntry) : Decidable entry.Framed :=
  inferInstanceAs (Decidable (_ ∧ _))

theorem reads_entry {entry : QuorumEntry} (keySized : entry.pk.length = 33)
    (framed : entry.Framed)
    : Reads readEntry (entryBytes entry) entry := by
  have length : (UInt8.ofNat entry.sig.length).toNat = entry.sig.length := by
    rw [UInt8.toNat_ofNat']
    exact Nat.mod_eq_of_lt (by have := framed.2; omega)
  have signature : Reads (take entry.sig.length >>= fun sig => pure { pk := entry.pk, sig })
      (entry.sig ++ []) entry :=
    (reads_take rfl).bind (Reads.pure entry)
  rw [List.append_nil, ← length] at signature
  refine (reads_take keySized).bind ((reads_byte _).bind ?_)
  refine (reads_require ?_).bind signature
  rw [length]
  exact framed

/-- A signature that is too short or too long for the format is refused. -/
theorem refuses_entry {entry : QuorumEntry} (keySized : entry.pk.length = 33)
    (representable : entry.sig.length < 256) (unframed : ¬ entry.Framed)
    : Refuses readEntry (entryBytes entry) := by
  have length : (UInt8.ofNat entry.sig.length).toNat = entry.sig.length := by
    rw [UInt8.toNat_ofNat']
    exact Nat.mod_eq_of_lt representable
  refine (reads_take keySized).refuses ((reads_byte _).refuses ?_)
  refine (refuses_require ?_).bind _ entry.sig
  rw [length]
  exact unframed

theorem reads_version : Reads (uintLe 4) (leBytes 4 1) 1 :=
  reads_uintLe (length_leBytes 4 1)

theorem reads_count {count : Nat} (few : count < 2 ^ 32)
    : Reads (uintLe 4) (leBytes 4 (count % 2 ^ 32)) count := by
  have wide : count < 256 ^ 4 := few
  have read := reads_uintLe (length_leBytes 4 count)
  rw [leValue_leBytes, Nat.mod_eq_of_lt wide] at read
  rw [Nat.mod_eq_of_lt few]
  exact read

/-- What a bundle of representable entries is read as. -/
theorem whole_readBundle {entries : List QuorumEntry} (few : entries.length < 2 ^ 32)
    (keysSized : ∀ entry ∈ entries, entry.pk.length = 33)
    (representable : ∀ entry ∈ entries, entry.sig.length < 256)
    : whole readBundle (buildQuorumBundle entries)
      = if ∀ entry ∈ entries, entry.Framed then some entries else none := by
  by_cases framed : ∀ entry ∈ entries, entry.Framed
  · rw [if_pos framed]
    have all : Reads (many readEntry entries.length) (entries.flatMap entryBytes) entries :=
      Reads.many fun entry member => reads_entry (keysSized entry member) (framed entry member)
    have read : Reads readBundle (buildQuorumBundle entries) entries := by
      rw [buildQuorumBundle, List.append_assoc]
      exact reads_version.bind ((reads_require rfl).bind ((reads_count few).bind all))
    exact read.whole
  · rw [if_neg framed]
    simp only [not_forall] at framed
    obtain ⟨bad, member, unframed⟩ := framed
    have refused : Refuses (many readEntry entries.length) (entries.flatMap entryBytes) := by
      refine Refuses.many ?_ member
        (refuses_entry (keysSized bad member) (representable bad member) unframed)
      intro entry inside
      by_cases fits : entry.Framed
      · exact .inl (reads_entry (keysSized entry inside) fits)
      · exact .inr (refuses_entry (keysSized entry inside) (representable entry inside) fits)
    have refusal : Refuses readBundle (buildQuorumBundle entries) := by
      rw [buildQuorumBundle, List.append_assoc]
      exact reads_version.refuses
        ((reads_require rfl).refuses ((reads_count few).refuses refused))
    exact refusal.whole

-----------------------------------------------------------------------------------------
-- Whose answer is kept
-----------------------------------------------------------------------------------------

/-- The first entry read under a public key. -/
def firstUnder (read : SigningMessage → Option QuorumEntry) (window : List SigningMessage)
    (pk : List UInt8) : Option QuorumEntry :=
  window.findSome? (fun message => (read message).filter (fun entry => entry.pk = pk))

theorem firstUnder_cons_none {read : SigningMessage → Option QuorumEntry}
    {message : SigningMessage} (unread : read message = none) (rest : List SigningMessage)
    (pk : List UInt8)
    : firstUnder read (message :: rest) pk = firstUnder read rest pk := by
  rw [firstUnder, List.findSome?_cons, unread]
  rfl

theorem firstUnder_cons_some {read : SigningMessage → Option QuorumEntry}
    {message : SigningMessage} {entry : QuorumEntry} (isRead : read message = some entry)
    (rest : List SigningMessage) (pk : List UInt8)
    : firstUnder read (message :: rest) pk
      = if entry.pk = pk then some entry else firstUnder read rest pk := by
  rw [firstUnder, List.findSome?_cons, isRead]
  by_cases same : entry.pk = pk
  · simp only [Option.filter_some, same, decide_true, if_true]
  · simp only [Option.filter_some, same, decide_false, Bool.false_eq_true, if_false, firstUnder]

/-- An entry is gathered exactly if it is the first under its key.
Witness: induction on the window; a key that is listed already takes no further entry.
-/
theorem mem_gatherWith {read : SigningMessage → Option QuorumEntry} {entries : List QuorumEntry}
    {window : List SigningMessage} {entry : QuorumEntry}
    : entry ∈ gatherWith read entries window
      ↔ entry ∈ entries
        ∨ (∀ known ∈ entries, known.pk ≠ entry.pk)
          ∧ firstUnder read window entry.pk = some entry := by
  induction window generalizing entries with
  | nil => simp [gatherWith, firstUnder]
  | cons message rest ih =>
      cases isRead : read message with
      | none => rw [gatherWith, isRead, firstUnder_cons_none isRead, ih]
      | some found =>
          rw [gatherWith, isRead, firstUnder_cons_some isRead]
          dsimp only
          by_cases listed : entries.any (fun known => known.pk = found.pk) = true
          · rw [if_pos listed, ih]
            obtain ⟨known, member, same⟩ := List.any_eq_true.mp listed
            have same : known.pk = found.pk := of_decide_eq_true same
            by_cases mine : found.pk = entry.pk
            · have clash : ¬ ∀ known ∈ entries, known.pk ≠ entry.pk :=
                fun fresh => fresh known member (same.trans mine)
              simp [clash]
            · rw [if_neg mine]
          · rw [if_neg listed, ih]
            have unlisted : ∀ known ∈ entries, known.pk ≠ found.pk := by
              intro known member same
              exact listed (List.any_eq_true.mpr ⟨known, member, decide_eq_true same⟩)
            by_cases mine : found.pk = entry.pk
            · rw [if_pos mine, Option.some_inj]
              constructor
              · rintro (inside | ⟨fresh, -⟩)
                · rcases List.mem_append.mp inside with before | here
                  · exact .inl before
                  · exact .inr ⟨mine ▸ unlisted, (List.mem_singleton.mp here).symm⟩
                · exact absurd mine (fresh found (by simp))
              · rintro (before | ⟨-, rfl⟩)
                · exact .inl (List.mem_append_left _ before)
                · exact .inl (by simp)
            · have other : entry ≠ found := fun same => mine (same ▸ rfl)
              rw [if_neg mine]
              simp [other, or_imp, forall_and, mine]

theorem length_gatherWith_le (read : SigningMessage → Option QuorumEntry)
    (entries : List QuorumEntry) (window : List SigningMessage)
    : (gatherWith read entries window).length ≤ entries.length + window.length := by
  induction window generalizing entries with
  | nil => simp [gatherWith]
  | cons message rest ih =>
      rw [gatherWith]
      cases read message with
      | none =>
          have tail := ih entries
          simp only [List.length_cons]
          omega
      | some found =>
          dsimp only
          split
          · have tail := ih entries
            simp only [List.length_cons]
            omega
          · have tail := ih (entries ++ [found])
            simp only [List.length_cons, List.length_append, List.length_nil] at tail ⊢
            omega

theorem gatherEntries_eq (entries : List QuorumEntry) (window : List SigningMessage)
    : gatherEntries entries window = gatherWith parseSigningResponse entries window := by
  induction window generalizing entries with
  | nil => rfl
  | cons message rest ih =>
      rw [gatherEntries, gatherWith]
      cases parseSigningResponse message with
      | none => exact ih entries
      | some found =>
          dsimp only
          rw [ih, ih]

/-- What the membership collector reads has the sizes of a key and of a signature. -/
theorem sized_of_parseSigningResponse {message : SigningMessage} {entry : QuorumEntry}
    (isRead : parseSigningResponse message = some entry)
    : entry.pk.length = 33 ∧ entry.Framed := by
  cases message with
  | other => cases isRead
  | response signerXrplAddress derSignature compressedPubkey error =>
      cases error with
      | some reason => cases isRead
      | none =>
          simp only [parseSigningResponse, Option.isSome_none, Bool.false_eq_true, if_false,
            Option.bind_eq_bind, Option.bind_eq_some_iff] at isRead
          obtain ⟨derHex, -, sig, -, pkHex, -, pk, -, kept⟩ := isRead
          by_cases wrong : pk.length ≠ 33 ∨ sig.length < 8 ∨ 72 < sig.length
          · rw [if_pos wrong] at kept
            cases kept
          · rw [if_neg wrong] at kept
            obtain rfl := Option.some_inj.mp kept
            simp only [QuorumEntry.Framed]
            omega

/-- Whatever a collector reads has a key of 33 bytes. -/
theorem Collector.read_keySized {collector : Collector} {message : SigningMessage}
    {entry : QuorumEntry} (isRead : collector.read message = some entry)
    : entry.pk.length = 33 := by
  have cosigned : readCosignature message = some entry → entry.pk.length = 33 := by
    intro isRead
    unfold readCosignature at isRead
    split at isRead
    · dsimp only at isRead
      split at isRead
      · rename_i sized
        obtain rfl := Option.some_inj.mp isRead
        exact sized.1
      · cases isRead
    · cases isRead
  cases collector with
  | membership => exact (sized_of_parseSigningResponse isRead).1
  | governance => exact cosigned isRead
  | spvBaseline => exact cosigned isRead
  | unlPolicy => exact cosigned isRead

/-- A collector that gathers anything writes a bundle of what it gathers. -/
theorem Collector.bundle_eq (collector : Collector) {window : List SigningMessage}
    (gathers : gatherWith collector.read [] window ≠ [])
    : collector.bundle window
      = .ok (buildQuorumBundle (gatherWith collector.read [] window)) := by
  have nonempty : ¬ (gatherWith collector.read [] window).isEmpty = true :=
    fun empty => gathers (List.isEmpty_iff.mp empty)
  cases collector with
  | membership =>
      simp only [Collector.read] at nonempty ⊢
      rw [Collector.bundle, collect, gatherEntries_eq, if_neg nonempty]
  | governance =>
      simp only [Collector.read] at nonempty ⊢
      rw [Collector.bundle, collectGovernance, if_neg nonempty]
      rfl
  | spvBaseline =>
      simp only [Collector.read] at nonempty ⊢
      rw [Collector.bundle, collectSpvBaseline, if_neg nonempty]
      rfl
  | unlPolicy =>
      simp only [Collector.read] at nonempty ⊢
      rw [Collector.bundle, collectUnlPolicy, if_neg nonempty]
      rfl

-----------------------------------------------------------------------------------------
-- Honest answers among others
-----------------------------------------------------------------------------------------

section Honest

variable (collector : Collector) (valid : List UInt8 → List UInt8 → Prop)
  (operators : List (List UInt8)) (window : List SigningMessage)

/-- Each operator's own answer, with a valid signature, is in the window. -/
def AllAnswer : Prop :=
  ∀ pk ∈ operators, ∃ message ∈ window, ∃ sig,
    collector.read message = some { pk, sig } ∧ valid pk sig

/-- The collector returns a bundle with a valid signature of each operator. -/
def AllEndorse : Prop :=
  ∃ bundle, collector.bundle window = .ok bundle ∧ ∀ pk ∈ operators, Endorses valid bundle pk

/-- Nothing stands in the way of the honest answers: the first answer under any key can be
framed, and the first one under an operator's key has a valid signature.
-/
structure Undisplaced : Prop where
  framed : ∀ pk entry, firstUnder collector.read window pk = some entry → entry.Framed
  honestFirst
    : ∀ pk ∈ operators, ∀ entry, firstUnder collector.read window pk = some entry
      → valid pk entry.sig

end Honest

theorem mem_gathered {collector : Collector} {window : List SigningMessage} {entry : QuorumEntry}
    : entry ∈ gatherWith collector.read [] window
      ↔ firstUnder collector.read window entry.pk = some entry := by
  rw [mem_gatherWith]
  simp

/-- The first entry under a key has that key and was read. -/
theorem of_firstUnder {read : SigningMessage → Option QuorumEntry}
    {window : List SigningMessage} {pk : List UInt8} {entry : QuorumEntry}
    (first : firstUnder read window pk = some entry)
    : entry.pk = pk ∧ ∃ message ∈ window, read message = some entry := by
  obtain ⟨message, member, kept⟩ := List.exists_of_findSome?_eq_some first
  obtain ⟨isRead, same⟩ := Option.filter_eq_some_iff.mp kept
  exact ⟨of_decide_eq_true same, message, member, isRead⟩

/-- An operator that answers has a first entry under its key. -/
theorem exists_firstUnder {collector : Collector} {valid : List UInt8 → List UInt8 → Prop}
    {operators : List (List UInt8)} {window : List SigningMessage}
    (answer : AllAnswer collector valid operators window) {pk : List UInt8}
    (member : pk ∈ operators)
    : ∃ entry, firstUnder collector.read window pk = some entry := by
  obtain ⟨message, inWindow, sig, isRead, -⟩ := answer pk member
  rw [← Option.isSome_iff_exists, firstUnder, List.findSome?_isSome_iff]
  exact ⟨message, inWindow, by simp [isRead]⟩

section Displacement

variable {collector : Collector} {valid : List UInt8 → List UInt8 → Prop}
  {operators : List (List UInt8)} {window : List SigningMessage}

theorem length_gathered_lt (short : window.length < 2 ^ 32)
    : (gatherWith collector.read [] window).length < 2 ^ 32 := by
  have bound := length_gatherWith_le collector.read [] window
  rw [List.length_nil, Nat.zero_add] at bound
  exact bound.trans_lt short

theorem gathered_keySized {entry : QuorumEntry}
    (member : entry ∈ gatherWith collector.read [] window)
    : entry.pk.length = 33 := by
  obtain ⟨-, message, -, isRead⟩ := of_firstUnder (mem_gathered.mp member)
  exact collector.read_keySized isRead

/-- Where an operator answers, a bundle of what was gathered is returned. -/
theorem bundle_of_answer (nonempty : operators ≠ [])
    (answer : AllAnswer collector valid operators window)
    : collector.bundle window
      = .ok (buildQuorumBundle (gatherWith collector.read [] window)) := by
  obtain ⟨pk, member⟩ := List.exists_mem_of_ne_nil operators nonempty
  obtain ⟨entry, first⟩ := exists_firstUnder answer member
  have gathered : entry ∈ gatherWith collector.read [] window := by
    rw [mem_gathered, (of_firstUnder first).1]
    exact first
  exact collector.bundle_eq (List.ne_nil_of_mem gathered)

/-- Honest answers that nothing displaces are all endorsed.
Witness: what is gathered is the first entry under each key, and is read back.
-/
theorem Undisplaced.allEndorse (undisplaced : Undisplaced collector valid operators window)
    (nonempty : operators ≠ []) (short : window.length < 2 ^ 32)
    (answer : AllAnswer collector valid operators window)
    : AllEndorse collector valid operators window := by
  let gathered := gatherWith collector.read [] window
  have framed : ∀ entry ∈ gathered, entry.Framed :=
    fun entry member => undisplaced.framed entry.pk entry (mem_gathered.mp member)
  have representable : ∀ entry ∈ gathered, entry.sig.length < 256 :=
    fun entry member => (framed entry member).2.trans_lt (by decide)
  have readBack : whole readBundle (buildQuorumBundle gathered) = some gathered := by
    rw [whole_readBundle (length_gathered_lt short) (fun _ => gathered_keySized) representable,
      if_pos framed]
  refine ⟨_, bundle_of_answer nonempty answer, ?_⟩
  intro pk member
  obtain ⟨entry, first⟩ := exists_firstUnder answer member
  obtain ⟨same, -⟩ := of_firstUnder first
  exact ⟨gathered, readBack, entry, mem_gathered.mpr (same.symm ▸ first), same,
    undisplaced.honestFirst pk member entry first⟩

/-- Where all honest answers are endorsed nothing displaces them, as long as no signature is
longer than a length byte can say.
-/
theorem AllEndorse.undisplaced (endorse : AllEndorse collector valid operators window)
    (nonempty : operators ≠ []) (short : window.length < 2 ^ 32)
    (answer : AllAnswer collector valid operators window)
    (representable
      : ∀ pk entry, firstUnder collector.read window pk = some entry → entry.sig.length < 256)
    : Undisplaced collector valid operators window := by
  let gathered := gatherWith collector.read [] window
  obtain ⟨bundle, returned, endorsed⟩ := endorse
  obtain rfl := Except.ok.inj ((bundle_of_answer nonempty answer).symm.trans returned)
  have readBack := whole_readBundle (length_gathered_lt short) (fun _ => gathered_keySized)
    (fun entry member => representable entry.pk entry (mem_gathered.mp member))
  by_cases framed : ∀ entry ∈ gathered, entry.Framed
  · rw [if_pos framed] at readBack
    refine ⟨?_, ?_⟩
    · intro pk entry first
      obtain ⟨same, -⟩ := of_firstUnder first
      exact framed entry (mem_gathered.mpr (same.symm ▸ first))
    · intro pk member entry first
      obtain ⟨entries, isRead, kept, inside, same, isValid⟩ := endorsed pk member
      obtain rfl := Option.some_inj.mp (readBack.symm.trans isRead)
      have keptFirst := mem_gathered.mp inside
      rw [same, first] at keptFirst
      exact Option.some_inj.mp keptFirst ▸ isValid
  · rw [if_neg framed] at readBack
    obtain ⟨pk, member⟩ := List.exists_mem_of_ne_nil operators nonempty
    obtain ⟨entries, isRead, -⟩ := endorsed pk member
    rw [readBack] at isRead
    cases isRead

end Displacement

/-- Honest answers are all endorsed where nothing displaces them, and only there as long as
no signature is longer than a length byte can say.
-/
theorem honest_endorsed_iff_undisplaced (collector : Collector)
    (valid : List UInt8 → List UInt8 → Prop) (operators : List (List UInt8))
    (nonempty : operators ≠ []) (window : List SigningMessage) (short : window.length < 2 ^ 32)
    (answer : AllAnswer collector valid operators window)
    : (Undisplaced collector valid operators window
        → AllEndorse collector valid operators window)
      ∧ ((∀ pk entry, firstUnder collector.read window pk = some entry → entry.sig.length < 256)
        → AllEndorse collector valid operators window
        → Undisplaced collector valid operators window) :=
  ⟨fun undisplaced => undisplaced.allEndorse nonempty short answer,
    fun representable endorse => endorse.undisplaced nonempty short answer representable⟩

/-- An answer with a key and a signature. -/
def answerWith (pk sig : List UInt8) : SigningMessage :=
  .response "rOperator" (some (Hex.encode sig)) (some (Hex.encode pk)) none

theorem Collector.read_answerWith (collector : Collector) {pk sig : List UInt8}
    (keySized : pk.length = 33) (framed : 8 ≤ sig.length ∧ sig.length ≤ 72)
    : collector.read (answerWith pk sig) = some { pk, sig } := by
  have cosigned : readCosignature (answerWith pk sig) = some { pk, sig } := by
    have present : sig ≠ [] := List.ne_nil_of_length_pos (by omega)
    simp [readCosignature, answerWith, Hex.decode_encode, keySized, present]
  cases collector with
  | membership => exact parseSigningResponse_encode "rOperator" keySized framed
  | governance => exact cosigned
  | spvBaseline => exact cosigned
  | unlPolicy => exact cosigned

def operatorKey : List UInt8 := List.replicate 33 2

def operatorSig : List UInt8 := List.replicate 8 48

def forgedSig : List UInt8 := List.replicate 8 0

def secondKey : List UInt8 := List.replicate 33 3

def secondSig : List UInt8 := List.replicate 72 49

/-- Each of two operators signs in its own way. -/
def signedBy (pk sig : List UInt8) : Prop :=
  (pk = operatorKey ∧ sig = operatorSig) ∨ (pk = secondKey ∧ sig = secondSig)

/-- Both operators' answers, a message nobody signed before them, an operator's refusal
between them and a forged answer under the first one's key after them.
-/
def forgedLast : List SigningMessage :=
  [.other, answerWith operatorKey operatorSig, .response "rOperator" none none (some "busy"),
    answerWith secondKey secondSig, answerWith operatorKey forgedSig]

/-- The first answer under a key is an operator's own.
Witness: the forged one stands under a key that has been met.
-/
theorem firstUnder_forgedLast {pk : List UInt8} {entry : QuorumEntry}
    (first : firstUnder readCosignature forgedLast pk = some entry)
    : entry = { pk := operatorKey, sig := operatorSig }
      ∨ entry = { pk := secondKey, sig := secondSig } := by
  have reads : ∀ {pk sig}, pk.length = 33 → 8 ≤ sig.length ∧ sig.length ≤ 72 →
      readCosignature (answerWith pk sig) = some { pk, sig } :=
    Collector.read_answerWith .governance
  rw [forgedLast, firstUnder_cons_none (by rfl),
    firstUnder_cons_some (reads (by decide) (by decide)), firstUnder_cons_none (by rfl),
    firstUnder_cons_some (reads (by decide) (by decide)),
    firstUnder_cons_some (reads (by decide) (by decide))] at first
  split_ifs at first
  · exact .inl (Option.some_inj.mp first).symm
  · exact .inr (Option.some_inj.mp first).symm
  · cases first

theorem undisplaced_forgedLast
    : AllAnswer .governance signedBy [operatorKey, secondKey] forgedLast
      ∧ Undisplaced .governance signedBy [operatorKey, secondKey] forgedLast := by
  refine ⟨?_, ?_, ?_⟩
  · intro pk member
    rcases List.mem_cons.mp member with rfl | member
    · exact ⟨answerWith operatorKey operatorSig, by simp [forgedLast], operatorSig,
        Collector.read_answerWith .governance (by decide) (by decide), .inl ⟨rfl, rfl⟩⟩
    · rw [List.mem_singleton.mp member]
      exact ⟨answerWith secondKey secondSig, by simp [forgedLast], secondSig,
        Collector.read_answerWith .governance (by decide) (by decide), .inr ⟨rfl, rfl⟩⟩
  · intro pk entry first
    rcases firstUnder_forgedLast first with rfl | rfl
    · decide
    · decide
  · intro pk _ entry first
    have same := (of_firstUnder first).1
    rcases firstUnder_forgedLast first with rfl | rfl
    · exact .inl ⟨same.symm, rfl⟩
    · exact .inr ⟨same.symm, rfl⟩

/-- A forged answer that comes last, a refusal and another message change nothing for two
operators.
-/
theorem honest_endorsed_forged_last
    : AllEndorse .governance signedBy [operatorKey, secondKey] forgedLast :=
  (honest_endorsed_iff_undisplaced .governance signedBy [operatorKey, secondKey] (by simp)
    forgedLast (by decide) undisplaced_forgedLast.1).1 undisplaced_forgedLast.2

/-- Only the operator's own signature is valid. -/
def sampleValid (_pk sig : List UInt8) : Prop := sig = operatorSig

/-- A forged answer under the operator's key that comes first. -/
def forgedFirst : List SigningMessage :=
  [answerWith operatorKey forgedSig, answerWith operatorKey operatorSig]

theorem not_allEndorse_forgedFirst (collector : Collector)
    : AllAnswer collector sampleValid [operatorKey] forgedFirst
      ∧ ¬ AllEndorse collector sampleValid [operatorKey] forgedFirst := by
  have forged : collector.read (answerWith operatorKey forgedSig)
      = some { pk := operatorKey, sig := forgedSig } :=
    collector.read_answerWith (by decide) (by decide)
  have genuine : collector.read (answerWith operatorKey operatorSig)
      = some { pk := operatorKey, sig := operatorSig } :=
    collector.read_answerWith (by decide) (by decide)
  have answer : AllAnswer collector sampleValid [operatorKey] forgedFirst := by
    intro pk member
    rw [List.mem_singleton.mp member]
    exact ⟨_, List.mem_cons_of_mem _ List.mem_cons_self, operatorSig, genuine, rfl⟩
  have representable : ∀ pk entry,
      firstUnder collector.read forgedFirst pk = some entry → entry.sig.length < 256 := by
    intro pk entry first
    obtain ⟨-, message, member, found⟩ := of_firstUnder first
    rcases List.mem_cons.mp member with rfl | member
    · rw [forged] at found
      rw [← Option.some_inj.mp found]
      decide
    · rw [List.mem_singleton.mp member, genuine] at found
      rw [← Option.some_inj.mp found]
      decide
  refine ⟨answer, fun endorse => ?_⟩
  have undisplaced := endorse.undisplaced (by simp) (by decide) answer representable
  have first : firstUnder collector.read forgedFirst operatorKey
      = some { pk := operatorKey, sig := forgedSig } :=
    (firstUnder_cons_some forged _ operatorKey).trans (if_pos rfl)
  have isValid : forgedSig = operatorSig :=
    undisplaced.honestFirst operatorKey List.mem_cons_self _ first
  exact absurd isValid (by decide)

/-- Every collector lets the forged answer displace the genuine one. -/
theorem forged_answer_displaces
    : (AllAnswer .membership sampleValid [operatorKey] forgedFirst
        ∧ ¬ AllEndorse .membership sampleValid [operatorKey] forgedFirst)
      ∧ (AllAnswer .governance sampleValid [operatorKey] forgedFirst
        ∧ ¬ AllEndorse .governance sampleValid [operatorKey] forgedFirst)
      ∧ (AllAnswer .spvBaseline sampleValid [operatorKey] forgedFirst
        ∧ ¬ AllEndorse .spvBaseline sampleValid [operatorKey] forgedFirst)
      ∧ (AllAnswer .unlPolicy sampleValid [operatorKey] forgedFirst
        ∧ ¬ AllEndorse .unlPolicy sampleValid [operatorKey] forgedFirst) :=
  ⟨not_allEndorse_forgedFirst .membership, not_allEndorse_forgedFirst .governance,
    not_allEndorse_forgedFirst .spvBaseline, not_allEndorse_forgedFirst .unlPolicy⟩

end Membership

end PerpDex
