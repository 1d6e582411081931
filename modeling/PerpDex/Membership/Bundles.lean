import PerpDex.Membership.Collectors

/-! When a collected bundle is one that the documented format can be read from. The encoder
checks nothing, so this rests on what each collector takes for an answer.
-/

namespace PerpDex

namespace Membership

open Wire

-----------------------------------------------------------------------------------------
-- First arrivals
-----------------------------------------------------------------------------------------

/-- The first answer under each key, in the order of arrival. -/
def firstArrivals (read : SigningMessage → Option QuorumEntry)
    : List SigningMessage → List QuorumEntry
  | [] => []
  | message :: rest =>
      match read message with
      | some entry =>
          entry :: (firstArrivals read rest).filter (fun later => later.pk ≠ entry.pk)
      | none => firstArrivals read rest

/-- Gathering goes on with the first arrivals under keys that are not listed yet. -/
theorem gatherWith_eq (read : SigningMessage → Option QuorumEntry) (entries : List QuorumEntry)
    (window : List SigningMessage)
    : gatherWith read entries window
      = entries
        ++ (firstArrivals read window).filter
          (fun entry => ¬ entries.any (fun known => known.pk = entry.pk)) := by
  induction window generalizing entries with
  | nil => simp [gatherWith, firstArrivals]
  | cons message rest ih =>
      rw [gatherWith, firstArrivals]
      cases read message with
      | none => exact ih entries
      | some found =>
          dsimp only
          by_cases listed : entries.any (fun known => known.pk = found.pk) = true
          · rw [if_pos listed, ih, List.filter_cons_of_neg (by simpa using listed),
              List.filter_filter]
            congr 1
            refine List.filter_congr ?_
            intro entry _
            by_cases same : entry.pk = found.pk
            · simp [same, listed]
            · simp [same]
          · rw [if_neg listed, ih, List.filter_cons_of_pos (by simpa using listed),
              List.filter_filter, List.append_assoc, List.singleton_append]
            congr 2
            refine List.filter_congr ?_
            intro entry _
            rw [List.any_append]
            by_cases same : entry.pk = found.pk
            · simp [same]
            · simp [same, Ne.symm same]

theorem gatherWith_nil (read : SigningMessage → Option QuorumEntry)
    (window : List SigningMessage)
    : gatherWith read [] window = firstArrivals read window := by
  rw [gatherWith_eq]
  simp

theorem firstArrivals_distinct (read : SigningMessage → Option QuorumEntry)
    (window : List SigningMessage)
    : ((firstArrivals read window).map QuorumEntry.pk).Nodup := by
  induction window with
  | nil => simp [firstArrivals]
  | cons message rest ih =>
      rw [firstArrivals]
      cases read message with
      | none => exact ih
      | some entry =>
          rw [List.map_cons, List.nodup_cons]
          refine ⟨?_, ih.sublist (List.filter_sublist.map _)⟩
          intro inside
          obtain ⟨later, member, same⟩ := List.mem_map.mp inside
          exact of_decide_eq_true (List.mem_filter.mp member).2 same

/-- A first arrival is what was read of some message. -/
theorem exists_of_mem_firstArrivals {read : SigningMessage → Option QuorumEntry}
    {window : List SigningMessage} {entry : QuorumEntry}
    (member : entry ∈ firstArrivals read window)
    : ∃ message ∈ window, read message = some entry := by
  rw [← gatherWith_nil, mem_gatherWith] at member
  rcases member with nowhere | ⟨-, first⟩
  · cases nowhere
  · exact (of_firstUnder first).2

-----------------------------------------------------------------------------------------
-- What a reading says of the entries
-----------------------------------------------------------------------------------------

/-- Each of a number of items that are read is one that the reader yields. -/
theorem forall_of_many {α : Type} {reader : Reader α} {P : α → Prop}
    (each : ∀ bytes value rest, reader bytes = some (value, rest) → P value) {count : Nat}
    {bytes rest : List UInt8} {items : List α}
    (isRead : many reader count bytes = some (items, rest))
    : ∀ item ∈ items, P item := by
  induction count generalizing bytes rest items with
  | zero =>
      cases isRead
      exact fun _ member => absurd member List.not_mem_nil
  | succ count ih =>
      obtain ⟨first, middle, firstRead, others⟩ := bind_eq_some_iff.mp isRead
      obtain ⟨tail, final, manyRead, last⟩ := bind_eq_some_iff.mp others
      cases last
      exact List.forall_mem_cons.mpr ⟨each _ _ _ firstRead, ih manyRead⟩

theorem framed_of_readEntry (bytes : List UInt8) (entry : QuorumEntry) (rest : List UInt8)
    (isRead : readEntry bytes = some (entry, rest))
    : entry.Framed := by
  obtain ⟨pk, afterKey, -, isRead⟩ := bind_eq_some_iff.mp isRead
  obtain ⟨sigLen, afterLen, -, isRead⟩ := bind_eq_some_iff.mp isRead
  obtain ⟨_, same, required, isRead⟩ := bind_eq_some_iff.mp isRead
  obtain ⟨sig, afterSig, taken, last⟩ := bind_eq_some_iff.mp isRead
  cases last
  have bounds : 8 ≤ sigLen.toNat ∧ sigLen.toNat ≤ 72 := by
    by_contra outside
    rw [require, if_neg outside] at required
    cases required
  have length : sig.length = sigLen.toNat := by
    rw [take] at taken
    split at taken
    · rename_i enough
      cases taken
      exact List.length_take_of_le enough
    · cases taken
  rw [QuorumEntry.Framed, length]
  exact bounds

/-- A bundle that reads back as its own entries has framed ones, and not too many. -/
theorem framed_of_whole_readBundle {entries : List QuorumEntry}
    (isRead : whole readBundle (buildQuorumBundle entries) = some entries)
    : (∀ entry ∈ entries, entry.Framed) ∧ entries.length < 2 ^ 32 := by
  rw [whole_eq_some_iff, buildQuorumBundle, List.append_assoc, readBundle,
    reads_version.bind_append] at isRead
  obtain ⟨_, afterVersion, required, isRead⟩ := bind_eq_some_iff.mp isRead
  rw [require, if_pos rfl] at required
  cases required
  rw [(reads_uintLe (length_leBytes 4 _)).bind_append, leValue_leBytes] at isRead
  refine ⟨forall_of_many framed_of_readEntry isRead, ?_⟩
  rw [length_of_many isRead]
  exact Nat.mod_lt _ (by decide)

/-- The bundle that a collector returns, if any, is read in the documented format as the first
arrivals, under distinct keys and with signatures of 8 to 72 bytes.
-/
def WellFormedBundle (collector : Collector) (window : List SigningMessage) : Prop :=
  ∀ bundle, collector.bundle window = .ok bundle
    → ∃ entries, whole readBundle bundle = some entries
      ∧ entries = firstArrivals collector.read window
      ∧ (entries.map QuorumEntry.pk).Nodup
      ∧ ∀ entry ∈ entries, 8 ≤ entry.sig.length ∧ entry.sig.length ≤ 72

theorem bundle_eq_ok_iff (collector : Collector) {window : List SigningMessage}
    {bundle : List UInt8}
    : collector.bundle window = .ok bundle
      ↔ firstArrivals collector.read window ≠ []
        ∧ bundle = buildQuorumBundle (firstArrivals collector.read window) := by
  rw [← gatherWith_nil]
  constructor
  · intro returned
    have gathers : gatherWith collector.read [] window ≠ [] := by
      intro nothing
      cases collector <;> simp only [Collector.read] at nothing <;>
        simp [Collector.bundle, collect, collectGovernance, collectSpvBaseline,
          collectUnlPolicy, gatherEntries_eq, nothing, Except.map] at returned
    rw [collector.bundle_eq gathers] at returned
    exact ⟨gathers, (Except.ok.inj returned).symm⟩
  · rintro ⟨gathers, rfl⟩
    exact collector.bundle_eq gathers

/-- A collector's bundles are well formed exactly where every first arrival has a signature of
8 to 72 bytes and their number fits the count field.
-/
theorem wellFormedBundle_iff (collector : Collector) (window : List SigningMessage)
    : WellFormedBundle collector window
      ↔ (∀ entry ∈ firstArrivals collector.read window,
          8 ≤ entry.sig.length ∧ entry.sig.length ≤ 72)
        ∧ (firstArrivals collector.read window).length < 2 ^ 32 := by
  constructor
  · intro wellFormed
    by_cases nothing : firstArrivals collector.read window = []
    · simp [nothing]
    · obtain ⟨entries, isRead, rfl, -, -⟩ :=
        wellFormed _ ((bundle_eq_ok_iff collector).mpr ⟨nothing, rfl⟩)
      exact framed_of_whole_readBundle isRead
  · rintro ⟨framed, few⟩ bundle returned
    obtain ⟨-, rfl⟩ := (bundle_eq_ok_iff collector).mp returned
    have keysSized : ∀ entry ∈ firstArrivals collector.read window, entry.pk.length = 33 := by
      intro entry member
      obtain ⟨message, -, isRead⟩ := exists_of_mem_firstArrivals member
      exact collector.read_keySized isRead
    have representable
        : ∀ entry ∈ firstArrivals collector.read window, entry.sig.length < 256 :=
      fun entry member => (framed entry member).2.trans_lt (by decide)
    refine ⟨_, ?_, rfl, firstArrivals_distinct _ _, framed⟩
    rw [whole_readBundle few keysSized representable]
    exact if_pos framed

/-- An operator's answer whose signature is a single byte. -/
def oneByteAnswer : SigningMessage := answerWith operatorKey [48]

/-- The governance collector bundles a signature that the format cannot state. -/
theorem not_wellFormedBundle_oneByteAnswer
    : ¬ WellFormedBundle .governance [oneByteAnswer] := by
  intro wellFormed
  obtain ⟨entries, -, rfl, -, framed⟩ := wellFormed (buildQuorumBundle [⟨operatorKey, [48]⟩])
    (by decide +kernel)
  exact absurd (framed ⟨operatorKey, [48]⟩ (by decide +kernel)) (by decide)

end Membership

end PerpDex
