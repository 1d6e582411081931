import PerpDex.Lib.Fifo
import PerpDex.Spv.Transport

/-! The rolling buffer of validations that all collectors write into.
What was provable from some sources alone stays provable next to others exactly if, since the
ledger was last admitted, no admission has pushed it out and every blob filed under it can be
framed and counted.
-/

namespace PerpDex.DepositSpv

open Wire SpvProof

def validationBufferLedgers : Nat := 256

/-- Validations by the hash of the ledger they attest, and the hashes as they were admitted. -/
abbrev ValidationBuffer := Fifo.Store String (List UInt8)

namespace ValidationBuffer

def new : ValidationBuffer := .empty

def insert (buffer : ValidationBuffer) (ledgerHash : String) (data : List UInt8)
    : ValidationBuffer :=
  Fifo.Store.insert validationBufferLedgers buffer ledgerHash data

def get (buffer : ValidationBuffer) (ledgerHash : String) : Option (List (List UInt8)) :=
  buffer.byKey ledgerHash

end ValidationBuffer

/-- One call of `insert`, and whether it is made for one of the other sources. -/
structure Arrival where
  ledgerHash : String
  data : List UInt8
  foreign : Bool

/-- The arguments of the call. -/
def Arrival.call (arrival : Arrival) : String × List UInt8 :=
  (arrival.ledgerHash, arrival.data)

/-- The buffer after some calls. -/
def collected (calls : List (String × List UInt8)) : ValidationBuffer :=
  calls.foldl (fun buffer call => buffer.insert call.1 call.2) .new

/-- The hashes that calls admit, as they come. -/
def admissions (calls : List (String × List UInt8)) : List String :=
  Fifo.admitted validationBufferLedgers .empty calls

/-- One of the calls admits the ledger, which is held from then on, and the blobs are those
of that call and of all later ones for the ledger.
-/
def SinceAdmission (ledgerHash : String) (calls : List (String × List UInt8))
    (blobs : List (List UInt8)) : Prop :=
  ∃ earlier first later, calls = earlier ++ (ledgerHash, first) :: later
    ∧ (collected earlier).get ledgerHash = none
    ∧ (∀ front back, later = front ++ back →
      ((collected (earlier ++ (ledgerHash, first) :: front)).get ledgerHash).isSome)
    ∧ blobs = first :: Fifo.filed ledgerHash later

/-- What some calls leave in a buffer: an order that lists every held ledger once, at most
the configured number of ledgers, under each of them what came since it was admitted, and
nothing evicted but the oldest admissions, once there was no room.
-/
structure Retains (calls : List (String × List UInt8)) (buffer : ValidationBuffer) : Prop where
  nodup : buffer.order.Nodup
  keys : ∀ ledgerHash, ledgerHash ∈ buffer.order ↔ (buffer.get ledgerHash).isSome
  bounded : buffer.order.length ≤ validationBufferLedgers
  since : ∀ ledgerHash blobs, buffer.get ledgerHash = some blobs →
    SinceAdmission ledgerHash calls blobs
  oldest : ∃ evicted, admissions calls = evicted ++ buffer.order
    ∧ (evicted ≠ [] → buffer.order.length = validationBufferLedgers)

/-- Calls of several sources in any order, where those that are not foreign would alone have
made a ledger provable.
-/
structure Merge (ledgerHash : String) where
  arrivals : List Arrival
  originals : List (List UInt8)
  held : (collected ((arrivals.filter (fun arrival => !arrival.foreign)).map Arrival.call)).get
    ledgerHash = some originals
  provable : ∃ framed, buildValidationsSection originals = .ok framed

/-- All calls, as they come. -/
def Merge.calls {ledgerHash : String} (merge : Merge ledgerHash) : List (String × List UInt8) :=
  merge.arrivals.map Arrival.call

/-- The buffer yields a section for the ledger, which is read to its end as the entries of
the validations held, the original ones among them.
-/
def StillProvable (ledgerHash : String) (originals : List (List UInt8))
    (buffer : ValidationBuffer) : Prop :=
  ∃ held framed entries, buffer.get ledgerHash = some held
    ∧ buildValidationsSection held = .ok framed
    ∧ whole (many readEntry framed.1.toNat) framed.2 = some entries
    ∧ held.map validationEntry = entries.map .ok
    ∧ originals.Sublist held

/-- A call admits a hash that pushes out another: the buffer is full and that one is the
oldest.
-/
def Evicts (ledgerHash : String) (buffer : ValidationBuffer) (call : String × List UInt8)
    : Prop :=
  Fifo.Drops validationBufferLedgers ledgerHash buffer call

/-- Calls that do a ledger no harm. From its last admission on, before which none of the
original validations came, no call pushes it out, what is filed under it can be framed, and
there are fewer than 2^16 of it.
-/
structure Unharmed (ledgerHash : String) (originals : List (List UInt8))
    (earlier later : List (String × List UInt8)) : Prop where
  absent : (collected earlier).get ledgerHash = none
  since : originals.Sublist (Fifo.filed ledgerHash later)
  kept : Along (Fifo.step validationBufferLedgers)
    (fun buffer call => ¬ Evicts ledgerHash buffer call) (collected earlier) later
  framed : ∀ data ∈ Fifo.filed ledgerHash later, ∃ entry, FramesAs data entry
  few : (Fifo.filed ledgerHash later).length < 65536

-----------------------------------------------------------------------------------------
-- One stream
-----------------------------------------------------------------------------------------

theorem collected_eq (calls : List (String × List UInt8))
    : collected calls = Fifo.gathered validationBufferLedgers calls :=
  rfl

/-- After every sequence of calls the buffer retains what came since each admission.
Witness: the coherence of the store over the run, and one admission for each held ledger.
-/
theorem collected_retains (calls : List (String × List UInt8))
    : Retains calls (collected calls) := by
  have positive : 0 < validationBufferLedgers := by decide
  have coherent := Fifo.coherent_gathered positive calls
  refine {
    nodup := coherent.nodup
    keys := fun ledgerHash => (coherent.held_iff ledgerHash).symm
    bounded := coherent.bounded
    since := fun ledgerHash blobs held => Fifo.exists_admitting positive held
    oldest := ?_
  }
  obtain ⟨evicted, split, full⟩ := Fifo.coherent_empty.order_run positive calls
  exact ⟨evicted, split, full⟩

-----------------------------------------------------------------------------------------
-- Sections
-----------------------------------------------------------------------------------------

theorem exists_framed {datas : List (List UInt8)}
    (each : ∀ data ∈ datas, ∃ entry, FramesAs data entry)
    : ∃ entries, List.Forall₂ FramesAs datas entries := by
  induction datas with
  | nil => exact ⟨[], .nil⟩
  | cons data others ih =>
      obtain ⟨entry, frames⟩ := each data List.mem_cons_self
      obtain ⟨entries, framed⟩ := ih (fun other member => each other (.tail data member))
      exact ⟨entry :: entries, .cons frames framed⟩

theorem frames_of_mem {datas : List (List UInt8)} {entries : List ValidationEntry}
    (framed : List.Forall₂ FramesAs datas entries) {data : List UInt8} (member : data ∈ datas)
    : ∃ entry, FramesAs data entry := by
  induction framed with
  | nil => cases member
  | @cons _ first _ _ frames _ ih =>
      rcases List.mem_cons.mp member with rfl | later
      · exact ⟨first, frames⟩
      · exact ih later

/-- The validations a ledger holds yield a section that is read to its end exactly if each
can be framed and there are fewer than 2^16.
-/
theorem section_readable_iff (held : List (List UInt8))
    : (∃ framed entries, buildValidationsSection held = .ok framed
        ∧ whole (many readEntry framed.1.toNat) framed.2 = some entries
        ∧ held.map validationEntry = entries.map .ok)
      ↔ (∀ data ∈ held, ∃ entry, FramesAs data entry) ∧ held.length < 65536 := by
  constructor
  · intro readable
    rcases readable with ⟨result, found, built, read, same⟩
    obtain ⟨entries, framed, rfl⟩ := buildValidationsSection_eq_ok_iff.mp built
    refine ⟨fun data member => frames_of_mem framed member, ?_⟩
    have counted := length_of_many (whole_eq_some_iff.mp read)
    have lengths := congrArg List.length same
    rw [List.length_map, List.length_map, counted, UInt16.toNat_ofNat'] at lengths
    rw [lengths]
    exact Nat.mod_lt _ (by decide)
  · intro given
    obtain ⟨entries, framed⟩ := exists_framed given.1
    have counted : (UInt16.ofNat entries.length).toNat = entries.length := by
      rw [UInt16.toNat_ofNat', ← framed.length_eq]
      exact Nat.mod_eq_of_lt given.2
    refine ⟨_, entries, buildValidationsSection_eq_ok_iff.mpr ⟨entries, framed, rfl⟩, ?_,
      map_validationEntry_of_framed framed⟩
    rw [counted]
    exact (reads_entries framed).whole

-----------------------------------------------------------------------------------------
-- Merged streams
-----------------------------------------------------------------------------------------

/-- What was held under a hash since it was admitted. -/
theorem get_since {ledgerHash : String} {earlier later : List (String × List UInt8)}
    (absent : (collected earlier).get ledgerHash = none)
    (kept : Along (Fifo.step validationBufferLedgers)
      (fun buffer call => ¬ Evicts ledgerHash buffer call) (collected earlier) later)
    : (collected (earlier ++ later)).get ledgerHash
      = Fifo.extend none (Fifo.filed ledgerHash later) := by
  have coherent : Fifo.Coherent validationBufferLedgers (collected earlier) :=
    Fifo.coherent_gathered (by decide) earlier
  have run := coherent.byKey_run (by decide) kept
  rw [ValidationBuffer.get, collected_eq, Fifo.gathered_append, ← absent]
  exact run

/-- A hash that is held has validations. -/
theorem get_ne_nil {ledgerHash : String} {calls : List (String × List UInt8)}
    {held : List (List UInt8)} (found : (collected calls).get ledgerHash = some held)
    : held ≠ [] := by
  rintro rfl
  obtain ⟨earlier, later, rfl, absent, kept, since⟩ := Fifo.exists_admission (by decide) found
  rw [get_since absent kept, since] at found
  cases found

/-- Next to any further calls, what the original calls made provable stays provable exactly
if the calls as they come do the ledger no harm.
-/
theorem merged_provable_iff {ledgerHash : String} (merge : Merge ledgerHash)
    : StillProvable ledgerHash merge.originals (collected merge.calls)
      ↔ ∃ earlier later, merge.calls = earlier ++ later
        ∧ Unharmed ledgerHash merge.originals earlier later := by
  constructor
  · intro provable
    rcases provable with ⟨held, framed, entries, found, built, read, same, contained⟩
    obtain ⟨each, few⟩ := (section_readable_iff held).mp ⟨framed, entries, built, read, same⟩
    obtain ⟨earlier, later, split, absent, kept, since⟩ :=
      Fifo.exists_admission (by decide) found
    subst since
    exact ⟨earlier, later, split, absent, contained, kept, each, few⟩
  · intro unharmed
    rcases unharmed with ⟨earlier, later, split, absent, since, kept, each, few⟩
    obtain ⟨framed, entries, built, read, same⟩ := (section_readable_iff _).mpr ⟨each, few⟩
    have filedSome : Fifo.filed ledgerHash later ≠ [] := by
      intro nothing
      rw [nothing] at since
      exact get_ne_nil merge.held (List.sublist_nil.mp since)
    refine ⟨_, framed, entries, ?_, built, read, same, since⟩
    rw [split, get_since absent kept, Fifo.extend, if_neg filedSome]
    rfl

/-- A validation of ledger "H", and a blob of one byte that another source files there. -/
def poisoned : Merge "H" where
  arrivals := [
    { ledgerHash := "H", data := sampleValidation, foreign := false },
    { ledgerHash := "H", data := [0], foreign := true }
  ]
  originals := [sampleValidation]
  held := by decide +kernel
  provable := ⟨_, buildValidationsSection_eq_ok_iff.mpr ⟨_, .cons framesAs_sample .nil, rfl⟩⟩

/-- One blob that cannot be framed makes the whole ledger unprovable. -/
theorem poisoned_not_provable
    : ¬ StillProvable "H" poisoned.originals (collected poisoned.calls) := by
  intro provable
  rcases provable with ⟨held, framed, entries, found, built, read, same, _⟩
  have both : (collected poisoned.calls).get "H" = some [sampleValidation, [0]] := by
    decide +kernel
  cases both.symm.trans found
  have each := ((section_readable_iff _).mp ⟨framed, entries, built, read, same⟩).1
  obtain ⟨entry, frames⟩ := each [0] (by simp)
  cases frames.extracted

end PerpDex.DepositSpv
