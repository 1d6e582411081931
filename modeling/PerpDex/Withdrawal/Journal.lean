import PerpDex.Lib.Json

/-! The journal of reserved withdrawals.
An entry is identified by its slot, the escrow and the account sequence it was reserved
for; recording replaces the entry of a slot and resolving removes it.
-/

namespace PerpDex

/-- The unit the enclave reserves: one sequence number of one escrow. -/
structure Slot where
  escrow : String
  sequence : UInt32
deriving DecidableEq

/-- One reserved withdrawal that is not reconciled yet. -/
structure PendingWithdrawal where
  escrow : String
  sequence : UInt32
  lastLedgerSequence : UInt32
  amountDrops : UInt64
  destination : String
  destinationTag : Option UInt32
  submittedHash : Option String
  userId : String
  reservedAtMs : UInt64
deriving DecidableEq

def PendingWithdrawal.slot (entry : PendingWithdrawal) : Slot := ⟨entry.escrow, entry.sequence⟩

/-- The set of withdrawals in flight. -/
structure Journal where
  entries : List PendingWithdrawal

namespace Journal

/-- Insert an entry, or replace the first one of the same slot. -/
def upsert (journal : Journal) (entry : PendingWithdrawal) : Journal :=
  match journal.entries.findIdx? (fun held =>
    held.escrow = entry.escrow ∧ held.sequence = entry.sequence) with
  | some index => ⟨journal.entries.set index entry⟩
  | none => ⟨journal.entries ++ [entry]⟩

/-- Drop the entry of a slot, and say whether there was one. -/
def remove (journal : Journal) (escrow : String) (sequence : UInt32) : Bool × Journal :=
  let kept := journal.entries.filter (fun held =>
    !(held.escrow = escrow ∧ held.sequence = sequence))
  (kept.length ≠ journal.entries.length, ⟨kept⟩)

/-- The slots that have an entry. -/
def slots (journal : Journal) : List Slot := journal.entries.map PendingWithdrawal.slot

theorem slot_eq_iff {left right : PendingWithdrawal}
    : left.slot = right.slot ↔ left.escrow = right.escrow ∧ left.sequence = right.sequence := by
  simp [PendingWithdrawal.slot]

/-- Recording an entry adds its slot and keeps all others. -/
theorem mem_slots_upsert {journal : Journal} {entry : PendingWithdrawal} {slot : Slot}
    : slot ∈ (journal.upsert entry).slots ↔ slot = entry.slot ∨ slot ∈ journal.slots := by
  simp only [upsert]
  split
  · rename_i index located
    obtain ⟨inside, same, _⟩ := List.findIdx?_eq_some_iff_getElem.mp located
    obtain ⟨sameEscrow, sameSequence⟩ := of_decide_eq_true same
    have sameSlot : entry.slot = (journal.entries[index]).slot :=
      slot_eq_iff.mpr ⟨sameEscrow.symm, sameSequence.symm⟩
    have unchanged : (journal.entries.set index entry).map PendingWithdrawal.slot
        = journal.entries.map PendingWithdrawal.slot := by
      rw [List.map_set, sameSlot, ← List.getElem_map PendingWithdrawal.slot,
        List.set_getElem_self]
      simpa using inside
    have present : entry.slot ∈ journal.slots := by
      rw [sameSlot]
      exact List.mem_map_of_mem (List.getElem_mem inside)
    simp only [slots, unchanged]
    constructor
    · exact Or.inr
    · intro given
      rcases given with rfl | old
      · exact present
      · exact old
  · simp only [slots, List.map_append, List.map_cons, List.map_nil, List.mem_append,
      List.mem_singleton]
    exact or_comm

/-- Resolving a slot removes it and keeps all others. -/
theorem mem_slots_remove {journal : Journal} {escrow : String} {sequence : UInt32} {slot : Slot}
    : slot ∈ (journal.remove escrow sequence).2.slots
      ↔ slot ≠ ⟨escrow, sequence⟩ ∧ slot ∈ journal.slots := by
  simp only [slots, remove, List.mem_map, List.mem_filter]
  constructor
  · intro given
    rcases given with ⟨held, ⟨member, other⟩, rfl⟩
    refine ⟨fun same => ?_, held, member, rfl⟩
    obtain ⟨sameEscrow, sameSequence⟩ := Slot.mk.inj same
    simp [sameEscrow, sameSequence] at other
  · intro given
    rcases given with ⟨other, held, member, rfl⟩
    refine ⟨held, ⟨member, ?_⟩, rfl⟩
    simpa [PendingWithdrawal.slot, ← not_and_or] using other

end Journal

end PerpDex
