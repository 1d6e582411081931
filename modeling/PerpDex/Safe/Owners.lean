import PerpDex.Lib.LinkedList
import PerpDex.Membership.Statement

/-! The owner list of a Safe and its four owner-management calls. -/

namespace PerpDex.SafeProjection

open LinkedList

abbrev EvmAddress := Bytes 20

/-- An address whose last byte is given and whose other bytes are zero. -/
def lowAddress (last : UInt8) : EvmAddress :=
  ⟨List.replicate 19 0 ++ [last], by simp⟩

def zeroAddress : EvmAddress := lowAddress 0

/-- The marker that links to the first owner. -/
def sentinelOwners : EvmAddress := lowAddress 1

/-- A Safe owner-management call. -/
inductive SafeOp where
  | addOwner (owner : EvmAddress) (threshold : Nat)
  | removeOwner (prevOwner owner : EvmAddress) (threshold : Nat)
  | swapOwner (prevOwner oldOwner newOwner : EvmAddress)
  | changeThreshold (threshold : Nat)
deriving DecidableEq

/-- The owners in linked-list order and how many of them must sign. -/
@[ext] structure Safe where
  owners : List EvmAddress
  threshold : Nat
  nodup : owners.Nodup
  thresholdPos : 1 ≤ threshold
  thresholdLe : threshold ≤ owners.length
deriving DecidableEq

namespace Safe

/-- `addOwnerWithThreshold`: the new owner becomes the head of the list. -/
def addOwnerWithThreshold (safe : Safe) (owner : EvmAddress) (threshold : Nat)
    : Option Safe :=
  if legal : (owner ≠ zeroAddress ∧ owner ≠ sentinelOwners ∧ owner ∉ safe.owners)
      ∧ 1 ≤ threshold ∧ threshold ≤ safe.owners.length + 1 then
    some
      { owners := owner :: safe.owners
        threshold
        nodup := List.nodup_cons.mpr ⟨legal.1.2.2, safe.nodup⟩
        thresholdPos := legal.2.1
        thresholdLe := legal.2.2 }
  else none

/-- `removeOwner`. -/
def removeOwner (safe : Safe) (prevOwner owner : EvmAddress) (threshold : Nat)
    : Option Safe :=
  if legal : Precedes sentinelOwners safe.owners prevOwner owner
      ∧ 1 ≤ threshold ∧ threshold ≤ safe.owners.length - 1 then
    some
      { owners := safe.owners.erase owner
        threshold
        nodup := safe.nodup.erase owner
        thresholdPos := legal.2.1
        thresholdLe := by
          rw [List.length_erase_of_mem legal.1.mem]
          exact legal.2.2 }
  else none

/-- `swapOwner`: position and count stay. -/
def swapOwner (safe : Safe) (prevOwner oldOwner newOwner : EvmAddress) : Option Safe :=
  if legal : (newOwner ≠ zeroAddress ∧ newOwner ≠ sentinelOwners ∧ newOwner ∉ safe.owners)
      ∧ Precedes sentinelOwners safe.owners prevOwner oldOwner then
    some
      { owners := substitute safe.owners oldOwner newOwner
        threshold := safe.threshold
        nodup := nodup_substitute safe.nodup legal.1.2.2
        thresholdPos := safe.thresholdPos
        thresholdLe := by
          rw [length_substitute]
          exact safe.thresholdLe }
  else none

/-- `changeThreshold`. -/
def changeThreshold (safe : Safe) (threshold : Nat) : Option Safe :=
  if legal : 1 ≤ threshold ∧ threshold ≤ safe.owners.length then
    some { safe with threshold, thresholdPos := legal.1, thresholdLe := legal.2 }
  else none

/-- One call; `none` is a revert. -/
def exec (safe : Safe) : SafeOp → Option Safe
  | .addOwner owner threshold => safe.addOwnerWithThreshold owner threshold
  | .removeOwner prevOwner owner threshold => safe.removeOwner prevOwner owner threshold
  | .swapOwner prevOwner oldOwner newOwner => safe.swapOwner prevOwner oldOwner newOwner
  | .changeThreshold threshold => safe.changeThreshold threshold

/-- Calls in order, up to the first revert. -/
def execute : Safe → List SafeOp → Option Safe
  | safe, [] => some safe
  | safe, op :: rest => (safe.exec op).bind (fun next => next.execute rest)

theorem execute_append (safe : Safe) (first second : List SafeOp)
    : safe.execute (first ++ second)
      = (safe.execute first).bind (fun next => next.execute second) := by
  induction first generalizing safe with
  | nil => rfl
  | cons op rest ih =>
      rw [List.cons_append, execute, execute, Option.bind_assoc]
      exact congrArg _ (funext fun next => ih next)

-----------------------------------------------------------------------------------------
-- What a call that names its owner at its place does
-----------------------------------------------------------------------------------------

/-- The owners after one that stands at a known place of a duplicate-free list. -/
theorem not_mem_back {front back : List EvmAddress} {owner : EvmAddress}
    (nodup : (front ++ owner :: back).Nodup)
    : owner ∉ back :=
  (List.nodup_cons.mp (List.nodup_append.mp nodup).2.1).1

/-- A swap of the owner at a place, for one that is no owner yet. -/
theorem exec_swapOwner (safe : Safe) {front back : List EvmAddress}
    {old newOwner : EvmAddress} (owners : safe.owners = front ++ old :: back)
    (absent : old ∉ front) (notZero : newOwner ≠ zeroAddress)
    (notSentinel : newOwner ≠ sentinelOwners) (fresh : newOwner ∉ safe.owners)
    : ∃ next, safe.exec (.swapOwner (before sentinelOwners safe.owners front.length) old newOwner)
        = some next
      ∧ next.owners = front ++ newOwner :: back ∧ next.threshold = safe.threshold := by
  have linked : Precedes sentinelOwners safe.owners
      (before sentinelOwners safe.owners front.length) old := by
    rw [owners]
    exact precedes_before sentinelOwners front back old
  refine ⟨_, dif_pos ⟨⟨notZero, notSentinel, fresh⟩, linked⟩, ?_, rfl⟩
  have nodup := safe.nodup
  rw [owners] at nodup
  show substitute safe.owners old newOwner = _
  rw [owners]
  exact substitute_split newOwner absent (not_mem_back nodup)

/-- An addition of one that is no owner yet, under the standing threshold. -/
theorem exec_addOwner (safe : Safe) {owner : EvmAddress} (notZero : owner ≠ zeroAddress)
    (notSentinel : owner ≠ sentinelOwners) (fresh : owner ∉ safe.owners)
    : ∃ next, safe.exec (.addOwner owner safe.threshold) = some next
      ∧ next.owners = owner :: safe.owners ∧ next.threshold = safe.threshold := by
  have fits : safe.threshold ≤ safe.owners.length + 1 :=
    Nat.le_succ_of_le safe.thresholdLe
  exact ⟨_, dif_pos ⟨⟨notZero, notSentinel, fresh⟩, safe.thresholdPos, fits⟩, rfl, rfl⟩

/-- A removal of the owner at a place, under the standing threshold. -/
theorem exec_removeOwner (safe : Safe) {front back : List EvmAddress} {owner : EvmAddress}
    (owners : safe.owners = front ++ owner :: back) (absent : owner ∉ front)
    (enough : safe.threshold ≤ safe.owners.length - 1)
    : ∃ next, safe.exec
          (.removeOwner (before sentinelOwners safe.owners front.length) owner safe.threshold)
        = some next
      ∧ next.owners = front ++ back ∧ next.threshold = safe.threshold := by
  have linked : Precedes sentinelOwners safe.owners
      (before sentinelOwners safe.owners front.length) owner := by
    rw [owners]
    exact precedes_before sentinelOwners front back owner
  refine ⟨_, dif_pos ⟨linked, safe.thresholdPos, enough⟩, ?_, rfl⟩
  show safe.owners.erase owner = _
  rw [owners, List.erase_append_right _ absent, List.erase_cons_head]

/-- A threshold that the owners can meet. -/
theorem exec_changeThreshold (safe : Safe) {threshold : Nat} (pos : 1 ≤ threshold)
    (fits : threshold ≤ safe.owners.length)
    : ∃ next, safe.exec (.changeThreshold threshold) = some next
      ∧ next.owners = safe.owners ∧ next.threshold = threshold :=
  ⟨_, dif_pos ⟨pos, fits⟩, rfl, rfl⟩

end Safe

end PerpDex.SafeProjection
