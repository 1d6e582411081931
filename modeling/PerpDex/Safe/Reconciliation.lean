import PerpDex.Safe.Owners
import PerpDex.Lib.Except
import PerpDex.Lib.Hex

/-! The reconciliation plan: the Safe calls that make the owner list and the threshold agree
with the sealed membership, and what executing them in order does.
-/

namespace PerpDex.SafeProjection

open LinkedList

/-- A plan under construction and the owner list as it will stand after it. -/
structure Draft where
  plan : List SafeOp
  list : List EvmAddress

def Draft.push (draft : Draft) (op : SafeOp) (list : List EvmAddress) : Draft :=
  { plan := draft.plan ++ [op], list }

/-- Where an owner stands in the simulated list. -/
def position (list : List EvmAddress) (owner : EvmAddress) : Except String Nat :=
  okOr (list.findIdx? (fun other => other == owner))
    "internal: owner vanished from the simulated list"

/-- A draft with the additions and removals that are left for it. -/
structure Pairing where
  draft : Draft
  toAdd : List EvmAddress
  toRemove : List EvmAddress

/-- A removal and an addition are paired into a swap wherever both exist. -/
def planSwaps (draft : Draft) : List EvmAddress → List EvmAddress → Except String Pairing
  | newOwner :: toAdd, old :: toRemove => do
      let idx ← position draft.list old
      let prev := before sentinelOwners draft.list idx
      planSwaps (draft.push (.swapOwner prev old newOwner) (draft.list.set idx newOwner))
        toAdd toRemove
  | toAdd, toRemove => .ok { draft, toAdd, toRemove }

/-- The additions left; the Safe puts a new owner at the head. -/
def planAdds (workingThreshold : Nat) (draft : Draft) : List EvmAddress → Draft
  | [] => draft
  | want :: toAdd =>
      planAdds workingThreshold
        (draft.push (.addOwner want workingThreshold) (want :: draft.list)) toAdd

/-- The removals left. -/
def planRemovals (workingThreshold : Nat) (draft : Draft)
    : List EvmAddress → Except String Draft
  | [] => .ok draft
  | owner :: toRemove => do
      let idx ← position draft.list owner
      let prev := before sentinelOwners draft.list idx
      if draft.list.length - 1 < workingThreshold then
        .error
          ("removing " ++ Hex.encode owner.toList ++ " would leave "
            ++ toString (draft.list.length - 1) ++ " owners under threshold "
            ++ toString workingThreshold)
      else
        planRemovals workingThreshold
          (draft.push (.removeOwner prev owner workingThreshold) (draft.list.eraseIdx idx))
          toRemove

/-- A lowered threshold goes to the front of the plan, a raised one to its back. -/
def planReconciliation (currentOwners : List EvmAddress) (currentThreshold : Nat)
    (targetOwners : List EvmAddress) (targetThreshold : Nat)
    : Except String (List SafeOp) :=
  if targetOwners.isEmpty then
    .error "refusing to plan an empty owner set — the Safe would be unusable"
  else if targetThreshold = 0 ∨ targetOwners.length < targetThreshold then
    .error
      ("target threshold " ++ toString targetThreshold ++ " outside 1..="
        ++ toString targetOwners.length)
  else do
    let lowered :=
      if targetThreshold < currentThreshold then [SafeOp.changeThreshold targetThreshold]
      else []
    let workingThreshold := min targetThreshold currentThreshold
    let toAdd := targetOwners.filter (fun want => !currentOwners.contains want)
    let toRemove := currentOwners.filter (fun owner => !targetOwners.contains owner)
    let swapped ← planSwaps { plan := lowered, list := currentOwners } toAdd toRemove
    let final ← planRemovals workingThreshold
      (planAdds workingThreshold swapped.draft swapped.toAdd) swapped.toRemove
    if currentThreshold < targetThreshold then
      return final.plan ++ [.changeThreshold targetThreshold]
    else return final.plan

-----------------------------------------------------------------------------------------
-- A draft and the Safe it leads to
-----------------------------------------------------------------------------------------

/-- Executing the draft ends in a Safe with the simulated list and the given threshold. -/
def Draft.Reaches (draft : Draft) (start : Safe) (threshold : Nat) : Prop :=
  ∃ safe, start.execute draft.plan = some safe ∧ safe.owners = draft.list
    ∧ safe.threshold = threshold

/-- One more call, where it leads from the Safe reached so far to the new list. -/
theorem Draft.Reaches.push {draft : Draft} {start : Safe} {threshold newThreshold : Nat}
    {op : SafeOp} {list : List EvmAddress} (reaches : draft.Reaches start threshold)
    (called
      : ∀ safe : Safe, safe.owners = draft.list → safe.threshold = threshold
        → ∃ next, safe.exec op = some next ∧ next.owners = list
          ∧ next.threshold = newThreshold)
    : (draft.push op list).Reaches start newThreshold := by
  obtain ⟨safe, executed, owners, standing⟩ := reaches
  obtain ⟨next, accepted, nextOwners, nextThreshold⟩ := called safe owners standing
  refine ⟨next, ?_, nextOwners, nextThreshold⟩
  rw [Draft.push, Safe.execute_append, executed]
  simp [Safe.execute, accepted]

/-- The simulated list is what is kept and what is still to be removed; the target is what
is kept and what is still to be added.
-/
structure Outstanding (target kept list toAdd toRemove : List EvmAddress) : Prop where
  listed : list.Perm (kept ++ toRemove)
  wanted : target.Perm (kept ++ toAdd)
  stray : ∀ owner ∈ toRemove, owner ∉ target

namespace Outstanding

variable {target kept list toAdd toRemove : List EvmAddress}

/-- Where the plan starts, nothing of the overlap is touched. -/
theorem initial {current : List EvmAddress} (currentNodup : current.Nodup)
    (targetNodup : target.Nodup)
    : Outstanding target (current.filter (fun owner => target.contains owner)) current
        (target.filter (fun want => !current.contains want))
        (current.filter (fun owner => !target.contains owner)) := by
  refine ⟨?_, ?_, ?_⟩
  · exact (List.filter_append_perm (fun owner => target.contains owner) current).symm
  · have overlap : (current.filter (fun owner => target.contains owner)).Perm
        (target.filter (fun want => current.contains want)) := by
      rw [List.perm_ext_iff_of_nodup (currentNodup.filter _) (targetNodup.filter _)]
      intro owner
      simp only [List.mem_filter, List.contains_iff_mem]
      exact And.comm
    have split := (List.filter_append_perm (fun want => current.contains want) target).symm
    exact split.trans (overlap.symm.append_right _)
  · intro owner removed
    simpa using (List.mem_filter.mp removed).2

/-- What is still to be added is no owner yet. -/
theorem fresh {newOwner : EvmAddress}
    (outstanding : Outstanding target kept list (newOwner :: toAdd) toRemove)
    (nodup : target.Nodup)
    : newOwner ∉ list := by
  intro inside
  have parts := outstanding.wanted.nodup nodup
  have apart := (List.nodup_append.mp parts).2.2
  rcases List.mem_append.mp (outstanding.listed.mem_iff.mp inside) with inKept | inRemove
  · exact apart newOwner inKept newOwner List.mem_cons_self rfl
  · refine outstanding.stray newOwner inRemove ?_
    exact outstanding.wanted.mem_iff.mpr (by simp)

/-- What is still to be added is in the target. -/
theorem head_mem {newOwner : EvmAddress}
    (outstanding : Outstanding target kept list (newOwner :: toAdd) toRemove)
    : newOwner ∈ target :=
  outstanding.wanted.mem_iff.mpr (by simp)

/-- What is still to be removed is an owner. -/
theorem removal_mem {old : EvmAddress}
    (outstanding : Outstanding target kept list toAdd (old :: toRemove))
    : old ∈ list :=
  outstanding.listed.mem_iff.mpr (by simp)

theorem swap {front back : List EvmAddress} {old newOwner : EvmAddress}
    (outstanding
      : Outstanding target kept (front ++ old :: back) (newOwner :: toAdd) (old :: toRemove))
    : Outstanding target (newOwner :: kept) (front ++ newOwner :: back) toAdd toRemove := by
  refine ⟨?_, ?_, ?_⟩
  · have rest : (front ++ back).Perm (kept ++ toRemove) := by
      refine List.Perm.cons_inv (a := old) ?_
      exact List.perm_middle.symm.trans (outstanding.listed.trans List.perm_middle)
    exact List.perm_middle.trans (rest.cons newOwner)
  · exact outstanding.wanted.trans List.perm_middle
  · intro owner removed
    exact outstanding.stray owner (List.mem_cons_of_mem old removed)

theorem add {newOwner : EvmAddress}
    (outstanding : Outstanding target kept list (newOwner :: toAdd) toRemove)
    : Outstanding target (newOwner :: kept) (newOwner :: list) toAdd toRemove :=
  ⟨outstanding.listed.cons newOwner, outstanding.wanted.trans List.perm_middle,
    outstanding.stray⟩

theorem remove {front back : List EvmAddress} {old : EvmAddress}
    (outstanding : Outstanding target kept (front ++ old :: back) toAdd (old :: toRemove))
    : Outstanding target kept (front ++ back) toAdd toRemove := by
  refine ⟨?_, outstanding.wanted, ?_⟩
  · refine List.Perm.cons_inv (a := old) ?_
    exact List.perm_middle.symm.trans (outstanding.listed.trans List.perm_middle)
  · intro owner removed
    exact outstanding.stray owner (List.mem_cons_of_mem old removed)

/-- With nothing left to do the simulated list has exactly the target owners. -/
theorem done (outstanding : Outstanding target kept list [] []) : list.Perm target := by
  have listed := outstanding.listed
  have wanted := outstanding.wanted
  rw [List.append_nil] at listed wanted
  exact listed.trans wanted.symm

end Outstanding

-----------------------------------------------------------------------------------------
-- The three loops
-----------------------------------------------------------------------------------------

/-- A target the Safe can be given. -/
structure ProperTarget (target : List EvmAddress) : Prop where
  nodup : target.Nodup
  noZero : zeroAddress ∉ target
  noSentinel : sentinelOwners ∉ target

theorem ProperTarget.ne {target : List EvmAddress} {owner : EvmAddress}
    (proper : ProperTarget target) (member : owner ∈ target)
    : owner ≠ zeroAddress ∧ owner ≠ sentinelOwners :=
  ⟨fun same => proper.noZero (same ▸ member), fun same => proper.noSentinel (same ▸ member)⟩

/-- A draft that leads somewhere, with the work left for it. -/
structure Underway (start : Safe) (target : List EvmAddress) (threshold : Nat)
    (draft : Draft) (toAdd toRemove : List EvmAddress) : Prop where
  reaches : draft.Reaches start threshold
  outstanding : ∃ kept, Outstanding target kept draft.list toAdd toRemove

/-- The position of an owner of the simulated list, and the list around it. -/
theorem position_eq_ok {list : List EvmAddress} {owner : EvmAddress} (member : owner ∈ list)
    : ∃ front back, list = front ++ owner :: back ∧ owner ∉ front
      ∧ position list owner = .ok front.length := by
  obtain ⟨front, back, split, absent, found⟩ := position_eq_some member
  exact ⟨front, back, split, absent, by rw [position, found]; rfl⟩

/-- The swaps never fail, and leave no more than additions or removals.
Witness: induction on the pairs; each names its owner where the simulated list has it.
-/
theorem planSwaps_spec {start : Safe} {target : List EvmAddress} {threshold : Nat}
    (proper : ProperTarget target) {draft : Draft} {toAdd toRemove : List EvmAddress}
    (underway : Underway start target threshold draft toAdd toRemove)
    : ∃ swapped, planSwaps draft toAdd toRemove = .ok swapped
      ∧ Underway start target threshold swapped.draft swapped.toAdd swapped.toRemove
      ∧ (swapped.toAdd = [] ∨ swapped.toRemove = []) := by
  induction toAdd generalizing draft toRemove with
  | nil => exact ⟨⟨draft, [], toRemove⟩, by simp [planSwaps], underway, .inl rfl⟩
  | cons newOwner toAdd ih =>
      cases toRemove with
      | nil => exact ⟨⟨draft, newOwner :: toAdd, []⟩, by simp [planSwaps], underway, .inr rfl⟩
      | cons old toRemove =>
          obtain ⟨reaches, kept, outstanding⟩ := underway
          obtain ⟨front, back, split, absent, found⟩ :=
            position_eq_ok outstanding.removal_mem
          obtain ⟨notZero, notSentinel⟩ := proper.ne outstanding.head_mem
          have fresh := outstanding.fresh proper.nodup
          have replaced : draft.list.set front.length newOwner = front ++ newOwner :: back := by
            rw [split]
            simp
          let op : SafeOp :=
            .swapOwner (before sentinelOwners draft.list front.length) old newOwner
          have next : (draft.push op (draft.list.set front.length newOwner)).Reaches start
              threshold := by
            apply reaches.push
            intro safe owners standing
            rw [replaced]
            simp only [op]
            rw [← owners, ← standing]
            rw [← owners] at split fresh
            exact safe.exec_swapOwner split absent notZero notSentinel fresh
          have left : Outstanding target (newOwner :: kept)
              (draft.list.set front.length newOwner) toAdd toRemove := by
            rw [replaced]
            exact (split ▸ outstanding).swap
          obtain ⟨swapped, planned, rest⟩ := ih ⟨next, newOwner :: kept, left⟩
          refine ⟨swapped, ?_, rest⟩
          rw [planSwaps, found]
          exact planned

/-- The additions leave only removals. -/
theorem planAdds_spec {start : Safe} {target : List EvmAddress} {threshold : Nat}
    (proper : ProperTarget target) {draft : Draft} {toAdd toRemove : List EvmAddress}
    (underway : Underway start target threshold draft toAdd toRemove)
    : Underway start target threshold (planAdds threshold draft toAdd) [] toRemove := by
  induction toAdd generalizing draft with
  | nil => exact underway
  | cons want toAdd ih =>
      obtain ⟨reaches, kept, outstanding⟩ := underway
      obtain ⟨notZero, notSentinel⟩ := proper.ne outstanding.head_mem
      have fresh := outstanding.fresh proper.nodup
      refine ih ⟨reaches.push ?_, want :: kept, outstanding.add⟩
      intro safe owners standing
      rw [← owners, ← standing]
      rw [← owners] at fresh
      exact safe.exec_addOwner notZero notSentinel fresh

/-- The removals never fail where the target can meet the threshold, and leave nothing. -/
theorem planRemovals_spec {start : Safe} {target : List EvmAddress} {threshold : Nat}
    (enough : threshold ≤ target.length) {draft : Draft} {toRemove : List EvmAddress}
    (underway : Underway start target threshold draft [] toRemove)
    : ∃ final, planRemovals threshold draft toRemove = .ok final
      ∧ Underway start target threshold final [] [] := by
  induction toRemove generalizing draft with
  | nil => exact ⟨draft, rfl, underway⟩
  | cons owner toRemove ih =>
      obtain ⟨reaches, kept, outstanding⟩ := underway
      obtain ⟨front, back, split, absent, found⟩ := position_eq_ok outstanding.removal_mem
      have remaining : threshold ≤ draft.list.length - 1 := by
        have listed := outstanding.listed.length_eq
        have wanted := outstanding.wanted.length_eq
        simp only [List.length_append, List.length_cons, List.length_nil] at listed wanted
        omega
      have erased : draft.list.eraseIdx front.length = front ++ back := by
        rw [split]
        simp [List.eraseIdx_append_of_length_le]
      let op : SafeOp :=
        .removeOwner (before sentinelOwners draft.list front.length) owner threshold
      have next : (draft.push op (draft.list.eraseIdx front.length)).Reaches start
          threshold := by
        apply reaches.push
        intro safe owners standing
        rw [erased]
        simp only [op]
        rw [← owners, ← standing]
        rw [← owners] at split remaining
        rw [← standing] at remaining
        exact safe.exec_removeOwner split absent remaining
      have left : Outstanding target kept (draft.list.eraseIdx front.length) [] toRemove := by
        rw [erased]
        exact (split ▸ outstanding).remove
      obtain ⟨final, planned, rest⟩ := ih ⟨next, kept, left⟩
      refine ⟨final, ?_, rest⟩
      have legal : ¬ draft.list.length - 1 < threshold := Nat.not_lt.mpr remaining
      rw [planRemovals, found]
      exact (if_neg legal).trans planned

-----------------------------------------------------------------------------------------
-- The whole plan
-----------------------------------------------------------------------------------------

/-- The front of the plan leads to the Safe as it stands, under the lower threshold. -/
theorem underway_initial (safe : Safe) {target : List EvmAddress} {targetThreshold : Nat}
    (proper : ProperTarget target) (pos : 1 ≤ targetThreshold)
    : Underway safe target (min targetThreshold safe.threshold)
        { plan :=
            if targetThreshold < safe.threshold then [.changeThreshold targetThreshold] else []
          list := safe.owners }
        (target.filter (fun want => !safe.owners.contains want))
        (safe.owners.filter (fun owner => !target.contains owner)) := by
  refine ⟨?_, _, Outstanding.initial safe.nodup proper.nodup⟩
  by_cases lower : targetThreshold < safe.threshold
  · obtain ⟨next, changed, owners, threshold⟩ :=
      safe.exec_changeThreshold pos (lower.le.trans safe.thresholdLe)
    refine ⟨next, ?_, owners, threshold.trans (min_eq_left lower.le).symm⟩
    rw [if_pos lower]
    simp [Safe.execute, changed]
  · refine ⟨safe, ?_, rfl, (min_eq_right (Nat.not_lt.mp lower)).symm⟩
    rw [if_neg lower]
    rfl

/-- The plan is made, executes without a revert, and ends with exactly the target owners and
the target threshold.
-/
theorem planReconciliation_converges (safe : Safe) (target : List EvmAddress)
    (targetThreshold : Nat) (nodup : target.Nodup) (noZero : zeroAddress ∉ target)
    (noSentinel : sentinelOwners ∉ target) (pos : 1 ≤ targetThreshold)
    (fits : targetThreshold ≤ target.length)
    : ∃ plan final,
        planReconciliation safe.owners safe.threshold target targetThreshold = .ok plan
        ∧ safe.execute plan = some final ∧ final.owners.Perm target
        ∧ final.threshold = targetThreshold := by
  have proper : ProperTarget target := ⟨nodup, noZero, noSentinel⟩
  obtain ⟨swapped, pairs, swappedUnderway, -⟩ :=
    planSwaps_spec proper (underway_initial safe proper pos)
  have enough : min targetThreshold safe.threshold ≤ target.length :=
    (min_le_left _ _).trans fits
  obtain ⟨final, removals, reaches, kept, outstanding⟩ :=
    planRemovals_spec enough (planAdds_spec proper swappedUnderway)
  have nonempty : target ≠ [] := by
    intro empty
    rw [empty] at fits
    exact absurd (pos.trans fits) (by simp)
  have planned
      : planReconciliation safe.owners safe.threshold target targetThreshold
        = if safe.threshold < targetThreshold then
            .ok (final.plan ++ [.changeThreshold targetThreshold])
          else .ok final.plan := by
    have inRange : ¬ (targetThreshold = 0 ∨ target.length < targetThreshold) := by omega
    rw [planReconciliation, if_neg (by simpa using nonempty), if_neg inRange]
    simp only [pairs, removals, bind, Except.bind, pure, Except.pure]
  by_cases raise : safe.threshold < targetThreshold
  · have raised : (final.push (.changeThreshold targetThreshold) final.list).Reaches safe
        targetThreshold := by
      apply reaches.push
      intro reached owners _
      rw [← owners]
      refine reached.exec_changeThreshold pos ?_
      rw [owners, outstanding.done.length_eq]
      exact fits
    obtain ⟨last, executed, owners, threshold⟩ := raised
    exact ⟨_, last, planned.trans (if_pos raise), executed, owners ▸ outstanding.done, threshold⟩
  · obtain ⟨last, executed, owners, threshold⟩ := reaches
    rw [min_eq_left (Nat.not_lt.mp raise)] at threshold
    exact ⟨_, last, planned.trans (if_neg raise), executed, owners ▸ outstanding.done, threshold⟩

/-- Three owners of whom two stay. -/
def threeOwners : Safe :=
  { owners := [lowAddress 2, lowAddress 3, lowAddress 4]
    threshold := 3
    nodup := by decide
    thresholdPos := by decide
    thresholdLe := by decide }

theorem planReconciliation_converges_threeOwners
    : planReconciliation threeOwners.owners threeOwners.threshold
          [lowAddress 9, lowAddress 3] 2
        = .ok
          [.changeThreshold 2, .swapOwner sentinelOwners (lowAddress 2) (lowAddress 9),
            .removeOwner (lowAddress 3) (lowAddress 4) 2]
      ∧ ∃ plan final,
        planReconciliation threeOwners.owners threeOwners.threshold
            [lowAddress 9, lowAddress 3] 2
          = .ok plan
        ∧ threeOwners.execute plan = some final
        ∧ final.owners.Perm [lowAddress 9, lowAddress 3] ∧ final.threshold = 2 :=
  ⟨by rfl,
    planReconciliation_converges threeOwners [lowAddress 9, lowAddress 3] 2 (by decide)
      (by decide) (by decide) (by decide) (by decide)⟩

end PerpDex.SafeProjection
