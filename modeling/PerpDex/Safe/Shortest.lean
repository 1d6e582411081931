import PerpDex.Safe.Rederivation

/-! How short a plan can be. A call mends at most one wanted and one stray owner, and never
both together with the threshold; a plan that keeps the threshold change apart is one call
longer than needed exactly when an addition or a removal could have carried it.
-/

namespace PerpDex.SafeProjection

open LinkedList

-----------------------------------------------------------------------------------------
-- What any sequence of calls has to mend
-----------------------------------------------------------------------------------------

/-- How many target owners are not among the owners. -/
def lacking (target : List EvmAddress) (safe : Safe) : Nat :=
  (target.toFinset \ safe.owners.toFinset).card

/-- How many owners are not among the target owners. -/
def excess (target : List EvmAddress) (safe : Safe) : Nat :=
  (safe.owners.toFinset \ target.toFinset).card

def thresholdOff (targetThreshold : Nat) (safe : Safe) : Nat :=
  if safe.threshold = targetThreshold then 0 else 1

/-- Sets that differ by one added item leave counts that differ by at most one. -/
theorem card_sdiff_le_succ {α : Type} [DecidableEq α] {first second other : Finset α} (item : α)
    (within : first ⊆ insert item second)
    : (first \ other).card ≤ (second \ other).card + 1 := by
  refine (Finset.card_le_card ?_).trans (Finset.card_insert_le item _)
  intro member inside
  obtain ⟨inFirst, notOther⟩ := Finset.mem_sdiff.mp inside
  rcases Finset.mem_insert.mp (within inFirst) with same | inSecond
  · exact same ▸ Finset.mem_insert_self _ _
  · exact Finset.mem_insert_of_mem (Finset.mem_sdiff.mpr ⟨inSecond, notOther⟩)

theorem card_sdiff_right_le_succ {α : Type} [DecidableEq α] {first second other : Finset α}
    (item : α) (within : second ⊆ insert item first)
    : (other \ first).card ≤ (other \ second).card + 1 := by
  refine (Finset.card_le_card ?_).trans (Finset.card_insert_le item _)
  intro member inside
  obtain ⟨inOther, notFirst⟩ := Finset.mem_sdiff.mp inside
  by_cases inSecond : member ∈ second
  · rcases Finset.mem_insert.mp (within inSecond) with same | inFirst
    · exact same ▸ Finset.mem_insert_self _ _
    · exact absurd inFirst notFirst
  · exact Finset.mem_insert_of_mem (Finset.mem_sdiff.mpr ⟨inOther, inSecond⟩)

/-- What a call that executes does to the owners and the threshold. -/
theorem Safe.exec_cases {safe next : Safe} {op : SafeOp} (accepted : safe.exec op = some next)
    : (∃ owner threshold, op = .addOwner owner threshold
        ∧ next.owners = owner :: safe.owners ∧ next.threshold = threshold)
      ∨ (∃ prevOwner owner threshold, op = .removeOwner prevOwner owner threshold
        ∧ owner ∈ safe.owners ∧ next.owners = safe.owners.erase owner
        ∧ next.threshold = threshold)
      ∨ (∃ prevOwner old newOwner, op = .swapOwner prevOwner old newOwner
        ∧ next.owners = substitute safe.owners old newOwner
        ∧ next.threshold = safe.threshold)
      ∨ ∃ threshold, op = .changeThreshold threshold
        ∧ next.owners = safe.owners ∧ next.threshold = threshold := by
  cases op with
  | addOwner owner threshold =>
      obtain ⟨legal, same⟩ := Option.dite_none_right_eq_some.mp accepted
      cases Option.some.inj same
      exact .inl ⟨owner, threshold, rfl, rfl, rfl⟩
  | removeOwner prevOwner owner threshold =>
      obtain ⟨legal, same⟩ := Option.dite_none_right_eq_some.mp accepted
      cases Option.some.inj same
      exact .inr (.inl ⟨prevOwner, owner, threshold, rfl, legal.1.mem, rfl, rfl⟩)
  | swapOwner prevOwner old newOwner =>
      obtain ⟨legal, same⟩ := Option.dite_none_right_eq_some.mp accepted
      cases Option.some.inj same
      exact .inr (.inr (.inl ⟨prevOwner, old, newOwner, rfl, rfl, rfl⟩))
  | changeThreshold threshold =>
      obtain ⟨legal, same⟩ := Option.dite_none_right_eq_some.mp accepted
      cases Option.some.inj same
      exact .inr (.inr (.inr ⟨threshold, rfl, rfl, rfl⟩))

theorem thresholdOff_le (targetThreshold : Nat) (safe : Safe)
    : thresholdOff targetThreshold safe ≤ 1 := by
  rw [thresholdOff]
  split <;> omega

/-- What is substituted for an owner is the only one that comes. -/
theorem substitute_subset (list : List EvmAddress) (old new : EvmAddress)
    : (substitute list old new).toFinset ⊆ insert new list.toFinset := by
  intro owner inside
  obtain ⟨item, inList, same⟩ := List.mem_map.mp (List.mem_toFinset.mp inside)
  split at same
  · exact same ▸ Finset.mem_insert_self _ _
  · exact same ▸ Finset.mem_insert_of_mem (List.mem_toFinset.mpr inList)

/-- The owner that is substituted is the only one that goes. -/
theorem subset_substitute (list : List EvmAddress) (old new : EvmAddress)
    : list.toFinset ⊆ insert old (substitute list old new).toFinset := by
  intro owner inside
  by_cases same : owner = old
  · exact same ▸ Finset.mem_insert_self _ _
  · refine Finset.mem_insert_of_mem (List.mem_toFinset.mpr (List.mem_map.mpr ?_))
    exact ⟨owner, List.mem_toFinset.mp inside, if_neg same⟩

/-- A distance to the target. -/
structure Distance where
  lacking : Nat
  excess : Nat
  thresholdOff : Nat

/-- Mended by at most so many calls: each mends one wanted and one stray owner at most, and
two of the three at most.
-/
structure Distance.Within (here there : Distance) (calls : Nat) : Prop where
  lacking : here.lacking ≤ there.lacking + calls
  excess : here.excess ≤ there.excess + calls
  total
    : here.lacking + here.excess + here.thresholdOff
      ≤ there.lacking + there.excess + there.thresholdOff + 2 * calls

def distance (target : List EvmAddress) (targetThreshold : Nat) (safe : Safe) : Distance :=
  { lacking := lacking target safe
    excess := excess target safe
    thresholdOff := thresholdOff targetThreshold safe }

/-- One call. -/
theorem distance_exec (target : List EvmAddress) (targetThreshold : Nat) {safe next : Safe}
    {op : SafeOp} (accepted : safe.exec op = some next)
    : (distance target targetThreshold safe).Within (distance target targetThreshold next) 1 := by
  have offBound := thresholdOff_le targetThreshold safe
  rcases Safe.exec_cases accepted with ⟨owner, threshold, rfl, owners, -⟩
    | ⟨prevOwner, owner, threshold, rfl, member, owners, -⟩
    | ⟨prevOwner, old, newOwner, rfl, owners, standing⟩ | ⟨threshold, rfl, owners, -⟩
  · have lackingStep : lacking target safe ≤ lacking target next + 1 := by
      refine card_sdiff_right_le_succ owner ?_
      rw [owners, List.toFinset_cons]
    have excessStep : excess target safe ≤ excess target next := by
      refine Finset.card_le_card (Finset.sdiff_subset_sdiff ?_ (Finset.Subset.refl _))
      rw [owners, List.toFinset_cons]
      exact Finset.subset_insert _ _
    exact ⟨lackingStep, by simp only [distance]; omega, by simp only [distance]; omega⟩
  · have excessStep : excess target safe ≤ excess target next + 1 := by
      refine card_sdiff_le_succ owner ?_
      rw [owners]
      intro other inside
      by_cases same : other = owner
      · exact same ▸ Finset.mem_insert_self _ _
      · refine Finset.mem_insert_of_mem (List.mem_toFinset.mpr ?_)
        exact (List.mem_erase_of_ne same).mpr (List.mem_toFinset.mp inside)
    have lackingStep : lacking target safe ≤ lacking target next := by
      refine Finset.card_le_card (Finset.sdiff_subset_sdiff (Finset.Subset.refl _) ?_)
      rw [owners]
      intro other inside
      exact List.mem_toFinset.mpr (List.mem_of_mem_erase (List.mem_toFinset.mp inside))
    exact ⟨by simp only [distance]; omega, excessStep, by simp only [distance]; omega⟩
  · have lackingStep : lacking target safe ≤ lacking target next + 1 := by
      refine card_sdiff_right_le_succ newOwner ?_
      rw [owners]
      exact substitute_subset _ _ _
    have excessStep : excess target safe ≤ excess target next + 1 := by
      refine card_sdiff_le_succ old ?_
      rw [owners]
      exact subset_substitute _ _ _
    have offStep : thresholdOff targetThreshold safe = thresholdOff targetThreshold next := by
      rw [thresholdOff, thresholdOff, standing]
    exact ⟨lackingStep, excessStep, by simp only [distance]; omega⟩
  · have lackingStep : lacking target safe = lacking target next := by
      rw [lacking, lacking, owners]
    have excessStep : excess target safe = excess target next := by
      rw [excess, excess, owners]
    exact ⟨by simp only [distance]; omega, by simp only [distance]; omega,
      by simp only [distance]; omega⟩

/-- Any sequence of calls. -/
theorem distance_execute (target : List EvmAddress) (targetThreshold : Nat) {safe final : Safe}
    {ops : List SafeOp} (executed : safe.execute ops = some final)
    : (distance target targetThreshold safe).Within (distance target targetThreshold final)
        ops.length := by
  induction ops generalizing safe with
  | nil =>
      cases Option.some.inj executed
      exact ⟨le_rfl, le_rfl, le_rfl⟩
  | cons op rest ih =>
      obtain ⟨next, accepted, run⟩ := Option.bind_eq_some_iff.mp executed
      obtain ⟨lackingStep, excessStep, totalStep⟩ :=
        distance_exec target targetThreshold accepted
      obtain ⟨lackingRun, excessRun, totalRun⟩ := ih run
      rw [List.length_cons]
      exact ⟨by omega, by omega, by omega⟩

-----------------------------------------------------------------------------------------
-- How long the plan is
-----------------------------------------------------------------------------------------

/-- A call that adds or removes an owner, and sets the threshold with it. -/
def SafeOp.ChangesCount : SafeOp → Prop
  | .addOwner _ _ => True
  | .removeOwner _ _ _ => True
  | .swapOwner _ _ _ => False
  | .changeThreshold _ => False

/-- The same call, with another threshold where it sets one. -/
def SafeOp.withThreshold (threshold : Nat) : SafeOp → SafeOp
  | .addOwner owner _ => .addOwner owner threshold
  | .removeOwner prevOwner owner _ => .removeOwner prevOwner owner threshold
  | .swapOwner prevOwner oldOwner newOwner => .swapOwner prevOwner oldOwner newOwner
  | .changeThreshold _ => .changeThreshold threshold

/-- One call serves an addition and a removal as long as both are left. -/
theorem length_ownerSteps {workingThreshold : Nat} {list toAdd toRemove : List EvmAddress}
    {steps : List SafeOp}
    (made : ownerSteps workingThreshold list toAdd toRemove = .ok steps)
    : steps.length = max toAdd.length toRemove.length := by
  fun_induction ownerSteps workingThreshold list toAdd toRemove generalizing steps with
  | case1 list newOwner toAdd old toRemove ih =>
      obtain ⟨idx, -, made⟩ := Except.bind_eq_ok_iff.mp made
      obtain ⟨rest, later, same⟩ := Except.bind_eq_ok_iff.mp made
      cases Except.ok.inj same
      have := ih idx later
      simp only [List.length_cons]
      omega
  | case2 list want toAdd ih =>
      obtain ⟨rest, later, same⟩ := Except.bind_eq_ok_iff.mp made
      cases Except.ok.inj same
      have := ih later
      simp only [List.length_cons, List.length_nil] at this ⊢
      omega
  | case3 list owner toRemove ih =>
      obtain ⟨idx, -, made⟩ := Except.bind_eq_ok_iff.mp made
      split at made
      · cases made
      · obtain ⟨rest, later, same⟩ := Except.bind_eq_ok_iff.mp made
        cases Except.ok.inj same
        have := ih idx later
        simp only [List.length_cons, List.length_nil] at this ⊢
        omega
  | case4 list =>
      cases Except.ok.inj made
      rfl

/-- Where the counts differ, the last call is an addition or a removal. -/
theorem ownerSteps_last {workingThreshold : Nat} {list toAdd toRemove : List EvmAddress}
    {steps : List SafeOp}
    (made : ownerSteps workingThreshold list toAdd toRemove = .ok steps)
    (differ : toAdd.length ≠ toRemove.length)
    : ∃ front last, steps = front ++ [last] ∧ last.ChangesCount := by
  fun_induction ownerSteps workingThreshold list toAdd toRemove generalizing steps with
  | case1 list newOwner toAdd old toRemove ih =>
      obtain ⟨idx, -, made⟩ := Except.bind_eq_ok_iff.mp made
      obtain ⟨rest, later, same⟩ := Except.bind_eq_ok_iff.mp made
      cases Except.ok.inj same
      obtain ⟨front, last, rfl, changes⟩ := ih idx later (by simpa using differ)
      exact ⟨_ :: front, last, rfl, changes⟩
  | case2 list want toAdd ih =>
      obtain ⟨rest, later, same⟩ := Except.bind_eq_ok_iff.mp made
      cases Except.ok.inj same
      cases toAdd with
      | nil =>
          rw [ownerSteps] at later
          cases Except.ok.inj later
          exact ⟨[], .addOwner want workingThreshold, rfl, trivial⟩
      | cons second toAdd =>
          obtain ⟨front, last, rfl, changes⟩ := ih later (by simp)
          exact ⟨_ :: front, last, rfl, changes⟩
  | case3 list owner toRemove ih =>
      obtain ⟨idx, -, made⟩ := Except.bind_eq_ok_iff.mp made
      split at made
      · cases made
      · obtain ⟨rest, later, same⟩ := Except.bind_eq_ok_iff.mp made
        cases Except.ok.inj same
        cases toRemove with
        | nil =>
            rw [ownerSteps] at later
            cases Except.ok.inj later
            exact ⟨[], .removeOwner _ owner workingThreshold, rfl, trivial⟩
        | cons second toRemove =>
            obtain ⟨front, last, rfl, changes⟩ := ih idx later (by simp)
            exact ⟨_ :: front, last, rfl, changes⟩
  | case4 list => exact absurd rfl differ

theorem length_wanting {target : List EvmAddress} (nodup : target.Nodup) (safe : Safe)
    : (wanting target safe.owners).length = lacking target safe := by
  have wantedNodup : (wanting target safe.owners).Nodup := nodup.filter _
  rw [lacking, ← List.toFinset_card_of_nodup wantedNodup]
  congr 1
  ext owner
  rw [List.mem_toFinset, mem_wanting]
  simp

theorem length_straying (target : List EvmAddress) (safe : Safe)
    : (straying target safe.owners).length = excess target safe := by
  have strayNodup : (straying target safe.owners).Nodup := safe.nodup.filter _
  rw [excess, ← List.toFinset_card_of_nodup strayNodup]
  congr 1
  ext owner
  rw [List.mem_toFinset, mem_straying]
  simp

/-- As many are wanted as are stray exactly if the target has as many owners as the Safe. -/
theorem lacking_eq_excess_iff {target : List EvmAddress} (nodup : target.Nodup) (safe : Safe)
    : lacking target safe = excess target safe ↔ target.length = safe.owners.length := by
  have targetCard := List.toFinset_card_of_nodup nodup
  have ownersCard := List.toFinset_card_of_nodup safe.nodup
  have left := Finset.card_sdiff_add_card_inter target.toFinset safe.owners.toFinset
  have right := Finset.card_sdiff_add_card_inter safe.owners.toFinset target.toFinset
  rw [Finset.inter_comm] at right
  rw [lacking, excess]
  omega

/-- The plan's length: the owner calls, and one more where the thresholds differ. -/
theorem length_plan {safe : Safe} {target : List EvmAddress} {targetThreshold : Nat}
    {plan : List SafeOp} (nodup : target.Nodup)
    (planned
      : planReconciliation safe.owners safe.threshold target targetThreshold = .ok plan)
    : plan.length
      = max (lacking target safe) (excess target safe) + thresholdOff targetThreshold safe := by
  obtain ⟨pos, fits⟩ := bounds_of_planReconciliation planned
  rw [planReconciliation_eq pos fits] at planned
  obtain ⟨steps, made, rfl⟩ := Except.map_eq_ok_iff.mp planned
  have stepsLength := length_ownerSteps made
  rw [length_wanting nodup, length_straying] at stepsLength
  rw [List.length_append, List.length_append, stepsLength, loweredThreshold, raisedThreshold,
    thresholdOff]
  rcases Nat.lt_trichotomy safe.threshold targetThreshold with raise | same | lower
  · simp [raise, raise.ne, raise.le]
  · simp [same]
  · simp [lower, lower.ne', Nat.not_lt.mpr lower.le]
    omega

/-- At the target nothing is left to mend. -/
theorem distance_of_perm {target : List EvmAddress} {targetThreshold : Nat} {final : Safe}
    (owners : final.owners.Perm target) (threshold : final.threshold = targetThreshold)
    : distance target targetThreshold final = { lacking := 0, excess := 0, thresholdOff := 0 } := by
  have same : final.owners.toFinset = target.toFinset := List.toFinset_eq_of_perm _ _ owners
  simp [distance, lacking, excess, thresholdOff, same, threshold]

-----------------------------------------------------------------------------------------
-- A shorter sequence
-----------------------------------------------------------------------------------------

/-- An addition or a removal needs nothing of the Safe but its owners. -/
theorem Safe.exec_of_same_owners {left right : Safe} (owners : left.owners = right.owners)
    {op : SafeOp} (changes : op.ChangesCount)
    : left.exec op = right.exec op := by
  cases left
  cases right
  cases owners
  cases op with
  | addOwner owner threshold => rfl
  | removeOwner prevOwner owner threshold => rfl
  | swapOwner prevOwner old newOwner => exact changes.elim
  | changeThreshold threshold => exact changes.elim

/-- Whether a call executes, and the owners it leads to, depend on the owners alone. -/
theorem Safe.exec_owners {left right next : Safe} (owners : left.owners = right.owners)
    {op : SafeOp} (accepted : left.exec op = some next)
    : ∃ other, right.exec op = some other ∧ next.owners = other.owners := by
  cases left
  cases right
  cases owners
  cases op with
  | addOwner owner threshold => exact ⟨next, accepted, rfl⟩
  | removeOwner prevOwner owner threshold => exact ⟨next, accepted, rfl⟩
  | swapOwner prevOwner old newOwner =>
      obtain ⟨legal, same⟩ := Option.dite_none_right_eq_some.mp accepted
      cases Option.some.inj same
      exact ⟨_, dif_pos legal, rfl⟩
  | changeThreshold threshold => exact ⟨next, accepted, rfl⟩

/-- Once an owner is added or removed, the threshold that stood before does not matter. -/
theorem Safe.execute_of_same_owners {left right final : Safe}
    (owners : left.owners = right.owners) {front : List SafeOp} {last : SafeOp}
    (changes : last.ChangesCount) (executed : left.execute (front ++ [last]) = some final)
    : right.execute (front ++ [last]) = some final := by
  induction front generalizing left right with
  | nil =>
      rw [List.nil_append, execute, exec_of_same_owners owners.symm changes]
      exact executed
  | cons op front ih =>
      obtain ⟨next, accepted, run⟩ := Option.bind_eq_some_iff.mp executed
      obtain ⟨other, reached, nextOwners⟩ := exec_owners owners accepted
      rw [List.cons_append, execute, reached]
      exact ih nextOwners run

/-- A threshold change right behind an addition or a removal can be made by it. -/
theorem Safe.exec_withThreshold {safe next final : Safe} {op : SafeOp} {threshold : Nat}
    (changes : op.ChangesCount) (accepted : safe.exec op = some next)
    (changed : next.exec (.changeThreshold threshold) = some final)
    : safe.exec (op.withThreshold threshold) = some final := by
  obtain ⟨bounds, changedTo⟩ := Option.dite_none_right_eq_some.mp changed
  cases op with
  | addOwner owner standing =>
      obtain ⟨legal, same⟩ := Option.dite_none_right_eq_some.mp accepted
      cases Option.some.inj same
      cases Option.some.inj changedTo
      exact dif_pos ⟨legal.1, bounds⟩
  | removeOwner prevOwner owner standing =>
      obtain ⟨legal, same⟩ := Option.dite_none_right_eq_some.mp accepted
      cases Option.some.inj same
      cases Option.some.inj changedTo
      have fewer : threshold ≤ safe.owners.length - 1 := by
        rw [← List.length_erase_of_mem legal.1.mem]
        exact bounds.2
      exact dif_pos ⟨legal.1, bounds.1, fewer⟩
  | swapOwner prevOwner old newOwner => exact changes.elim
  | changeThreshold standing => exact changes.elim

/-- Where the threshold changes and the number of owners does too, one call can be saved: the
last addition or removal sets the target threshold.
-/
theorem exists_shorter {safe : Safe} {target : List EvmAddress} {targetThreshold : Nat}
    {plan : List SafeOp} (proper : ProperTarget target)
    (planned
      : planReconciliation safe.owners safe.threshold target targetThreshold = .ok plan)
    (thresholdDiffers : targetThreshold ≠ safe.threshold)
    (countDiffers : target.length ≠ safe.owners.length)
    : ∃ ops final, safe.execute ops = some final ∧ final.owners.Perm target
      ∧ final.threshold = targetThreshold ∧ ops.length < plan.length := by
  have whole := planned
  rw [← List.append_nil plan] at whole
  obtain ⟨final, executed, nothing⟩ := planReconciliation_run proper whole
  obtain ⟨owners, threshold⟩ := inSync_of_plan_eq_nil final proper.nodup nothing
  obtain ⟨pos, fits⟩ := bounds_of_planReconciliation planned
  rw [planReconciliation_eq pos fits] at planned
  obtain ⟨steps, made, rfl⟩ := Except.map_eq_ok_iff.mp planned
  have counts : (wanting target safe.owners).length ≠ (straying target safe.owners).length := by
    rw [length_wanting proper.nodup, length_straying]
    exact fun same => countDiffers ((lacking_eq_excess_iff proper.nodup safe).mp same)
  obtain ⟨front, last, rfl, changes⟩ := ownerSteps_last made counts
  rcases Nat.lt_or_gt_of_ne thresholdDiffers with lower | raise
  · have noRaise : raisedThreshold targetThreshold safe.threshold = [] :=
      if_neg (Nat.not_lt.mpr lower.le)
    rw [loweredThreshold, if_pos lower, noRaise, List.append_nil] at executed ⊢
    obtain ⟨next, accepted, run⟩ := Option.bind_eq_some_iff.mp executed
    obtain ⟨_, lowered⟩ := Option.dite_none_right_eq_some.mp accepted
    have sameOwners : next.owners = safe.owners := by
      cases Option.some.inj lowered
      rfl
    exact ⟨front ++ [last], final, Safe.execute_of_same_owners sameOwners changes run, owners,
      threshold, by simp⟩
  · have noLowering : loweredThreshold targetThreshold safe.threshold = [] :=
      if_neg (Nat.not_lt.mpr raise.le)
    rw [raisedThreshold, if_pos raise, noLowering, List.nil_append, List.append_assoc,
      Safe.execute_append] at executed
    obtain ⟨reached, run, executed⟩ := Option.bind_eq_some_iff.mp executed
    obtain ⟨next, accepted, executed⟩ := Option.bind_eq_some_iff.mp executed
    obtain ⟨changed, raised, done⟩ := Option.bind_eq_some_iff.mp executed
    cases Option.some.inj done
    refine ⟨front ++ [last.withThreshold targetThreshold], final, ?_, owners, threshold, ?_⟩
    · rw [Safe.execute_append, run]
      simp [Safe.execute, Safe.exec_withThreshold changes accepted raised]
    · rw [noLowering, raisedThreshold, if_pos raise]
      simp

/-- No sequence of calls that reaches the target is shorter than the plan, exactly where the
standing threshold is the target's or the number of owners stays.
-/
theorem plan_shortest_iff (safe : Safe) (target : List EvmAddress) (targetThreshold : Nat)
    (plan : List SafeOp) (nodup : target.Nodup) (noZero : zeroAddress ∉ target)
    (noSentinel : sentinelOwners ∉ target)
    (planned
      : planReconciliation safe.owners safe.threshold target targetThreshold = .ok plan)
    : (∀ ops final, safe.execute ops = some final → final.owners.Perm target
        → final.threshold = targetThreshold → plan.length ≤ ops.length)
      ↔ targetThreshold = safe.threshold ∨ target.length = safe.owners.length := by
  constructor
  · intro shortest
    by_contra differ
    rw [not_or] at differ
    obtain ⟨ops, final, executed, owners, threshold, shorter⟩ :=
      exists_shorter ⟨nodup, noZero, noSentinel⟩ planned differ.1 differ.2
    exact absurd (shortest ops final executed owners threshold) (Nat.not_le.mpr shorter)
  · intro condition ops final executed owners threshold
    obtain ⟨lackingBound, excessBound, totalBound⟩ :=
      distance_execute target targetThreshold executed
    rw [distance_of_perm owners threshold] at lackingBound excessBound totalBound
    simp only [distance] at lackingBound excessBound totalBound
    rw [length_plan nodup planned]
    rcases condition with same | same
    · have noChange : thresholdOff targetThreshold safe = 0 := if_pos same.symm
      omega
    · have balanced := (lacking_eq_excess_iff nodup safe).mpr same
      have offBound := thresholdOff_le targetThreshold safe
      omega

/-- One owner, who signs alone. -/
def loneOwner : Safe :=
  { owners := [lowAddress 2]
    threshold := 1
    nodup := by decide
    thresholdPos := by decide
    thresholdLe := by decide }

theorem plan_shortest_iff_loneOwner
    : (∀ ops final, loneOwner.execute ops = some final
        → final.owners.Perm [lowAddress 2, lowAddress 3] → final.threshold = 1
        → [SafeOp.addOwner (lowAddress 3) 1].length ≤ ops.length)
      ↔ 1 = loneOwner.threshold
        ∨ [lowAddress 2, lowAddress 3].length = loneOwner.owners.length :=
  plan_shortest_iff loneOwner [lowAddress 2, lowAddress 3] 1 [.addOwner (lowAddress 3) 1]
    (by decide) (by decide) (by decide) (by rfl)

/-- A second owner and a threshold of two take one call; the plan has two. -/
theorem plan_not_shortest
    : planReconciliation loneOwner.owners loneOwner.threshold [lowAddress 2, lowAddress 3] 2
        = .ok [.addOwner (lowAddress 3) 1, .changeThreshold 2]
      ∧ ¬ ∀ ops final, loneOwner.execute ops = some final
        → final.owners.Perm [lowAddress 2, lowAddress 3] → final.threshold = 2
        → [SafeOp.addOwner (lowAddress 3) 1, .changeThreshold 2].length ≤ ops.length := by
  refine ⟨by rfl, ?_⟩
  intro shortest
  obtain ⟨final, accepted, owners, threshold⟩
      : ∃ final, loneOwner.execute [.addOwner (lowAddress 3) 2] = some final
        ∧ final.owners = [lowAddress 3, lowAddress 2] ∧ final.threshold = 2 :=
    ⟨_, rfl, rfl, rfl⟩
  have tooLong := shortest [.addOwner (lowAddress 3) 2] final accepted
    (owners ▸ List.Perm.swap _ _ _) threshold
  exact absurd tooLong (by decide)

end PerpDex.SafeProjection
