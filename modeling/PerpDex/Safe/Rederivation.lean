import PerpDex.Safe.Reconciliation
import PerpDex.Lib.Wire

/-! Deriving the plan again between its steps. Each node plans from its own reading of the
chain and signs only step 0, so what matters is that the plan of a Safe one call further is
the rest of the plan.
-/

namespace PerpDex.SafeProjection

open LinkedList

-----------------------------------------------------------------------------------------
-- The shape of a plan
-----------------------------------------------------------------------------------------

/-- The target owners that a list of owners lacks. -/
def wanting (target list : List EvmAddress) : List EvmAddress :=
  target.filter (fun want => !list.contains want)

/-- The owners that the target does not have. -/
def straying (target list : List EvmAddress) : List EvmAddress :=
  list.filter (fun owner => !target.contains owner)

def loweredThreshold (targetThreshold standing : Nat) : List SafeOp :=
  if targetThreshold < standing then [.changeThreshold targetThreshold] else []

def raisedThreshold (targetThreshold standing : Nat) : List SafeOp :=
  if standing < targetThreshold then [.changeThreshold targetThreshold] else []

/-- The owner calls of a plan alone, from the list they start at. -/
def ownerSteps (workingThreshold : Nat)
    : List EvmAddress → List EvmAddress → List EvmAddress → Except String (List SafeOp)
  | list, newOwner :: toAdd, old :: toRemove => do
      let idx ← position list old
      let rest ← ownerSteps workingThreshold (list.set idx newOwner) toAdd toRemove
      return .swapOwner (before sentinelOwners list idx) old newOwner :: rest
  | list, want :: toAdd, [] => do
      let rest ← ownerSteps workingThreshold (want :: list) toAdd []
      return .addOwner want workingThreshold :: rest
  | list, [], owner :: toRemove => do
      let idx ← position list owner
      if list.length - 1 < workingThreshold then
        .error
          ("removing " ++ Hex.encode owner.toList ++ " would leave "
            ++ toString (list.length - 1) ++ " owners under threshold "
            ++ toString workingThreshold)
      else
        let rest ← ownerSteps workingThreshold (list.eraseIdx idx) [] toRemove
        return .removeOwner (before sentinelOwners list idx) owner workingThreshold :: rest
  | _, [], [] => .ok []
termination_by _ toAdd toRemove => toAdd.length + toRemove.length

/-- A draft's plan with more calls behind it. -/
def Draft.continued (draft : Draft) (more : Except String (List SafeOp))
    : Except String (List SafeOp) :=
  more.map (fun ops => draft.plan ++ ops)

/-- A call pushed on the draft is the first of the calls that follow it. -/
theorem Draft.continued_push (draft : Draft) (op : SafeOp) (list : List EvmAddress)
    (more : Except String (List SafeOp))
    : (draft.push op list).continued more
      = draft.continued (do let rest ← more; return op :: rest) := by
  cases more with
  | error reason => rfl
  | ok rest =>
      show Except.ok _ = Except.ok _
      simp [Draft.push]

/-- With a call in front, a plan starts with that call and goes on with the rest. -/
theorem callFirst_eq_ok_iff {more : Except String (List SafeOp)} {op first : SafeOp}
    {rest : List SafeOp}
    : (do let later ← more; return op :: later) = .ok (first :: rest)
      ↔ op = first ∧ more = .ok rest := by
  rw [Except.bind_eq_ok_iff]
  constructor
  · rintro ⟨later, planned, same⟩
    obtain ⟨isFirst, rfl⟩ := List.cons.inj (Except.ok.inj same)
    exact ⟨isFirst, planned⟩
  · rintro ⟨rfl, planned⟩
    exact ⟨rest, planned, rfl⟩

theorem callFirst_ne_nil (more : Except String (List SafeOp)) (op : SafeOp)
    : (do let later ← more; return op :: later) ≠ .ok [] := by
  intro nothing
  obtain ⟨later, -, same⟩ := Except.bind_eq_ok_iff.mp nothing
  cases same

theorem planRemovals_plan (workingThreshold : Nat) (draft : Draft) (toRemove : List EvmAddress)
    : (planRemovals workingThreshold draft toRemove).map Draft.plan
      = draft.continued (ownerSteps workingThreshold draft.list [] toRemove) := by
  induction toRemove generalizing draft with
  | nil =>
      rw [planRemovals, ownerSteps, Draft.continued]
      simp [Except.map]
  | cons owner toRemove ih =>
      rw [planRemovals, ownerSteps]
      cases position draft.list owner with
      | error reason => rfl
      | ok idx =>
          simp only [bind, Except.bind]
          split
          · rfl
          · rw [ih, Draft.continued_push]
            rfl

theorem planAdds_plan (workingThreshold : Nat) (draft : Draft) (toAdd toRemove : List EvmAddress)
    (apart : toAdd = [] ∨ toRemove = [])
    : (planRemovals workingThreshold (planAdds workingThreshold draft toAdd) toRemove).map
        Draft.plan
      = draft.continued (ownerSteps workingThreshold draft.list toAdd toRemove) := by
  induction toAdd generalizing draft with
  | nil => exact planRemovals_plan workingThreshold draft toRemove
  | cons want toAdd ih =>
      obtain rfl : toRemove = [] := apart.resolve_left (by simp)
      rw [planAdds, ih _ (.inr rfl), ownerSteps, Draft.continued_push]
      rfl

/-- The three loops in a row push exactly the owner calls. -/
theorem loops_plan (workingThreshold : Nat) (draft : Draft) (toAdd toRemove : List EvmAddress)
    : (do
        let swapped ← planSwaps draft toAdd toRemove
        planRemovals workingThreshold (planAdds workingThreshold swapped.draft swapped.toAdd)
          swapped.toRemove).map Draft.plan
      = draft.continued (ownerSteps workingThreshold draft.list toAdd toRemove) := by
  induction toAdd generalizing draft toRemove with
  | nil =>
      rw [planSwaps.eq_def]
      exact planAdds_plan workingThreshold draft [] toRemove (.inl rfl)
  | cons newOwner toAdd ih =>
      cases toRemove with
      | nil =>
          rw [planSwaps.eq_def]
          exact planAdds_plan workingThreshold draft (newOwner :: toAdd) [] (.inr rfl)
      | cons old toRemove =>
          rw [planSwaps, ownerSteps]
          cases position draft.list old with
          | error reason => rfl
          | ok idx =>
              have later := ih (draft.push
                (.swapOwner (before sentinelOwners draft.list idx) old newOwner)
                (draft.list.set idx newOwner)) toRemove
              rw [Draft.continued_push] at later
              exact later

/-- A plan is a lowered threshold, the owner calls, and a raised threshold. -/
theorem planReconciliation_eq {owners target : List EvmAddress} {standing targetThreshold : Nat}
    (pos : 1 ≤ targetThreshold) (fits : targetThreshold ≤ target.length)
    : planReconciliation owners standing target targetThreshold
      = (ownerSteps (min targetThreshold standing) owners (wanting target owners)
          (straying target owners)).map
        (fun steps =>
          loweredThreshold targetThreshold standing ++ steps
          ++ raisedThreshold targetThreshold standing) := by
  have loops := loops_plan (min targetThreshold standing)
    { plan := loweredThreshold targetThreshold standing, list := owners }
    (wanting target owners) (straying target owners)
  have nonempty : ¬ target.isEmpty = true := by
    intro empty
    rw [List.isEmpty_iff.mp empty] at fits
    exact absurd (pos.trans fits) (by simp)
  have inRange : ¬ (targetThreshold = 0 ∨ target.length < targetThreshold) := by omega
  have assembled
      : planReconciliation owners standing target targetThreshold
        = ((do
            let swapped ← planSwaps
              { plan := loweredThreshold targetThreshold standing, list := owners }
              (wanting target owners) (straying target owners)
            planRemovals (min targetThreshold standing)
              (planAdds (min targetThreshold standing) swapped.draft swapped.toAdd)
              swapped.toRemove).map Draft.plan).map
          (fun plan => plan ++ raisedThreshold targetThreshold standing) := by
    rw [planReconciliation, if_neg nonempty, if_neg inRange, raisedThreshold]
    simp only [loweredThreshold, wanting, straying]
    cases planSwaps _ _ _ with
    | error reason => rfl
    | ok swapped =>
        simp only [bind, Except.bind]
        cases planRemovals _ _ _ with
        | error reason => rfl
        | ok final =>
            by_cases raise : standing < targetThreshold <;>
              simp [raise, Except.map, pure, Except.pure]
  rw [assembled, loops, Draft.continued]
  cases ownerSteps _ _ _ _ with
  | error reason => rfl
  | ok steps => rfl

/-- A plan is only made for a threshold that the target can meet. -/
theorem bounds_of_planReconciliation {owners target : List EvmAddress}
    {standing targetThreshold : Nat} {plan : List SafeOp}
    (planned : planReconciliation owners standing target targetThreshold = .ok plan)
    : 1 ≤ targetThreshold ∧ targetThreshold ≤ target.length := by
  rw [planReconciliation] at planned
  split at planned
  · cases planned
  · split at planned
    · cases planned
    · omega

-----------------------------------------------------------------------------------------
-- The work left after one call
-----------------------------------------------------------------------------------------

theorem mem_wanting {target list : List EvmAddress} {owner : EvmAddress}
    : owner ∈ wanting target list ↔ owner ∈ target ∧ owner ∉ list := by
  simp [wanting]

theorem mem_straying {target list : List EvmAddress} {owner : EvmAddress}
    : owner ∈ straying target list ↔ owner ∈ list ∧ owner ∉ target := by
  simp [straying]

/-- Gaining the first wanted owner leaves the others wanted, in their order. -/
theorem wanting_of_gained {target list gained toAdd : List EvmAddress} {newOwner : EvmAddress}
    (nodup : target.Nodup) (wanted : wanting target list = newOwner :: toAdd)
    (gains : ∀ owner ∈ target, owner ∈ gained ↔ owner = newOwner ∨ owner ∈ list)
    : wanting target gained = toAdd := by
  have fresh : newOwner ∉ toAdd := by
    have sublist : (newOwner :: toAdd).Nodup := wanted ▸ nodup.filter _
    exact (List.nodup_cons.mp sublist).1
  calc wanting target gained
      = (wanting target list).filter (fun owner => owner != newOwner) := by
        rw [wanting, wanting, List.filter_filter]
        refine List.filter_congr ?_
        intro owner member
        have := gains owner member
        by_cases same : owner = newOwner <;> by_cases inside : owner ∈ list <;>
          simp_all
    _ = toAdd.filter (fun owner => owner != newOwner) := by
        rw [wanted]
        simp
    _ = toAdd := by
        refine List.filter_eq_self.mpr ?_
        intro owner inside
        simpa using fun same : owner = newOwner => fresh (same ▸ inside)

/-- Losing an owner that is no target owner leaves the same ones wanted. -/
theorem wanting_of_lost {target list left : List EvmAddress}
    (keeps : ∀ owner ∈ target, owner ∈ left ↔ owner ∈ list)
    : wanting target left = wanting target list := by
  refine List.filter_congr ?_
  intro owner member
  simp [keeps owner member]

theorem straying_append (target front back : List EvmAddress)
    : straying target (front ++ back) = straying target front ++ straying target back :=
  List.filter_append _ _

theorem straying_cons_of_mem {target list : List EvmAddress} {owner : EvmAddress}
    (member : owner ∈ target)
    : straying target (owner :: list) = straying target list := by
  simp [straying, member]

/-- Around the first stray owner, none is in front and the others are behind. -/
theorem straying_split {target front back toRemove : List EvmAddress} {old : EvmAddress}
    (strays : straying target (front ++ old :: back) = old :: toRemove) (absent : old ∉ front)
    : straying target front = [] ∧ straying target back = toRemove := by
  have inside : old ∈ straying target (front ++ old :: back) := by
    rw [strays]
    exact List.mem_cons_self
  have stray : old ∉ target := (mem_straying.mp inside).2
  have parts : straying target (front ++ old :: back)
      = straying target front ++ old :: straying target back := by
    simp [straying, stray]
  rw [parts] at strays
  cases found : straying target front with
  | nil =>
      rw [found] at strays
      exact ⟨rfl, (List.cons.inj strays).2⟩
  | cons first others =>
      rw [found] at strays
      have sameFirst : first = old := (List.cons.inj strays).1
      have inFront : first ∈ straying target front := by
        rw [found]
        exact List.mem_cons_self
      exact absurd (mem_straying.mp inFront).1 (sameFirst ▸ absent)

/-- A call that executes under the standing threshold and leaves this work to do. -/
structure Safe.Leaves (safe : Safe) (target : List EvmAddress) (op : SafeOp) (next : Safe)
    (toAdd toRemove : List EvmAddress) : Prop where
  accepted : safe.exec op = some next
  threshold : next.threshold = safe.threshold
  wants : wanting target next.owners = toAdd
  strays : straying target next.owners = toRemove

/-- From the Safe that a call leads to, the calls for the work it leaves are the plan. -/
theorem Safe.Leaves.continues {safe next : Safe} {target toAdd toRemove : List EvmAddress}
    {op : SafeOp} {rest : List SafeOp} (leaves : safe.Leaves target op next toAdd toRemove)
    (planned : ownerSteps safe.threshold next.owners toAdd toRemove = .ok rest)
    : ∃ next, safe.exec op = some next ∧ next.threshold = safe.threshold
      ∧ ownerSteps safe.threshold next.owners (wanting target next.owners)
          (straying target next.owners)
        = .ok rest := by
  refine ⟨next, leaves.accepted, leaves.threshold, ?_⟩
  rw [leaves.wants, leaves.strays]
  exact planned

namespace Safe

variable (safe : Safe) {target toAdd toRemove : List EvmAddress}

/-- The first wanted owner takes the place of the first stray one. -/
theorem leaves_swapOwner (proper : ProperTarget target) {newOwner old : EvmAddress}
    (wanted : wanting target safe.owners = newOwner :: toAdd)
    (strays : straying target safe.owners = old :: toRemove)
    : ∃ idx next, position safe.owners old = .ok idx
      ∧ safe.Leaves target (.swapOwner (before sentinelOwners safe.owners idx) old newOwner) next
        toAdd toRemove
      ∧ next.owners = safe.owners.set idx newOwner := by
  obtain ⟨inTarget, fresh⟩ := mem_wanting.mp (wanted ▸ List.mem_cons_self)
  obtain ⟨inOwners, stray⟩ := mem_straying.mp (strays ▸ List.mem_cons_self)
  obtain ⟨notZero, notSentinel⟩ := proper.ne inTarget
  obtain ⟨front, back, split, absent, found⟩ := position_eq_ok inOwners
  obtain ⟨next, accepted, owners, threshold⟩ :=
    safe.exec_swapOwner split absent notZero notSentinel fresh
  refine ⟨front.length, next, found, ⟨accepted, threshold, ?_, ?_⟩, ?_⟩
  · refine wanting_of_gained proper.nodup wanted ?_
    intro owner member
    have notOld : owner ≠ old := fun same => stray (same ▸ member)
    rw [owners, split]
    simp only [List.mem_append, List.mem_cons, notOld, false_or]
    exact or_left_comm
  · rw [split] at strays
    obtain ⟨noneBefore, othersBehind⟩ := straying_split strays absent
    rw [owners, straying_append, straying_cons_of_mem inTarget, noneBefore, othersBehind]
    rfl
  · rw [owners, split]
    simp

/-- The first wanted owner is put at the head. -/
theorem leaves_addOwner (proper : ProperTarget target) {newOwner : EvmAddress}
    (wanted : wanting target safe.owners = newOwner :: toAdd)
    (strays : straying target safe.owners = [])
    : ∃ next, safe.Leaves target (.addOwner newOwner safe.threshold) next toAdd []
      ∧ next.owners = newOwner :: safe.owners := by
  obtain ⟨inTarget, fresh⟩ := mem_wanting.mp (wanted ▸ List.mem_cons_self)
  obtain ⟨notZero, notSentinel⟩ := proper.ne inTarget
  obtain ⟨next, accepted, owners, threshold⟩ := safe.exec_addOwner notZero notSentinel fresh
  refine ⟨next, ⟨accepted, threshold, ?_, ?_⟩, owners⟩
  · refine wanting_of_gained proper.nodup wanted ?_
    intro owner member
    rw [owners, List.mem_cons]
  · rw [owners, straying_cons_of_mem inTarget]
    exact strays

/-- The first stray owner is taken out. -/
theorem leaves_removeOwner {old : EvmAddress} (wanted : wanting target safe.owners = [])
    (strays : straying target safe.owners = old :: toRemove)
    (enough : safe.threshold ≤ safe.owners.length - 1)
    : ∃ idx next, position safe.owners old = .ok idx
      ∧ safe.Leaves target
        (.removeOwner (before sentinelOwners safe.owners idx) old safe.threshold) next [] toRemove
      ∧ next.owners = safe.owners.eraseIdx idx := by
  obtain ⟨inOwners, stray⟩ := mem_straying.mp (strays ▸ List.mem_cons_self)
  obtain ⟨front, back, split, absent, found⟩ := position_eq_ok inOwners
  obtain ⟨next, accepted, owners, threshold⟩ := safe.exec_removeOwner split absent enough
  refine ⟨front.length, next, found, ⟨accepted, threshold, ?_, ?_⟩, ?_⟩
  · rw [← wanted]
    refine wanting_of_lost ?_
    intro owner member
    have notOld : owner ≠ old := fun same => stray (same ▸ member)
    rw [owners, split]
    simp [notOld]
  · rw [split] at strays
    obtain ⟨noneBefore, othersBehind⟩ := straying_split strays absent
    rw [owners, straying_append, noneBefore, othersBehind]
    rfl
  · rw [owners, split]
    simp [List.eraseIdx_append_of_length_le]

end Safe

/-- The first owner call executes, and what is left to do from the Safe it leads to are the
calls behind it. Witness: one case a kind of owner call.
-/
theorem ownerSteps_continue (safe : Safe) {target : List EvmAddress}
    (proper : ProperTarget target) {op : SafeOp} {rest : List SafeOp}
    (steps
      : ownerSteps safe.threshold safe.owners (wanting target safe.owners)
          (straying target safe.owners)
        = .ok (op :: rest))
    : ∃ next, safe.exec op = some next ∧ next.threshold = safe.threshold
      ∧ ownerSteps safe.threshold next.owners (wanting target next.owners)
          (straying target next.owners)
        = .ok rest := by
  cases wanted : wanting target safe.owners with
  | cons newOwner toAdd =>
      cases strays : straying target safe.owners with
      | cons old toRemove =>
          obtain ⟨idx, next, found, leaves, owners⟩ :=
            safe.leaves_swapOwner proper wanted strays
          rw [wanted, strays, ownerSteps] at steps
          obtain ⟨place, placeFound, steps⟩ := Except.bind_eq_ok_iff.mp steps
          obtain rfl : place = idx := Except.ok.inj (placeFound.symm.trans found)
          obtain ⟨rfl, planned⟩ := callFirst_eq_ok_iff.mp steps
          rw [← owners] at planned
          exact leaves.continues planned
      | nil =>
          obtain ⟨next, leaves, owners⟩ := safe.leaves_addOwner proper wanted strays
          rw [wanted, strays, ownerSteps] at steps
          obtain ⟨rfl, planned⟩ := callFirst_eq_ok_iff.mp steps
          rw [← owners] at planned
          exact leaves.continues planned
  | nil =>
      cases strays : straying target safe.owners with
      | cons old toRemove =>
          rw [wanted, strays, ownerSteps] at steps
          obtain ⟨idx, found, steps⟩ := Except.bind_eq_ok_iff.mp steps
          split at steps
          · cases steps
          · rename_i enough
            obtain ⟨place, next, placeFound, leaves, owners⟩ :=
              safe.leaves_removeOwner wanted strays (Nat.not_lt.mp enough)
            obtain rfl : idx = place := Except.ok.inj (found.symm.trans placeFound)
            obtain ⟨rfl, planned⟩ := callFirst_eq_ok_iff.mp steps
            rw [← owners] at planned
            exact leaves.continues planned
      | nil =>
          rw [wanted, strays, ownerSteps] at steps
          cases steps

/-- No owner call is planned only if no owner is wanted or stray. -/
theorem ownerSteps_eq_nil {workingThreshold : Nat} {list toAdd toRemove : List EvmAddress}
    (none : ownerSteps workingThreshold list toAdd toRemove = .ok [])
    : toAdd = [] ∧ toRemove = [] := by
  cases toAdd with
  | cons newOwner toAdd =>
      cases toRemove with
      | cons old toRemove =>
          rw [ownerSteps] at none
          obtain ⟨idx, -, none⟩ := Except.bind_eq_ok_iff.mp none
          exact absurd none (callFirst_ne_nil _ _)
      | nil =>
          rw [ownerSteps] at none
          exact absurd none (callFirst_ne_nil _ _)
  | nil =>
      cases toRemove with
      | cons owner toRemove =>
          rw [ownerSteps] at none
          obtain ⟨idx, -, none⟩ := Except.bind_eq_ok_iff.mp none
          split at none
          · cases none
          · exact absurd none (callFirst_ne_nil _ _)
      | nil => exact ⟨rfl, rfl⟩

/-- Where no owner is wanted, all target owners are there. -/
theorem subset_of_wanting_eq_nil {target list : List EvmAddress}
    (none : wanting target list = [])
    : target ⊆ list := by
  intro owner member
  by_contra missing
  have wanted : owner ∈ wanting target list := mem_wanting.mpr ⟨member, missing⟩
  rw [none] at wanted
  cases wanted

/-- The plan of the Safe one call further is the rest of the plan.
Witness: a lowered threshold is in place, an owner call leaves the calls behind it, and a
raised threshold comes only when no owner call is left.
-/
theorem planReconciliation_step (safe : Safe) {target : List EvmAddress}
    (proper : ProperTarget target) {targetThreshold : Nat} {op : SafeOp} {rest : List SafeOp}
    (planned
      : planReconciliation safe.owners safe.threshold target targetThreshold
        = .ok (op :: rest))
    : ∃ next, safe.exec op = some next
      ∧ planReconciliation next.owners next.threshold target targetThreshold = .ok rest := by
  obtain ⟨pos, fits⟩ := bounds_of_planReconciliation planned
  rw [planReconciliation_eq pos fits] at planned
  obtain ⟨steps, found, same⟩ := Except.map_eq_ok_iff.mp planned
  rcases Nat.lt_or_ge targetThreshold safe.threshold with lower | atLeast
  · have noRaise : ¬ safe.threshold < targetThreshold := Nat.not_lt.mpr lower.le
    rw [loweredThreshold, if_pos lower, raisedThreshold, if_neg noRaise, List.append_nil] at same
    obtain ⟨rfl, rfl⟩ := List.cons.inj same
    obtain ⟨next, accepted, owners, threshold⟩ :=
      safe.exec_changeThreshold pos (lower.le.trans safe.thresholdLe)
    refine ⟨next, accepted, ?_⟩
    rw [min_eq_left lower.le] at found
    rw [planReconciliation_eq pos fits, owners, threshold, min_self, found]
    simp [Except.map, loweredThreshold, raisedThreshold]
  · have noLowering : ¬ targetThreshold < safe.threshold := Nat.not_lt.mpr atLeast
    rw [min_eq_right atLeast] at found
    rw [loweredThreshold, if_neg noLowering, List.nil_append] at same
    cases steps with
    | cons first others =>
        obtain ⟨rfl, rfl⟩ := List.cons.inj same
        obtain ⟨next, accepted, threshold, left⟩ := ownerSteps_continue safe proper found
        refine ⟨next, accepted, ?_⟩
        rw [planReconciliation_eq pos fits, threshold, min_eq_right atLeast, left]
        simp [Except.map, loweredThreshold, noLowering]
    | nil =>
        have raise : safe.threshold < targetThreshold := by
          by_contra noRaise
          rw [raisedThreshold, if_neg noRaise] at same
          cases same
        rw [raisedThreshold, if_pos raise] at same
        obtain ⟨rfl, rfl⟩ := List.cons.inj same
        obtain ⟨wantsNone, straysNone⟩ := ownerSteps_eq_nil found
        have covered := subset_of_wanting_eq_nil wantsNone
        have enough : targetThreshold ≤ safe.owners.length :=
          fits.trans (proper.nodup.subperm covered).length_le
        obtain ⟨next, accepted, owners, threshold⟩ := safe.exec_changeThreshold pos enough
        refine ⟨next, accepted, ?_⟩
        rw [planReconciliation_eq pos fits, owners, threshold, wantsNone, straysNone, ownerSteps]
        simp [Except.map, loweredThreshold, raisedThreshold]

/-- Nothing is planned only for a Safe that has the target owners and threshold. -/
theorem inSync_of_plan_eq_nil (safe : Safe) {target : List EvmAddress} {targetThreshold : Nat}
    (nodup : target.Nodup)
    (nothing
      : planReconciliation safe.owners safe.threshold target targetThreshold = .ok [])
    : safe.owners.Perm target ∧ safe.threshold = targetThreshold := by
  obtain ⟨pos, fits⟩ := bounds_of_planReconciliation nothing
  rw [planReconciliation_eq pos fits] at nothing
  obtain ⟨steps, found, same⟩ := Except.map_eq_ok_iff.mp nothing
  obtain ⟨front, noRaise⟩ := List.append_eq_nil_iff.mp same
  obtain ⟨noLowering, noSteps⟩ := List.append_eq_nil_iff.mp front
  constructor
  · rw [noSteps] at found
    obtain ⟨wantsNone, straysNone⟩ := ownerSteps_eq_nil found
    rw [List.perm_ext_iff_of_nodup safe.nodup nodup]
    refine fun owner => ⟨fun inside => ?_, fun inTarget =>
      subset_of_wanting_eq_nil wantsNone inTarget⟩
    by_contra outside
    have strays : owner ∈ straying target safe.owners := mem_straying.mpr ⟨inside, outside⟩
    rw [straysNone] at strays
    cases strays
  · rw [loweredThreshold] at noLowering
    rw [raisedThreshold] at noRaise
    split at noLowering
    · cases noLowering
    · split at noRaise
      · cases noRaise
      · omega

/-- After any part of the plan has been executed, the plan is the part not yet executed. -/
theorem planReconciliation_run {start : Safe} {target : List EvmAddress}
    (proper : ProperTarget target) {targetThreshold : Nat} {executed ahead : List SafeOp}
    (planned
      : planReconciliation start.owners start.threshold target targetThreshold
        = .ok (executed ++ ahead))
    : ∃ reached, start.execute executed = some reached
      ∧ planReconciliation reached.owners reached.threshold target targetThreshold
        = .ok ahead := by
  induction executed generalizing start with
  | nil => exact ⟨start, rfl, planned⟩
  | cons op executed ih =>
      obtain ⟨next, accepted, left⟩ := planReconciliation_step start proper planned
      obtain ⟨reached, run, rest⟩ := ih left
      refine ⟨reached, ?_, rest⟩
      rw [Safe.execute, accepted]
      exact run

-----------------------------------------------------------------------------------------
-- What a node derives
-----------------------------------------------------------------------------------------

/-- A cluster member, as each chain names it. -/
structure MemberIdentity where
  name : String
  accountId : AccountId
  evmAddress : EvmAddress

/-- Exactly the sealed members, as the Safe names them, in ascending order. -/
def projectOwnerSet (sealedMembers : List AccountId) (known : List MemberIdentity)
    : Except String (List EvmAddress) :=
  if sealedMembers.isEmpty then .error "sealed membership is empty — nothing to project"
  else do
    let out ← sealedMembers.mapM (fun sealedMember =>
      (okOr (known.find? (fun identity => identity.accountId == sealedMember))
        ("sealed member " ++ Hex.encode sealedMember.toList
          ++ " has no known public key — cannot project it onto the Safe")).map
        MemberIdentity.evmAddress)
    return out.insertionSort (fun left right => left.toList ≤ right.toList)

/-- What a node reads for itself: its enclave's sealed membership and epoch, its own record
of the members' keys, and the owners and threshold on the chain.
-/
structure NodeView where
  sealedMembers : Except String (List AccountId)
  known : Except String (List MemberIdentity)
  chain : Except String (List EvmAddress × Nat)
  authorityEpoch : Except String Nat

/-- The chain shows this Safe, and the sealed membership of this epoch implies these owners. -/
structure NodeView.Sees (view : NodeView) (safe : Safe) (target : List EvmAddress)
    (epoch : Nat) : Prop where
  chain : view.chain = .ok (safe.owners, safe.threshold)
  projected
    : (do
        let sealedMembers ← view.sealedMembers
        let known ← view.known
        projectOwnerSet sealedMembers known) = .ok target
  authorityEpoch : view.authorityEpoch = .ok epoch

/-- ABI word for an address. -/
def wordAddr (address : EvmAddress) : List UInt8 := List.replicate 12 0 ++ address.toList

/-- ABI word for a `u64`. -/
def wordU64 (value : Nat) : List UInt8 := List.replicate 24 0 ++ Wire.beBytes 8 value

def SafeOp.signature : SafeOp → String
  | .addOwner _ _ => "addOwnerWithThreshold(address,uint256)"
  | .removeOwner _ _ _ => "removeOwner(address,address,uint256)"
  | .swapOwner _ _ _ => "swapOwner(address,address,address)"
  | .changeThreshold _ => "changeThreshold(uint256)"

/-- One convergence step. -/
structure DerivedStep where
  op : SafeOp
  calldata : List UInt8
  safeTxHash : Digest
  planLen : Nat
deriving DecidableEq

section Derivation

variable (keccak256 : List UInt8 → Digest)

/-- A selector, then one word an argument. -/
def SafeOp.calldata (op : SafeOp) : List UInt8 :=
  (keccak256 (utf8 op.signature)).toList.take 4
  ++ match op with
    | .addOwner owner threshold => wordAddr owner ++ wordU64 threshold
    | .removeOwner prevOwner owner threshold =>
        wordAddr prevOwner ++ wordAddr owner ++ wordU64 threshold
    | .swapOwner prevOwner oldOwner newOwner =>
        wordAddr prevOwner ++ wordAddr oldOwner ++ wordAddr newOwner
    | .changeThreshold threshold => wordU64 threshold

/-- The hash that the quorum signs; value, operation and the gas fields are zero. -/
def safeTxHash (safe : EvmAddress) (chainId : Nat) (recipient : EvmAddress) (data : List UInt8)
    (nonce : Nat) : Digest :=
  let zeroWord := List.replicate 32 (0 : UInt8)
  let domain := keccak256
    ((keccak256 (utf8 "EIP712Domain(uint256 chainId,address verifyingContract)")).toList
      ++ wordU64 chainId ++ wordAddr safe)
  let structHash := keccak256
    ((keccak256
        (utf8
          ("SafeTx(address to,uint256 value,bytes data,uint8 operation,uint256 safeTxGas,"
            ++ "uint256 baseGas,uint256 gasPrice,address gasToken,address refundReceiver,"
            ++ "uint256 nonce)"))).toList
      ++ wordAddr recipient ++ zeroWord ++ (keccak256 data).toList ++ zeroWord ++ zeroWord
      ++ zeroWord ++ zeroWord ++ zeroWord ++ zeroWord ++ wordU64 nonce)
  keccak256 ([0x19, 0x01] ++ domain.toList ++ structHash.toList)

/-- The step that carries an operation of the Safe at a nonce; owner management is a
self-call.
-/
def stepOf (safe : EvmAddress) (chainId safeNonce planLen : Nat) (op : SafeOp) : DerivedStep :=
  { op
    calldata := op.calldata keccak256
    safeTxHash := safeTxHash keccak256 safe chainId safe (op.calldata keccak256) safeNonce
    planLen }

/-- The caller says only which step of the plan it wants. -/
def deriveStep (view : NodeView) (safe : EvmAddress)
    (chainId expectedEpoch targetThreshold stepIndex safeNonce : Nat)
    : Except String DerivedStep := do
  let sealedMembers ← view.sealedMembers
  let known ← view.known
  let target ← projectOwnerSet sealedMembers known
  let current ← view.chain
  let plan ← planReconciliation current.1 current.2 target targetThreshold
  if plan.isEmpty then .error "already in sync — nothing to converge"
  else
    let op ← okOr plan[stepIndex]?
      ("step " ++ toString stepIndex ++ " is past the end of a " ++ toString plan.length
        ++ "-step plan")
    let epoch ← view.authorityEpoch
    if epoch ≠ expectedEpoch then
      .error
        ("this node's sealed authority epoch is " ++ toString epoch ++ ", caller expected "
          ++ toString expectedEpoch)
    else return stepOf keccak256 safe chainId safeNonce plan.length op

/-- What a node derives depends on the chain it reads and on the plan alone. -/
theorem deriveStep_of_sees {view : NodeView} {reached : Safe} {target : List EvmAddress}
    {epoch targetThreshold : Nat} {plan : List SafeOp} (sees : view.Sees reached target epoch)
    (planned
      : planReconciliation reached.owners reached.threshold target targetThreshold = .ok plan)
    (safe : EvmAddress) (chainId stepIndex safeNonce : Nat)
    : deriveStep keccak256 view safe chainId epoch targetThreshold stepIndex safeNonce
      = if plan.isEmpty then .error "already in sync — nothing to converge"
        else
          (okOr plan[stepIndex]?
            ("step " ++ toString stepIndex ++ " is past the end of a " ++ toString plan.length
              ++ "-step plan")).map
            (stepOf keccak256 safe chainId safeNonce plan.length) := by
  obtain ⟨sealedMembers, readSealed, projected⟩ := Except.bind_eq_ok_iff.mp sees.projected
  obtain ⟨known, readKnown, projected⟩ := Except.bind_eq_ok_iff.mp projected
  rw [deriveStep, readSealed, readKnown, sees.chain, sees.authorityEpoch]
  simp only [bind, Except.bind, projected, planned]
  split
  · rfl
  · cases okOr plan[stepIndex]? _ with
    | error reason => rfl
    | ok op => simp [Except.map, pure, Except.pure]

/-- Step 0 of a plan that is not empty. -/
theorem deriveStep_zero {view : NodeView} {reached : Safe} {target : List EvmAddress}
    {epoch targetThreshold : Nat} {op : SafeOp} {rest : List SafeOp}
    (sees : view.Sees reached target epoch)
    (planned
      : planReconciliation reached.owners reached.threshold target targetThreshold
        = .ok (op :: rest))
    (safe : EvmAddress) (chainId safeNonce : Nat)
    : deriveStep keccak256 view safe chainId epoch targetThreshold 0 safeNonce
      = .ok (stepOf keccak256 safe chainId safeNonce (rest.length + 1) op) := by
  rw [deriveStep_of_sees keccak256 sees planned]
  rfl

end Derivation

/-- Step 0 of the standing plan is executed again and again, until nothing is planned; with
the operations executed. No result means a refusal, a revert, or that the fuel ran out.
-/
def repeatStepZero (target : List EvmAddress) (targetThreshold : Nat)
    : Nat → Safe → Option (List SafeOp × Safe)
  | 0, _ => none
  | fuel + 1, safe =>
      match planReconciliation safe.owners safe.threshold target targetThreshold with
      | .error _ => none
      | .ok [] => some ([], safe)
      | .ok (op :: _) => do
          let next ← safe.exec op
          let (ops, final) ← repeatStepZero target targetThreshold fuel next
          some (op :: ops, final)

/-- Repeating step 0 executes the plan of the start, call by call, and then stops. -/
theorem repeatStepZero_eq {start : Safe} {target : List EvmAddress}
    (proper : ProperTarget target) {targetThreshold : Nat} {plan : List SafeOp}
    (planned
      : planReconciliation start.owners start.threshold target targetThreshold = .ok plan)
    {fuel : Nat} (enough : plan.length < fuel)
    : ∃ final, start.execute plan = some final
      ∧ repeatStepZero target targetThreshold fuel start = some (plan, final) := by
  induction plan generalizing start fuel with
  | nil =>
      obtain ⟨fuel, rfl⟩ := Nat.exists_eq_add_of_lt enough
      refine ⟨start, rfl, ?_⟩
      rw [List.length_nil, Nat.zero_add, repeatStepZero, planned]
  | cons op rest ih =>
      obtain ⟨fuel, rfl⟩ : ∃ less, fuel = less + 1 := ⟨fuel - 1, by omega⟩
      obtain ⟨next, accepted, left⟩ := planReconciliation_step start proper planned
      obtain ⟨final, executed, repeated⟩ := ih left (Nat.lt_of_succ_lt_succ enough)
      refine ⟨final, ?_, ?_⟩
      · rw [Safe.execute, accepted]
        exact executed
      · rw [repeatStepZero, planned]
        simp [accepted, repeated]

/-- Planning again from the Safe that the first operation leads to gives exactly the rest.
Hence whatever part of the plan has been executed, every node that reads the chain then
derives as step 0 the next operation of the plan made at the start, or that nothing is left;
and repeating step 0 executes that plan and stops at the target.
-/
theorem rederivation_continues (keccak256 : List UInt8 → Digest) (start : Safe)
    (target : List EvmAddress) (targetThreshold : Nat) (op : SafeOp) (rest : List SafeOp)
    (nodup : target.Nodup) (noZero : zeroAddress ∉ target)
    (noSentinel : sentinelOwners ∉ target)
    (planned
      : planReconciliation start.owners start.threshold target targetThreshold
        = .ok (op :: rest))
    : (∃ next, start.exec op = some next
        ∧ planReconciliation next.owners next.threshold target targetThreshold = .ok rest)
      ∧ (∀ executed ahead, executed ++ ahead = op :: rest
        → ∃ reached, start.execute executed = some reached
          ∧ ∀ view epoch safe chainId safeNonce, NodeView.Sees view reached target epoch
            → deriveStep keccak256 view safe chainId epoch targetThreshold 0 safeNonce
              = ahead.head?.elim (.error "already in sync — nothing to converge")
                (fun nextOp =>
                  .ok (stepOf keccak256 safe chainId safeNonce ahead.length nextOp)))
      ∧ ∃ final, ∀ fuel, (op :: rest).length < fuel
          → repeatStepZero target targetThreshold fuel start = some (op :: rest, final)
            ∧ final.owners.Perm target ∧ final.threshold = targetThreshold := by
  have proper : ProperTarget target := ⟨nodup, noZero, noSentinel⟩
  refine ⟨planReconciliation_step start proper planned, ?_, ?_⟩
  · intro executed ahead split
    rw [← split] at planned
    obtain ⟨reached, run, left⟩ := planReconciliation_run proper planned
    refine ⟨reached, run, ?_⟩
    intro view epoch safe chainId safeNonce sees
    cases ahead with
    | nil => exact deriveStep_of_sees keccak256 sees left safe chainId 0 safeNonce
    | cons nextOp later => exact deriveStep_zero keccak256 sees left safe chainId safeNonce
  · have whole := planned
    rw [← List.append_nil (op :: rest)] at whole
    obtain ⟨final, run, nothing⟩ := planReconciliation_run proper whole
    obtain ⟨owners, threshold⟩ := inSync_of_plan_eq_nil final nodup nothing
    refine ⟨final, ?_⟩
    intro fuel enough
    obtain ⟨last, executed, repeated⟩ := repeatStepZero_eq proper planned enough
    obtain rfl : last = final := Option.some.inj (executed.symm.trans run)
    exact ⟨repeated, owners, threshold⟩

theorem rederivation_continues_threeOwners
    : (∃ next, threeOwners.exec (.changeThreshold 2) = some next
        ∧ planReconciliation next.owners next.threshold [lowAddress 9, lowAddress 3] 2
          = .ok
            [.swapOwner sentinelOwners (lowAddress 2) (lowAddress 9),
              .removeOwner (lowAddress 3) (lowAddress 4) 2])
      ∧ ∃ final,
        repeatStepZero [lowAddress 9, lowAddress 3] 2 4 threeOwners
          = some
            ([.changeThreshold 2, .swapOwner sentinelOwners (lowAddress 2) (lowAddress 9),
              .removeOwner (lowAddress 3) (lowAddress 4) 2], final)
        ∧ final.owners.Perm [lowAddress 9, lowAddress 3] := by
  have continues := rederivation_continues (fun _ => List.Vector.replicate 32 0) threeOwners
    [lowAddress 9, lowAddress 3] 2 (.changeThreshold 2)
    [.swapOwner sentinelOwners (lowAddress 2) (lowAddress 9),
      .removeOwner (lowAddress 3) (lowAddress 4) 2]
    (by decide) (by decide) (by decide) (by rfl)
  obtain ⟨final, repeated⟩ := continues.2.2
  exact ⟨continues.1, final, (repeated 4 (by decide)).1, (repeated 4 (by decide)).2.1⟩

end PerpDex.SafeProjection
