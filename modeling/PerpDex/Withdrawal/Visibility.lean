import PerpDex.Withdrawal.Lifecycle

/-! Which reserved slots the journal knows about.
A slot is reserved before it is noted, so between the two it is visible only through the run
that is about to note it. The high-water keeps a settled slot from being reserved again, and
so a sweep that removes an entry late removes no newer one.
-/

namespace PerpDex

namespace Withdrawal

/-- The margin check has succeeded and the withdrawal has not returned. -/
def Stage.Ongoing : Stage → Prop
  | .reserved | .journaled | .submitted _ => True
  | _ => False

/-- What holds between any two steps: all slots in play are below the high-water, confirmed
slots are no longer held, a held slot has an entry or is about to get one, and an entry about
to be dropped is confirmed.
-/
structure Node.Inv (node : Node) : Prop where
  heldUsed : ∀ slot index, (slot, index) ∈ node.enclave.held → slot ∈ node.enclave.used
  journalUsed : ∀ slot ∈ node.journal.slots, slot ∈ node.enclave.used
  sweepUsed : ∀ sweep ∈ node.sweeps, ∀ entry ∈ sweep.entries, entry.slot ∈ node.enclave.used
  runUsed : ∀ run ∈ node.runs, run.stage.Ongoing → run.plan.slot ∈ node.enclave.used
  confirmedUsed
    : ∀ slot ∈ node.confirmed,
        slot ∈ node.enclave.used ∧ ∀ index, (slot, index) ∉ node.enclave.held
  visible
    : ∀ slot index, (slot, index) ∈ node.enclave.held
      → slot ∈ node.journal.slots
        ∨ ∃ plan, node.runs[index]? = some ⟨plan, .reserved⟩ ∧ plan.slot = slot
  terminal
    : ∀ sweep ∈ node.sweeps, ∀ entry outcome rest,
        sweep = .calling entry (.done outcome) rest → outcome.isTerminal = true
        → entry.slot ∈ node.confirmed

theorem Node.inv_fresh : Node.fresh.Inv := by
  constructor <;> simp [Node.fresh, Journal.slots]

/-- A slot the enclave accepts has not been reserved before. -/
theorem Enclave.accepts_unused {enclave : Enclave} {slot : Slot}
    (accepted : enclave.accepts slot = true)
    : slot ∉ enclave.used := by
  intro used
  have below := List.all_eq_true.mp accepted slot used
  simp at below

/-- What the margin check does to the enclave and to the run. -/
theorem EnclaveAnswer.withdraw_cases (answer : EnclaveAnswer) (accepts : Bool) (plan : Plan)
    : (accepts = true ∧ answer = .accepted
        ∧ (answer.within accepts).effective = true
        ∧ afterMargin plan (answer.within accepts).withdrawReply = .reserved)
      ∨ (accepts = true ∧ ∃ error, answer = .lost error)
      ∨ ((answer.within accepts).effective = false
        ∧ ∃ result, afterMargin plan (answer.within accepts).withdrawReply = .returned result) := by
  cases accepts with
  | true =>
      cases answer with
      | accepted => exact Or.inl ⟨rfl, rfl, rfl, rfl⟩
      | lost error => exact Or.inr (Or.inl ⟨rfl, error, rfl⟩)
      | refused message => exact Or.inr (Or.inr ⟨rfl, _, rfl⟩)
      | failed error => exact Or.inr (Or.inr ⟨rfl, _, rfl⟩)
  | false =>
      refine Or.inr (Or.inr ?_)
      cases answer with
      | accepted => exact ⟨rfl, _, rfl⟩
      | lost error => exact ⟨rfl, _, rfl⟩
      | refused message => exact ⟨rfl, _, rfl⟩
      | failed error => exact ⟨rfl, _, rfl⟩

section Steps

variable {node : Node} {index : Nat}

/-- A run moves on, noting nothing but its own slot; if it was about to note it, it has. -/
theorem Node.Inv.run_moved (inv : node.Inv) {run : Run}
    (located : node.runs[index]? = some run) {journal : Journal} {next : Stage}
    (grows : ∀ slot ∈ node.journal.slots, slot ∈ journal.slots)
    (notes
      : ∀ slot ∈ journal.slots,
          slot ∈ node.journal.slots ∨ slot = run.plan.slot ∧ run.stage.Ongoing)
    (keeps : next.Ongoing → run.stage.Ongoing)
    (noted : run.stage = .reserved → run.plan.slot ∈ journal.slots)
    : Node.Inv { node with journal, runs := node.runs.set index ⟨run.plan, next⟩ } := by
  have member : run ∈ node.runs := List.mem_iff_getElem?.mpr ⟨index, located⟩
  refine ⟨inv.heldUsed, ?_, inv.sweepUsed, ?_, inv.confirmedUsed, ?_, inv.terminal⟩
  · intro slot present
    rcases notes slot present with old | ⟨rfl, ongoing⟩
    · exact inv.journalUsed slot old
    · exact inv.runUsed run member ongoing
  · intro other present ongoing
    rcases List.mem_or_eq_of_mem_set present with old | rfl
    · exact inv.runUsed other old ongoing
    · exact inv.runUsed run member (keeps ongoing)
  · intro slot holder held
    rcases inv.visible slot holder held with entry | ⟨plan, reserved, sameSlot⟩
    · exact Or.inl (grows slot entry)
    · by_cases same : holder = index
      · rw [same, located] at reserved
        have isRun := Option.some.inj reserved
        refine Or.inl ?_
        rw [← sameSlot]
        have planEq : run.plan = plan := by rw [isRun]
        rw [← planEq]
        exact noted (by rw [isRun])
      · refine Or.inr ⟨plan, ?_, sameSlot⟩
        exact (List.getElem?_set_ne (Ne.symm same)).trans reserved

/-- A run that is not about to note its slot moves on without the journal. -/
theorem Node.Inv.run_continued (inv : node.Inv) {run : Run}
    (located : node.runs[index]? = some run) {next : Stage}
    (keeps : next.Ongoing → run.stage.Ongoing) (quiet : run.stage ≠ .reserved)
    : Node.Inv { node with runs := node.runs.set index ⟨run.plan, next⟩ } :=
  inv.run_moved located (fun _ present => present) (fun _ present => Or.inl present) keeps
    (fun reserved => absurd reserved quiet)

/-- A run notes its own slot. -/
theorem Node.Inv.run_noted (inv : node.Inv) {run : Run}
    (located : node.runs[index]? = some run) (ongoing : run.stage.Ongoing)
    (submittedHash : Option String) (nowMs : UInt64) (next : Stage)
    : Node.Inv
        { node with
          journal := node.journal.upsert (mkJournalEntry run.plan submittedHash nowMs)
          runs := node.runs.set index ⟨run.plan, next⟩ } := by
  refine inv.run_moved located ?_ ?_ (fun _ => ongoing) (fun _ => ?_)
  · exact fun slot present => Journal.mem_slots_upsert.mpr (Or.inr present)
  · intro slot present
    rcases Journal.mem_slots_upsert.mp present with own | old
    · exact Or.inr ⟨own, ongoing⟩
    · exact Or.inl old
  · exact Journal.mem_slots_upsert.mpr (Or.inl rfl)

/-- The margin check succeeds: the slot is new to the enclave and the run will note it. -/
theorem Node.Inv.reserved (inv : node.Inv) {plan : Plan}
    (located : node.runs[index]? = some ⟨plan, .planned⟩)
    (accepted : node.enclave.accepts plan.slot = true)
    : Node.Inv
        { node with
          enclave := node.enclave.reserve plan.slot index
          runs := node.runs.set index ⟨plan, .reserved⟩ } := by
  obtain ⟨inside, _⟩ := List.getElem?_eq_some_iff.mp located
  have unused : plan.slot ∉ node.enclave.used := Enclave.accepts_unused accepted
  have grows : ∀ {slot}, slot ∈ node.enclave.used → slot ∈ node.enclave.used ++ [plan.slot] :=
    fun used => List.mem_append_left _ used
  have owns : plan.slot ∈ node.enclave.used ++ [plan.slot] :=
    List.mem_append_right _ (List.mem_singleton_self _)
  refine ⟨?_, ?_, ?_, ?_, ?_, ?_, inv.terminal⟩
  · intro slot holder held
    rcases List.mem_append.mp held with old | new
    · exact grows (inv.heldUsed slot holder old)
    · rw [(Prod.mk.inj (List.mem_singleton.mp new)).1]
      exact owns
  · exact fun slot present => grows (inv.journalUsed slot present)
  · exact fun sweep member entry present => grows (inv.sweepUsed sweep member entry present)
  · intro other present ongoing
    rcases List.mem_or_eq_of_mem_set present with old | rfl
    · exact grows (inv.runUsed other old ongoing)
    · exact owns
  · intro slot confirmed
    obtain ⟨used, free⟩ := inv.confirmedUsed slot confirmed
    refine ⟨grows used, fun holder held => ?_⟩
    rcases List.mem_append.mp held with old | new
    · exact free holder old
    · rw [(Prod.mk.inj (List.mem_singleton.mp new)).1] at used
      exact unused used
  · intro slot holder held
    rcases List.mem_append.mp held with old | new
    · rcases inv.visible slot holder old with entry | ⟨other, reserved, sameSlot⟩
      · exact Or.inl entry
      · have apart : holder ≠ index := by
          intro same
          rw [same, located] at reserved
          simp at reserved
        refine Or.inr ⟨other, ?_, sameSlot⟩
        exact (List.getElem?_set_ne (Ne.symm apart)).trans reserved
    · obtain ⟨rfl, rfl⟩ := Prod.mk.inj (List.mem_singleton.mp new)
      exact Or.inr ⟨plan, List.getElem?_set_self inside, rfl⟩

/-- A sweep moves on within its copy of the journal, and rows may be settled meanwhile. -/
theorem Node.Inv.sweep_moved (inv : node.Inv) {sweep next : Sweep}
    (located : node.sweeps[index]? = some sweep) {enclave : Enclave} {confirmed : List Slot}
    (entries : ∀ entry ∈ next.entries, entry ∈ sweep.entries)
    (used : enclave.used = node.enclave.used)
    (settles : ∀ row ∈ enclave.held, row ∈ node.enclave.held)
    (grows : ∀ slot ∈ node.confirmed, slot ∈ confirmed)
    (confirms
      : ∀ slot ∈ confirmed,
          slot ∈ node.enclave.used ∧ ∀ holder, (slot, holder) ∉ enclave.held)
    (terminal
      : ∀ entry outcome rest, next = .calling entry (.done outcome) rest
        → outcome.isTerminal = true → entry.slot ∈ confirmed)
    : Node.Inv
        { node with enclave, confirmed, sweeps := node.sweeps.set index next } := by
  have member : sweep ∈ node.sweeps := List.mem_iff_getElem?.mpr ⟨index, located⟩
  refine ⟨?_, ?_, ?_, ?_, ?_, ?_, ?_⟩
  · intro slot holder held
    rw [used]
    exact inv.heldUsed slot holder (settles _ held)
  · intro slot present
    rw [used]
    exact inv.journalUsed slot present
  · intro other present entry listed
    rw [used]
    rcases List.mem_or_eq_of_mem_set present with old | rfl
    · exact inv.sweepUsed other old entry listed
    · exact inv.sweepUsed sweep member entry (entries entry listed)
  · intro run present ongoing
    rw [used]
    exact inv.runUsed run present ongoing
  · intro slot present
    rw [used]
    exact confirms slot present
  · exact fun slot holder held => inv.visible slot holder (settles _ held)
  · intro other present entry outcome rest shape isTerminal
    rcases List.mem_or_eq_of_mem_set present with old | rfl
    · exact grows _ (inv.terminal other old entry outcome rest shape isTerminal)
    · exact terminal entry outcome rest shape isTerminal

/-- A confirmed entry is removed: its slot is not held, so nothing becomes invisible. -/
theorem Node.Inv.resolved (inv : node.Inv) {entry : PendingWithdrawal}
    (confirmed : entry.slot ∈ node.confirmed)
    : Node.Inv
        { node with journal := (node.journal.remove entry.escrow entry.sequence).2 } := by
  obtain ⟨_, free⟩ := inv.confirmedUsed _ confirmed
  refine ⟨inv.heldUsed, ?_, inv.sweepUsed, inv.runUsed, inv.confirmedUsed, ?_, inv.terminal⟩
  · intro slot present
    exact inv.journalUsed slot (Journal.mem_slots_remove.mp present).2
  · intro slot holder held
    rcases inv.visible slot holder held with present | reserved
    · refine Or.inl (Journal.mem_slots_remove.mpr ⟨fun same => ?_, present⟩)
      rw [same] at held
      exact free holder held
    · exact Or.inr reserved

section Step

variable {crypto : Crypto} {dropsOf : String → UInt64}
  {buildDepositProof : Json → Nat → List (List UInt8) → Except String (List UInt8)}
  {subject : List UInt8 → Slot}

/-- A step of a withdrawal keeps the invariant of the node unless it loses the answer of a margin
check that took effect, by cases on the event and the stage it meets.
-/
theorem Node.Inv.step_run (inv : node.Inv) {run : Run}
    (located : node.runs[index]? = some run) {event : Event}
    (delivered
      : ∀ answer, event = .withdraw index answer → run.stage = .planned
        → node.enclave.accepts run.plan.slot = true → ∀ error, answer ≠ .lost error)
    (addressed : ∀ other answer, event = .withdraw other answer → other = index)
    : (node.stepRun index run event).Inv := by
  obtain ⟨plan, stage⟩ := run
  cases event with
  | giveUp _ error =>
      cases stage with
      | planned => exact inv.run_continued located (fun given => given) (by simp)
      | _ => exact inv
  | withdraw other answer =>
      cases stage with
      | planned =>
          obtain rfl := addressed other answer rfl
          have delivered := delivered answer rfl rfl
          simp only [Node.stepRun]
          rcases answer.withdraw_cases (node.enclave.accepts plan.slot) plan with
            ⟨accepted, _, effective, reserved⟩ | ⟨accepted, error, lost⟩
            | ⟨idle, result, returned⟩
          · rw [if_pos effective, reserved]
            exact inv.reserved located accepted
          · exact absurd lost (delivered accepted error)
          · rw [idle, returned]
            exact inv.run_continued located (fun given => given) (by simp)
      | _ => exact inv
  | record _ nowMs =>
      cases stage with
      | reserved => exact inv.run_noted located trivial none nowMs .journaled
      | _ => exact inv
  | submit _ outcome =>
      cases stage with
      | journaled => exact inv.run_continued located (fun _ => trivial) (by simp)
      | _ => exact inv
  | refresh _ nowMs =>
      cases stage with
      | submitted hash => exact inv.run_noted located trivial (some hash) nowMs _
      | _ => exact inv
  | _ => exact inv

/-- A call that settles the row of its own entry. -/
theorem Node.Inv.called (inv : node.Inv) {entry : PendingWithdrawal} {stage : ReconcileStage}
    {rest : List PendingWithdrawal} {proof : List UInt8} {answer : EnclaveAnswer}
    (located : node.sweeps[index]? = some (.calling entry stage rest))
    (carries : stage.proof = some proof)
    (delivered : answer = .accepted → subject proof = entry.slot)
    : Node.Inv
        { node with
          enclave :=
            if answer.effective then node.enclave.settle (subject proof) else node.enclave
          confirmed :=
            if answer = .accepted then node.confirmed ++ [subject proof] else node.confirmed
          sweeps :=
            node.sweeps.set index
              (.calling entry (stage.answered entry.sequence answer.reconcileReply) rest) } := by
  have used : entry.slot ∈ node.enclave.used :=
    inv.sweepUsed _ (List.mem_iff_getElem?.mpr ⟨index, located⟩) entry List.mem_cons_self
  have settles : ∀ row ∈ (if answer.effective then node.enclave.settle (subject proof)
      else node.enclave).held, row ∈ node.enclave.held := by
    intro row held
    split_ifs at held
    · exact (List.mem_filter.mp held).1
    · exact held
  refine inv.sweep_moved located ?_ ?_ settles ?_ ?_ ?_
  · exact fun _ listed => listed
  · split_ifs <;> rfl
  · intro slot present
    split_ifs
    · exact List.mem_append_left _ present
    · exact present
  · intro slot present
    have old : slot ∈ node.confirmed → slot ∈ node.enclave.used
        ∧ ∀ holder, (slot, holder) ∉ (if answer.effective then
          node.enclave.settle (subject proof) else node.enclave).held := by
      intro known
      obtain ⟨slotUsed, free⟩ := inv.confirmedUsed slot known
      exact ⟨slotUsed, fun holder held => free holder (settles _ held)⟩
    split_ifs at present with accepted
    · rcases List.mem_append.mp present with known | new
      · exact old known
      · rw [List.mem_singleton.mp new, delivered accepted]
        refine ⟨used, fun holder held => ?_⟩
        rw [accepted] at held
        simp [EnclaveAnswer.effective, Enclave.settle] at held
    · exact old present
  · intro other outcome tail shape isTerminal
    obtain ⟨rfl, ended, _⟩ := Sweep.calling.inj shape
    obtain ⟨json, replied⟩ := ReconcileStage.answered_terminal carries ended isTerminal
    have accepted : answer = .accepted := by
      cases answer with
      | accepted => rfl
      | _ => cases replied
    rw [if_pos accepted, delivered accepted]
    exact List.mem_append_right _ (List.mem_singleton_self _)

theorem Node.Inv.step_sweep (inv : node.Inv) {sweep : Sweep}
    (located : node.sweeps[index]? = some sweep) {event : Event}
    (delivered
      : ∀ answer entry stage rest proof, event = .call index answer
        → sweep = .calling entry stage rest → stage.proof = some proof → answer = .accepted
        → subject proof = entry.slot)
    (addressed : ∀ other answer, event = .call other answer → other = index)
    : (node.stepSweep crypto buildDepositProof subject index sweep event).Inv := by
  unfold Node.stepSweep
  split
  · rename_i entry rest _ answers
    refine inv.sweep_moved located (fun _ listed => listed) rfl (fun _ held => held)
      (fun _ known => known) inv.confirmedUsed ?_
    intro other outcome tail shape isTerminal
    obtain ⟨rfl, ended, _⟩ := Sweep.calling.inj shape
    rw [reconcileOne_not_terminal crypto buildDepositProof ended] at isTerminal
    cases isTerminal
  · rename_i entry stage rest other answer
    obtain rfl := addressed other answer rfl
    cases carries : stage.proof with
    | none => exact inv
    | some proof =>
        exact inv.called located carries (delivered answer entry stage rest proof rfl rfl carries)
  · rename_i entry outcome rest _
    have moved : Node.Inv { node with sweeps := node.sweeps.set index (.walking rest) } :=
      inv.sweep_moved located (fun _ listed => List.mem_cons_of_mem _ listed) rfl
        (fun _ held => held) (fun _ known => known) inv.confirmedUsed
        (fun _ _ _ shape => by cases shape)
    split_ifs with isTerminal
    · have member := List.mem_iff_getElem?.mpr ⟨index, located⟩
      exact moved.resolved (inv.terminal _ member entry outcome rest rfl isTerminal)
    · exact moved
  · exact inv

/-- What a step can do: nothing, start a withdrawal or a sweep, or move one of either. -/
theorem Node.step_cases {event : Event} {next : Node}
    (stepped : node.step crypto dropsOf buildDepositProof subject event = next)
    : next = node
      ∨ (∃ plan, next = { node with runs := node.runs ++ [⟨plan, .planned⟩] })
      ∨ next = { node with sweeps := node.sweeps ++ [.walking node.journal.entries] }
      ∨ (∃ index run,
          node.runs[index]? = some run
          ∧ (∀ other answer, event = .withdraw other answer → other = index)
          ∧ next = node.stepRun index run event)
      ∨ ∃ index sweep,
          node.sweeps[index]? = some sweep
          ∧ (∀ other answer, event = .call other answer → other = index)
          ∧ next = node.stepSweep crypto buildDepositProof subject index sweep event := by
  subst stepped
  cases event with
  | request escrow request accountInfo serverInfo =>
      simp only [Node.step]
      cases planWithdrawal escrow request (dropsOf request.amount) accountInfo serverInfo with
      | error _ => exact .inl rfl
      | ok plan => exact .inr (.inl ⟨plan, rfl⟩)
  | snapshot => exact .inr (.inr (.inl rfl))
  | giveUp index _ | withdraw index _ | record index _ | submit index _ | refresh index _ =>
      simp only [Node.step]
      cases located : node.runs[index]? with
      | none => exact .inl rfl
      | some run =>
          refine .inr (.inr (.inr (.inl ⟨index, run, located, fun _ _ shape => ?_, rfl⟩)))
          cases shape <;> rfl
  | look index _ | call index _ | settle index =>
      simp only [Node.step]
      cases located : node.sweeps[index]? with
      | none => exact .inl rfl
      | some sweep =>
          refine .inr (.inr (.inr (.inr ⟨index, sweep, located, fun _ _ shape => ?_, rfl⟩)))
          cases shape <;> rfl

/-- Every delivered step keeps the invariant. -/
theorem Node.Inv.step (inv : node.Inv) {event : Event}
    (delivered : node.Delivered subject event)
    : (node.step crypto dropsOf buildDepositProof subject event).Inv := by
  rcases Node.step_cases (rfl : node.step crypto dropsOf buildDepositProof subject event = _)
    with unchanged | ⟨plan, started⟩ | started | ⟨index, run, located, addressed, moved⟩
      | ⟨index, sweep, located, addressed, moved⟩
  · rw [unchanged]
    exact inv
  · rw [started]
    refine ⟨inv.heldUsed, inv.journalUsed, inv.sweepUsed, ?_, inv.confirmedUsed, ?_,
      inv.terminal⟩
    · intro run present ongoing
      rcases List.mem_append.mp present with old | new
      · exact inv.runUsed run old ongoing
      · rw [List.mem_singleton.mp new] at ongoing
        exact ongoing.elim
    · intro slot holder held
      rcases inv.visible slot holder held with entry | ⟨other, reserved, sameSlot⟩
      · exact Or.inl entry
      · refine Or.inr ⟨other, ?_, sameSlot⟩
        obtain ⟨inside, _⟩ := List.getElem?_eq_some_iff.mp reserved
        exact (List.getElem?_append_left inside).trans reserved
  · rw [started]
    refine ⟨inv.heldUsed, inv.journalUsed, ?_, inv.runUsed, inv.confirmedUsed, inv.visible, ?_⟩
    · intro sweep present entry listed
      rcases List.mem_append.mp present with old | new
      · exact inv.sweepUsed sweep old entry listed
      · rw [List.mem_singleton.mp new] at listed
        exact inv.journalUsed _ (List.mem_map_of_mem listed)
    · intro sweep present entry outcome rest shape isTerminal
      rcases List.mem_append.mp present with old | new
      · exact inv.terminal sweep old entry outcome rest shape isTerminal
      · rw [List.mem_singleton.mp new] at shape
        cases shape
  · rw [moved]
    refine inv.step_run located (fun answer isEvent planned => ?_) addressed
    subst isEvent
    exact delivered run located planned
  · rw [moved]
    refine inv.step_sweep located (fun answer entry stage rest proof isEvent isSweep => ?_)
      addressed
    subst isEvent isSweep
    exact fun carries accepted => delivered entry stage rest proof located carries accepted

/-- No step of a withdrawal removes an entry. -/
theorem Node.stepRun_keeps (run : Run) (event : Event) {slot : Slot}
    (present : slot ∈ node.journal.slots)
    : slot ∈ (node.stepRun index run event).journal.slots := by
  simp only [Node.stepRun]
  repeat' split
  all_goals first
    | exact present
    | exact Journal.mem_slots_upsert.mpr (Or.inr present)

/-- A sweep removes an entry only once the enclave has confirmed its slot. -/
theorem Node.Inv.stepSweep_drops (inv : node.Inv) {sweep : Sweep}
    (located : node.sweeps[index]? = some sweep) (event : Event) {slot : Slot}
    (present : slot ∈ node.journal.slots)
    (gone
      : slot
        ∉ (node.stepSweep crypto buildDepositProof subject index sweep event).journal.slots)
    : slot ∈ node.confirmed := by
  unfold Node.stepSweep at gone
  split at gone
  · exact absurd present gone
  · split at gone
    · exact absurd present gone
    · exact absurd present gone
  · rename_i entry outcome rest _
    simp only at gone
    split_ifs at gone with isTerminal
    · have removed : slot = entry.slot := by
        by_contra other
        exact gone (Journal.mem_slots_remove.mpr ⟨other, present⟩)
      rw [removed]
      exact inv.terminal _ (List.mem_iff_getElem?.mpr ⟨index, located⟩) entry outcome rest
        rfl isTerminal
    · exact absurd present gone
  · exact absurd present gone

/-- What a step removes from the journal is confirmed. -/
theorem Node.Inv.dropsConfirmed (inv : node.Inv) (event : Event)
    : node.DropsConfirmed crypto dropsOf buildDepositProof subject event := by
  intro slot present gone
  rcases Node.step_cases (rfl : node.step crypto dropsOf buildDepositProof subject event = _)
    with unchanged | ⟨plan, started⟩ | started | ⟨index, run, _, _, moved⟩
      | ⟨index, sweep, located, _, moved⟩
  · rw [unchanged] at gone
    exact absurd present gone
  · rw [started] at gone
    exact absurd present gone
  · rw [started] at gone
    exact absurd present gone
  · rw [moved] at gone
    exact absurd (Node.stepRun_keeps run event present) gone
  · rw [moved] at gone
    exact inv.stepSweep_drops located event present gone

theorem Node.Inv.isVisible (inv : node.Inv) : node.Visible := by
  intro slot holder run result held located returned
  rcases inv.visible slot holder held with entry | ⟨plan, reserved, _⟩
  · exact entry
  · rw [Option.some.inj (located.symm.trans reserved)] at returned
    cases returned

end Step

end Steps

/-- In every interleaving in which no margin check takes effect unanswered, and accepted
proofs are about the slots of their entries, every slot held for a withdrawal that has
returned has an entry, and an entry is dropped only after the enclave confirmed its slot.
Witness: a held slot has an entry or a run about to note it, between any two steps.
-/
theorem reserved_slots_visible (crypto : Crypto) (dropsOf : String → UInt64)
    (buildDepositProof : Json → Nat → List (List UInt8) → Except String (List UInt8))
    (subject : List UInt8 → Slot) (events : List Event)
    (delivered
      : Along (Node.step crypto dropsOf buildDepositProof subject) (Node.Delivered subject)
          Node.fresh events)
    : ∀ front, front <+: events →
        (front.foldl (Node.step crypto dropsOf buildDepositProof subject) Node.fresh).Visible
        ∧ ∀ event,
            (front.foldl (Node.step crypto dropsOf buildDepositProof subject)
              Node.fresh).DropsConfirmed crypto dropsOf buildDepositProof subject event := by
  intro front isFront
  have inv := Along.invariant (fun _ _ inv delivered => Node.Inv.step inv delivered)
    (delivered.front isFront) Node.inv_fresh
  exact ⟨inv.isVisible, inv.dropsConfirmed⟩

/-- The node is asked for one XRP; the escrow is at sequence 7, the ledger at 100. -/
def sampleRequest : Event :=
  .request "rEscrow" ⟨"rUser", "1.0", "rDestination", none⟩
    (.ok (.object [("result", .object [("account_data",
      .object [("Sequence", .number (.posInt 7))])])]))
    (.ok (.object [("result", .object [("info", .object [("validated_ledger",
      .object [("seq", .number (.posInt 100))])])])]))

def sampleStep : Node → Event → Node :=
  Node.step sampleCrypto (fun text => if text = "1.0" then 1_000_000 else 0)
    (fun _ _ _ => .error "ledger has no expanded transactions array") (fun _ => ⟨"rEscrow", 7⟩)

/-- A withdrawal that finds too few signatures returns with its slot reserved and noted. -/
theorem reserved_slots_visible_unsigned
    : (⟨"rEscrow", 7⟩, 0)
        ∈ ([sampleRequest, .withdraw 0 .accepted, .record 0 5,
            .submit 0 (.insufficient 1 2)].foldl sampleStep Node.fresh).enclave.held
      ∧ ⟨"rEscrow", 7⟩
        ∈ ([sampleRequest, .withdraw 0 .accepted, .record 0 5,
            .submit 0 (.insufficient 1 2)].foldl sampleStep Node.fresh).journal.slots := by
  have delivered : Along sampleStep (Node.Delivered (fun _ => ⟨"rEscrow", 7⟩)) Node.fresh
      [sampleRequest, .withdraw 0 .accepted, .record 0 5, .submit 0 (.insufficient 1 2)] := by
    refine ⟨trivial, ?_, trivial, trivial, trivial⟩
    exact fun _ _ _ _ error lost => by cases lost
  have held : (⟨"rEscrow", 7⟩, 0)
      ∈ ([sampleRequest, .withdraw 0 .accepted, .record 0 5,
          .submit 0 (.insufficient 1 2)].foldl sampleStep Node.fresh).enclave.held := by
    decide +kernel
  refine ⟨held, ?_⟩
  exact (reserved_slots_visible sampleCrypto _ _ _ _ delivered _ (List.prefix_refl _)).1
    _ 0 _ _ held rfl rfl

/-- The margin check reserves the slot and its answer is lost: the withdrawal returns an
error and nothing notes the slot.
-/
theorem lost_answer_hides_slot
    : ¬ ([sampleRequest, .withdraw 0 (.lost "operation timed out")].foldl sampleStep
        Node.fresh).Visible := by
  intro visible
  have noted := visible ⟨"rEscrow", 7⟩ 0 _ _ (by decide +kernel) rfl rfl
  exact absurd noted (by decide +kernel)

end Withdrawal

end PerpDex
