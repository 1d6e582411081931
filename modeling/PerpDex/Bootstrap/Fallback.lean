import PerpDex.Bootstrap.JoinBrain

/-! Whether a node that is not the primary serves a newcomer when its turn comes.
The node remembers for good whom anybody has answered, and keeps the first turn it noted for a
requester, so a request that comes again may find its turn taken or never get one.
-/

namespace PerpDex

namespace Bootstrap

-----------------------------------------------------------------------------------------
-- Events
-----------------------------------------------------------------------------------------

def JoinEvent.now : JoinEvent → Nat
  | .observe _ _ now => now
  | .receive _ now _ => now
  | .tick now _ => now

def JoinEvent.isTick : JoinEvent → Bool
  | .tick .. => true
  | _ => false

def JoinEvent.isObserve : JoinEvent → Bool
  | .observe .. => true
  | _ => false

/-- A delivery for a requester. -/
def JoinEvent.delivers (requester : String) : JoinEvent → Prop
  | .receive (.deliver bundle) _ _ => bundle.recipientPubkey = requester
  | _ => False

/-- While the event is handled, the node is a source of this rank: it is in sync, retains the
current tuple and has this place in its authority set.
-/
def JoinEvent.SourceOfRank (brain : JoinBrain) (rank : Nat) : JoinEvent → Prop
  | .observe .. => True
  | .receive _ _ answers =>
      ∀ requester, (sourcePrepare brain (answers.source requester)).map Prod.snd = some rank
  | .tick _ answers =>
      ∀ requester, (sourcePrepare brain (answers.source requester)).map Prod.snd = some rank

/-- The turn of a source of this rank that handles a request now. -/
def turn (now rank : Nat) : Nat := now + electionJitter * rank

-----------------------------------------------------------------------------------------
-- What a step does to one requester
-----------------------------------------------------------------------------------------

section Steps

variable {brain : JoinBrain} {rank : Nat} {requester : String}

/-- The newcomer's part of a tick leaves the source's part alone, and flags nothing. -/
theorem newcomerTrigger_keeps (brain : JoinBrain) (now : Nat) (answers : Answers)
    (state : JoinState)
    : let after := (newcomerTrigger brain now answers state).1
      after.served = state.served ∧ after.pendingServes = state.pendingServes
      ∧ after.observed = state.observed ∧ after.driftFlagged = state.driftFlagged := by
  dsimp only
  unfold newcomerTrigger
  split
  · exact ⟨rfl, rfl, rfl, rfl⟩
  split
  · exact ⟨rfl, rfl, rfl, rfl⟩
  split
  · exact ⟨rfl, rfl, rfl, rfl⟩
  · exact ⟨rfl, rfl, rfl, rfl⟩

/-- The check for drift leaves the source's part of a tick alone. -/
theorem driftCheck_keeps (now : Nat) (answers : Answers) (state : JoinState)
    : (driftCheck now answers state).served = state.served
      ∧ (driftCheck now answers state).pendingServes = state.pendingServes := by
  unfold driftCheck
  split
  · split
    · dsimp only
      split
      · exact ⟨rfl, rfl⟩
      · exact ⟨rfl, rfl⟩
    · exact ⟨rfl, rfl⟩
  · exact ⟨rfl, rfl⟩

/-- While a source that is not flagged goes over the requesters that are due, each counts as
answered afterwards and has no turn noted any more.
-/
theorem serveDue_source {answers : Answers}
    (isSource
      : ∀ requester, (sourcePrepare brain (answers.source requester)).map Prod.snd = some rank)
    (reached : JoinState × Output) (unflagged : reached.1.driftFlagged = false)
    (requester : String)
    : (serveDue brain answers reached requester).1
        = { reached.1 with
            pendingServes := reached.1.pendingServes.erase requester
            served := insert requester reached.1.served }
      ∧ (serveDue brain answers reached requester).2.serves
        = if requester ∈ reached.1.served then reached.2.serves
          else reached.2.serves ++ [requester] := by
  obtain ⟨⟨tuple, held⟩, prepared, -⟩ := Option.map_eq_some_iff.mp (isSource requester)
  unfold serveDue
  dsimp only
  by_cases answered : requester ∈ reached.1.served
  · rw [if_pos answered, if_pos answered, Finset.insert_eq_self.mpr answered]
    exact ⟨rfl, rfl⟩
  · rw [if_neg answered, if_neg answered, unflagged, prepared]
    exact ⟨by simp, rfl⟩

/-- What going over some requesters does to one of them. -/
theorem serveAll_source {answers : Answers}
    (isSource
      : ∀ requester, (sourcePrepare brain (answers.source requester)).map Prod.snd = some rank)
    (requesters : List String) (reached : JoinState × Output)
    (unflagged : reached.1.driftFlagged = false) (requester : String)
    : let after := requesters.foldl (serveDue brain answers) reached
      (requester ∈ after.2.serves
        ↔ requester ∈ reached.2.serves
          ∨ (requester ∈ requesters ∧ requester ∉ reached.1.served))
      ∧ (requester ∈ after.1.served
        ↔ requester ∈ reached.1.served ∨ requester ∈ requesters)
      ∧ (requester ∈ requesters → after.1.pendingServes.lookup requester = none)
      ∧ (requester ∉ requesters
        → after.1.pendingServes.lookup requester
          = reached.1.pendingServes.lookup requester) := by
  induction requesters generalizing reached with
  | nil => simp
  | cons first rest ih =>
      obtain ⟨state, serves⟩ := serveDue_source isSource reached unflagged first
      obtain ⟨served, answered, gone, kept⟩ :=
        ih (serveDue brain answers reached first) (by rw [state]; exact unflagged)
      dsimp only [List.foldl_cons] at served answered gone kept ⊢
      rw [state] at served answered kept
      rw [serves] at served
      refine ⟨?_, ?_, fun member => ?_, fun others => ?_⟩
      · rw [served]
        by_cases known : first ∈ reached.1.served
        · rw [if_pos known]
          by_cases same : requester = first
          · simp [same, known]
          · simp [same]
        · rw [if_neg known]
          by_cases same : requester = first
          · simp [same, known]
          · simp [same]
      · rw [answered, Finset.mem_insert, List.mem_cons, or_assoc, or_left_comm]
      · by_cases later : requester ∈ rest
        · exact gone later
        · have isFirst : requester = first := (List.mem_cons.mp member).resolve_right later
          rw [kept later, isFirst, AList.lookup_erase]
      · obtain ⟨notFirst, notRest⟩ := not_or.mp (others ∘ List.mem_cons.mpr)
        rw [kept notRest, AList.lookup_erase_ne notFirst]

theorem mem_dueServes {state : JoinState} {now : Nat}
    : requester ∈ dueServes state now
      ↔ ∃ due, state.pendingServes.lookup requester = some due ∧ due ≤ now
        ∧ requester ∉ state.served := by
  unfold dueServes
  constructor
  · intro member
    obtain ⟨entry, isEntry, rfl⟩ := List.mem_map.mp member
    obtain ⟨isPending, isDue⟩ := List.mem_filter.mp isEntry
    obtain ⟨reached, unanswered⟩ := of_decide_eq_true isDue
    exact ⟨entry.2, AList.mem_lookup_iff.mpr isPending, reached, unanswered⟩
  · rintro ⟨due, isPending, reached, unanswered⟩
    refine List.mem_map.mpr ⟨⟨requester, due⟩, List.mem_filter.mpr ⟨?_, ?_⟩, rfl⟩
    · exact AList.mem_lookup_iff.mp isPending
    · exact decide_eq_true ⟨reached, unanswered⟩

/-- What a tick does to one requester. -/
theorem housekeeping_source {state : JoinState} (now : Nat) {answers : Answers}
    (isSource
      : ∀ requester, (sourcePrepare brain (answers.source requester)).map Prod.snd = some rank)
    (unflagged : state.driftFlagged = false) (requester : String)
    : let after := housekeeping brain state now answers
      (requester ∈ after.2.serves ↔ requester ∈ dueServes state now)
      ∧ (requester ∈ after.1.served
        ↔ requester ∈ state.served ∨ requester ∈ dueServes state now)
      ∧ (requester ∈ dueServes state now → after.1.pendingServes.lookup requester = none)
      ∧ (requester ∉ dueServes state now
        → after.1.pendingServes.lookup requester = state.pendingServes.lookup requester) := by
  obtain ⟨serves, served, gone, kept⟩ :=
    serveAll_source isSource (dueServes state now) (state, {}) unflagged requester
  have unanswered : requester ∈ dueServes state now → requester ∉ state.served := by
    intro due
    obtain ⟨_, _, _, unanswered⟩ := mem_dueServes.mp due
    exact unanswered
  obtain ⟨triggeredServed, triggeredPending, -⟩ := newcomerTrigger_keeps brain now answers
    ((dueServes state now).foldl (serveDue brain answers) (state, {})).1
  obtain ⟨checkedServed, checkedPending⟩ := driftCheck_keeps now answers
    (newcomerTrigger brain now answers
      ((dueServes state now).foldl (serveDue brain answers) (state, {})).1).1
  dsimp only [housekeeping]
  rw [checkedServed, checkedPending, triggeredServed, triggeredPending]
  refine ⟨serves.trans ⟨?_, fun due => .inr ⟨due, unanswered due⟩⟩, served, gone, kept⟩
  rintro (nothing | due)
  · cases nothing
  · exact due.1

/-- A request that a source of a rank other than the first handles. -/
theorem handleRequest_source {state : JoinState} {now : Nat} {answers : Answers}
    (isSource
      : ∀ requester, (sourcePrepare brain (answers.source requester)).map Prod.snd = some rank)
    (behind : 1 ≤ rank) (unflagged : state.driftFlagged = false) (shardId : Nat)
    (groupId : String)
    : handleRequest brain state now answers requester shardId groupId
      = if passedOver brain requester shardId groupId then (state, {})
        else ({ state with
            pendingServes :=
              if requester ∈ state.pendingServes then state.pendingServes
              else state.pendingServes.insert requester (turn now rank) }, {}) := by
  obtain ⟨⟨tuple, held⟩, prepared, rfl⟩ := Option.map_eq_some_iff.mp (isSource requester)
  unfold handleRequest
  by_cases skipped : passedOver brain requester shardId groupId = true
  · rw [if_pos skipped, if_pos skipped]
  · rw [if_neg skipped, if_neg skipped, unflagged, prepared]
    obtain ⟨less, rfl⟩ : ∃ less, held = less + 1 := ⟨held - 1, by omega⟩
    rfl

/-- A request that counts notes a turn for the requester, unless one is noted already. -/
theorem step_request {state : JoinState} {now : Nat} {answers : Answers}
    (isSource
      : ∀ requester, (sourcePrepare brain (answers.source requester)).map Prod.snd = some rank)
    (behind : 1 ≤ rank) (unflagged : state.driftFlagged = false) (shardId : Nat)
    (groupId : String)
    : state.step brain (.receive (.request requester shardId groupId) now answers)
      = if passedOver brain requester shardId groupId then state
        else { state with
            pendingServes :=
              if requester ∈ state.pendingServes then state.pendingServes
              else state.pendingServes.insert requester (turn now rank) } := by
  show (handleRequest brain state now answers requester shardId groupId).1 = _
  rw [handleRequest_source isSource behind unflagged]
  split
  · rfl
  · rfl

/-- The requester waits for this turn, and nobody is known to have answered it. -/
structure Waiting (requester : String) (due : Nat) (state : JoinState) : Prop where
  pending : state.pendingServes.lookup requester = some due
  unanswered : requester ∉ state.served

/-- What ends the wait of a requester: a delivery, or a tick at its turn. -/
def JoinEvent.answers (requester : String) (due : Nat) (event : JoinEvent) : Prop :=
  event.delivers requester ∨ (event.isTick = true ∧ due ≤ event.now)

section Events

variable {state : JoinState} {event : JoinEvent} {due : Nat}

/-- Who has been answered stays answered. -/
theorem served_step (behind : 1 ≤ rank) (isSource : event.SourceOfRank brain rank)
    (unflagged : state.driftFlagged = false) (answered : requester ∈ state.served)
    : requester ∈ (state.step brain event).served := by
  cases event with
  | observe peer epoch now => exact answered
  | receive message now answers =>
      cases message with
      | request other shardId groupId =>
          rw [step_request isSource behind unflagged]
          split
          · exact answered
          · exact answered
      | deliver bundle => exact Finset.mem_insert_of_mem answered
  | tick now answers =>
      have served := (housekeeping_source now isSource unflagged requester).2.1
      exact served.mpr (.inl answered)

/-- A turn that is noted is an earlier one, or the turn of the request just handled. -/
theorem pending_step (behind : 1 ≤ rank) (isSource : event.SourceOfRank brain rank)
    (unflagged : state.driftFlagged = false)
    (pending : (state.step brain event).pendingServes.lookup requester = some due)
    : state.pendingServes.lookup requester = some due
      ∨ (due = turn event.now rank
        ∧ Hex.eqIgnoreAsciiCase requester brain.myEcdhPk = false) := by
  cases event with
  | observe peer epoch now => exact .inl pending
  | receive message now answers =>
      cases message with
      | request other shardId groupId =>
          rw [step_request isSource behind unflagged] at pending
          split at pending
          case isTrue => exact .inl pending
          case isFalse counted =>
            dsimp only at pending
            split at pending
            case isTrue => exact .inl pending
            case isFalse =>
              by_cases same : requester = other
              · subst same
                rw [AList.lookup_insert] at pending
                refine .inr ⟨(Option.some.inj pending).symm, ?_⟩
                simp only [passedOver, Bool.or_eq_true, not_or, Bool.not_eq_true] at counted
                exact counted.2
              · rw [AList.lookup_insert_ne same] at pending
                exact .inl pending
      | deliver bundle =>
          replace pending : (state.pendingServes.erase bundle.recipientPubkey).lookup requester
              = some due := pending
          by_cases same : requester = bundle.recipientPubkey
          · rw [same, AList.lookup_erase] at pending
            cases pending
          · rw [AList.lookup_erase_ne same] at pending
            exact .inl pending
  | tick now answers =>
      obtain ⟨-, -, gone, kept⟩ := housekeeping_source now isSource unflagged requester
      by_cases isDue : requester ∈ dueServes state now
      · rw [show (state.step brain (.tick now answers)).pendingServes.lookup requester = none from
          gone isDue] at pending
        cases pending
      · exact .inl ((kept isDue).symm.trans pending)

/-- A requester that waits goes on waiting until a delivery, or a tick at its turn. -/
theorem Waiting.step (waiting : Waiting requester due state) (behind : 1 ≤ rank)
    (isSource : event.SourceOfRank brain rank) (unflagged : state.driftFlagged = false)
    (unanswered : ¬ event.answers requester due)
    : Waiting requester due (state.step brain event) := by
  obtain ⟨noDelivery, noTick⟩ := not_or.mp unanswered
  cases event with
  | observe peer epoch now => exact ⟨waiting.pending, waiting.unanswered⟩
  | receive message now answers =>
      cases message with
      | request other shardId groupId =>
          rw [step_request isSource behind unflagged]
          split
          · exact waiting
          · refine ⟨?_, waiting.unanswered⟩
            dsimp only
            split
            case isTrue => exact waiting.pending
            case isFalse unknown =>
              have others : requester ≠ other := by
                rintro rfl
                exact unknown (AList.lookup_isSome.mp (by rw [waiting.pending]; rfl))
              rw [AList.lookup_insert_ne others]
              exact waiting.pending
      | deliver bundle =>
          have others : requester ≠ bundle.recipientPubkey := fun same => noDelivery same.symm
          refine ⟨?_, ?_⟩
          · show (state.pendingServes.erase bundle.recipientPubkey).lookup requester = some due
            rw [AList.lookup_erase_ne others]
            exact waiting.pending
          · show requester ∉ insert bundle.recipientPubkey state.served
            simp [others, waiting.unanswered]
  | tick now answers =>
      obtain ⟨-, served, -, kept⟩ :=
        housekeeping_source now isSource unflagged requester
      have notDue : requester ∉ dueServes state now := by
        intro isDue
        obtain ⟨noted, isNoted, reached, -⟩ := mem_dueServes.mp isDue
        rw [waiting.pending] at isNoted
        cases isNoted
        exact noTick ⟨rfl, reached⟩
      refine ⟨(kept notDue).trans waiting.pending, fun answered => ?_⟩
      exact (served.mp answered).elim waiting.unanswered notDue

/-- A tick serves a requester exactly if its turn has come and nobody is known to have
answered it.
-/
theorem serves_tick_iff {now : Nat} {answers : Answers}
    (isSource : (JoinEvent.tick now answers).SourceOfRank brain rank)
    (unflagged : state.driftFlagged = false)
    : requester ∈ (runJoinBrain brain state (.tick now answers)).2.serves
      ↔ ∃ due, Waiting requester due state ∧ due ≤ now := by
  rw [show runJoinBrain brain state (.tick now answers)
    = housekeeping brain state now answers from rfl,
    (housekeeping_source now isSource unflagged requester).1, mem_dueServes]
  constructor
  · rintro ⟨due, pending, reached, unanswered⟩
    exact ⟨due, ⟨pending, unanswered⟩, reached⟩
  · rintro ⟨due, waiting, reached⟩
    exact ⟨due, waiting.pending, reached, waiting.unanswered⟩

/-- What ends the wait makes the requester count as answered. -/
theorem Waiting.answered (waiting : Waiting requester due state)
    (isSource : event.SourceOfRank brain rank) (unflagged : state.driftFlagged = false)
    (answers : event.answers requester due)
    : requester ∈ (state.step brain event).served := by
  cases event with
  | observe peer epoch now => exact answers.elim False.elim (fun tick => by cases tick.1)
  | receive message now replies =>
      cases message with
      | request other shardId groupId =>
          exact answers.elim False.elim (fun tick => by cases tick.1)
      | deliver bundle =>
          rcases answers with same | ⟨tick, -⟩
          · exact Finset.mem_insert.mpr (.inl same.symm)
          · cases tick
  | tick now replies =>
      rcases answers with nothing | ⟨-, reached⟩
      · exact nothing.elim
      · have served := (housekeeping_source now isSource unflagged requester).2.1
        refine served.mpr (.inr (mem_dueServes.mpr ?_))
        exact ⟨due, waiting.pending, reached, waiting.unanswered⟩

end Events

end Steps

-----------------------------------------------------------------------------------------
-- Runs
-----------------------------------------------------------------------------------------

/-- The node is a source of this rank and not flagged. -/
structure Steady (brain : JoinBrain) (rank : Nat) (state : JoinState) (event : JoinEvent)
    : Prop where
  isSource : event.SourceOfRank brain rank
  unflagged : state.driftFlagged = false

section Runs

variable {brain : JoinBrain} {rank : Nat} {requester : String} {state : JoinState}
  {events : List JoinEvent} {due : Nat}

theorem served_run (behind : 1 ≤ rank)
    (steady : Along (JoinState.step brain) (Steady brain rank) state events)
    (answered : requester ∈ state.served)
    : requester ∈ (events.foldl (JoinState.step brain) state).served := by
  induction events generalizing state with
  | nil => exact answered
  | cons event rest ih =>
      obtain ⟨here, later⟩ := steady
      exact ih later (served_step behind here.isSource here.unflagged answered)

/-- Going over requesters records no epoch and flags nothing. -/
theorem serveAll_flag (brain : JoinBrain) (answers : Answers) (requesters : List String)
    (reached : JoinState × Output)
    : (requesters.foldl (serveDue brain answers) reached).1.observed = reached.1.observed
      ∧ (requesters.foldl (serveDue brain answers) reached).1.driftFlagged
        = reached.1.driftFlagged := by
  induction requesters generalizing reached with
  | nil => exact ⟨rfl, rfl⟩
  | cons first rest ih =>
      have one : (serveDue brain answers reached first).1.observed = reached.1.observed
          ∧ (serveDue brain answers reached first).1.driftFlagged = reached.1.driftFlagged := by
        unfold serveDue
        dsimp only
        split
        · exact ⟨rfl, rfl⟩
        split
        · exact ⟨rfl, rfl⟩
        split
        · exact ⟨rfl, rfl⟩
        · exact ⟨rfl, rfl⟩
      obtain ⟨observed, flagged⟩ := ih (serveDue brain answers reached first)
      exact ⟨observed.trans one.1, flagged.trans one.2⟩

/-- Without an epoch to compare with, the check flags nothing. -/
theorem driftCheck_unobserved (now : Nat) (answers : Answers) {state : JoinState}
    (unobserved : state.observed = ∅)
    : (driftCheck now answers state).observed = ∅
      ∧ (driftCheck now answers state).driftFlagged = state.driftFlagged := by
  have nothing : maxFresh state.observed now peerEpochTtl = none := by
    rw [unobserved]
    rfl
  unfold driftCheck
  split
  · rw [nothing]
    exact ⟨unobserved, rfl⟩
  · exact ⟨unobserved, rfl⟩

/-- A node that has seen no epoch of a peer is not flagged by a message or a tick. -/
theorem unflagged_step {event : JoinEvent} (unobserved : state.observed = ∅)
    (unflagged : state.driftFlagged = false) (others : event.isObserve = false)
    : (state.step brain event).observed = ∅
      ∧ (state.step brain event).driftFlagged = false := by
  cases event with
  | observe peer epoch now => cases others
  | receive message now answers =>
      cases message with
      | request other shardId groupId =>
          have step : state.step brain (.receive (.request other shardId groupId) now answers)
              = (handleRequest brain state now answers other shardId groupId).1 := rfl
          rw [step]
          unfold handleRequest
          split
          · exact ⟨unobserved, unflagged⟩
          split
          · exact ⟨unobserved, unflagged⟩
          split
          · exact ⟨unobserved, unflagged⟩
          · exact ⟨unobserved, unflagged⟩
          · exact ⟨unobserved, unflagged⟩
      | deliver bundle => exact ⟨unobserved, unflagged⟩
  | tick now answers =>
      have served := serveAll_flag brain answers (dueServes state now) (state, {})
      obtain ⟨-, -, observed, flagged⟩ := newcomerTrigger_keeps brain now answers
        ((dueServes state now).foldl (serveDue brain answers) (state, {})).1
      have checked := driftCheck_unobserved now answers
        (observed.trans (served.1.trans unobserved))
      exact ⟨checked.1, checked.2.trans (flagged.trans (served.2.trans unflagged))⟩

/-- A source of a rank that sees no epochs is steady. -/
theorem steady_of_unobserved (unobserved : state.observed = ∅)
    (unflagged : state.driftFlagged = false)
    (sources : ∀ event ∈ events, event.SourceOfRank brain rank ∧ event.isObserve = false)
    : Along (JoinState.step brain) (Steady brain rank) state events := by
  induction events generalizing state with
  | nil => trivial
  | cons event rest ih =>
      obtain ⟨isSource, others⟩ := sources event List.mem_cons_self
      obtain ⟨next, flag⟩ := unflagged_step unobserved unflagged others
      refine ⟨⟨isSource, unflagged⟩, ih next flag (fun other member => ?_)⟩
      exact sources other (List.mem_cons_of_mem event member)

/-- Whom anybody has answered once, the node never serves again. -/
theorem not_served_again {now : Nat} {answers : Answers} (behind : 1 ≤ rank)
    (steady
      : Along (JoinState.step brain) (Steady brain rank) state (events ++ [.tick now answers]))
    (answered : requester ∈ state.served)
    : requester
      ∉ (runJoinBrain brain (events.foldl (JoinState.step brain) state)
          (.tick now answers)).2.serves := by
  obtain ⟨front, last⟩ := Along.append_iff.mp steady
  have still := served_run behind front answered
  rw [serves_tick_iff last.1.isSource last.1.unflagged]
  rintro ⟨due, waiting, -⟩
  exact waiting.unanswered still

/-- A turn that is noted was noted before the run or is the turn of a request in it. -/
theorem pending_run (behind : 1 ≤ rank)
    (steady : Along (JoinState.step brain) (Steady brain rank) state events)
    (pending
      : (events.foldl (JoinState.step brain) state).pendingServes.lookup requester = some due)
    : state.pendingServes.lookup requester = some due
      ∨ ∃ event ∈ events, due = turn event.now rank
        ∧ Hex.eqIgnoreAsciiCase requester brain.myEcdhPk = false := by
  induction events generalizing state with
  | nil => exact .inl pending
  | cons event rest ih =>
      obtain ⟨here, later⟩ := steady
      rcases ih later pending with noted | ⟨other, member, isTurn⟩
      · rcases pending_step behind here.isSource here.unflagged noted with earlier | isTurn
        · exact .inl earlier
        · exact .inr ⟨event, List.mem_cons_self, isTurn⟩
      · exact .inr ⟨other, List.mem_cons_of_mem event member, isTurn⟩

theorem Waiting.run (behind : 1 ≤ rank)
    (steady : Along (JoinState.step brain) (Steady brain rank) state events)
    (waiting : Waiting requester due state)
    (unanswered : ∀ event ∈ events, ¬ event.answers requester due)
    : Waiting requester due (events.foldl (JoinState.step brain) state) := by
  induction events generalizing state with
  | nil => exact waiting
  | cons event rest ih =>
      obtain ⟨here, later⟩ := steady
      have next : Waiting requester due (state.step brain event) :=
        waiting.step behind here.isSource here.unflagged (unanswered event List.mem_cons_self)
      exact ih later next (fun other member => unanswered other (List.mem_cons_of_mem _ member))

theorem Waiting.answered_run (behind : 1 ≤ rank)
    (steady : Along (JoinState.step brain) (Steady brain rank) state events)
    (waiting : Waiting requester due state)
    (answered : ∃ event ∈ events, event.answers requester due)
    : requester ∈ (events.foldl (JoinState.step brain) state).served := by
  induction events generalizing state with
  | nil =>
      obtain ⟨event, nothing, -⟩ := answered
      cases nothing
  | cons event rest ih =>
      obtain ⟨here, later⟩ := steady
      by_cases now : event.answers requester due
      · have served := waiting.answered here.isSource here.unflagged now
        have after := served_run behind later served
        exact after
      · have next : Waiting requester due (state.step brain event) :=
          waiting.step behind here.isSource here.unflagged now
        obtain ⟨other, member, answers⟩ := answered
        refine ih later next ⟨other, ?_, answers⟩
        rcases List.mem_cons.mp member with rfl | inRest
        · exact absurd answers now
        · exact inRest

end Runs

-----------------------------------------------------------------------------------------
-- A request and the tick at its turn
-----------------------------------------------------------------------------------------

/-- A run up to a tick, with a request in it. -/
structure Occasion where
  bootstrapped : Bool
  before : List JoinEvent
  requester : String
  shardId : Nat
  groupId : String
  asked : Nat
  replies : Answers
  between : List JoinEvent
  ticked : Nat
  answers : Answers

namespace Occasion

def request (occasion : Occasion) : JoinEvent :=
  .receive (.request occasion.requester occasion.shardId occasion.groupId) occasion.asked
    occasion.replies

def tick (occasion : Occasion) : JoinEvent := .tick occasion.ticked occasion.answers

def events (occasion : Occasion) : List JoinEvent :=
  occasion.before ++ (occasion.request :: occasion.between ++ [occasion.tick])

/-- The state that the request meets. -/
def met (occasion : Occasion) (brain : JoinBrain) : JoinState :=
  occasion.before.foldl (JoinState.step brain) (.start occasion.bootstrapped)

/-- The state that the tick meets. -/
def ticks (occasion : Occasion) (brain : JoinBrain) : JoinState :=
  (occasion.request :: occasion.between).foldl (JoinState.step brain) (occasion.met brain)

/-- The node is a source of this rank throughout, the request is of its cluster, no delivery
for the requester is received from the request until the turn, and the tick is the first one
at or after the turn.
-/
structure Fits (occasion : Occasion) (brain : JoinBrain) (rank : Nat) : Prop where
  behind : 1 ≤ rank
  steady
    : Along (JoinState.step brain) (Steady brain rank) (.start occasion.bootstrapped)
      occasion.events
  clocked : occasion.events.Pairwise (fun earlier later => earlier.now ≤ later.now)
  ofShard : occasion.shardId = brain.shardId
  ofGroup : Hex.eqIgnoreAsciiCase occasion.groupId brain.groupIdHex = true
  noDelivery
    : ∀ event ∈ occasion.events, event.delivers occasion.requester
      → event.now < occasion.asked ∨ turn occasion.asked rank < event.now
  reached : turn occasion.asked rank ≤ occasion.ticked
  first : ∀ event ∈ occasion.between, event.isTick = true → event.now < turn occasion.asked rank

/-- The node serves the requester at the tick. -/
def Served (occasion : Occasion) (brain : JoinBrain) : Prop :=
  occasion.requester ∈ (runJoinBrain brain (occasion.ticks brain) occasion.tick).2.serves

/-- Nothing has the node pass the requester over: it is another node, was not answered before
its request, is not delivered to between the turn and the tick, and no turn of an earlier
request comes up at a tick in between.
-/
structure Unanswered (occasion : Occasion) (brain : JoinBrain) (rank : Nat) : Prop where
  otherNode : Hex.eqIgnoreAsciiCase occasion.requester brain.myEcdhPk = false
  unanswered : occasion.requester ∉ (occasion.met brain).served
  undelivered
    : ∀ event ∈ occasion.between, turn occasion.asked rank < event.now
      → ¬ event.delivers occasion.requester
  ownTurn
    : ∀ due, (occasion.met brain).pendingServes.lookup occasion.requester = some due
      → ∀ event ∈ occasion.between, event.isTick = true → event.now < due

section Fits

variable {occasion : Occasion} {brain : JoinBrain} {rank : Nat}

theorem Fits.steady_parts (fits : occasion.Fits brain rank)
    : Along (JoinState.step brain) (Steady brain rank) (.start occasion.bootstrapped)
        occasion.before
      ∧ Steady brain rank (occasion.met brain) occasion.request
      ∧ Along (JoinState.step brain) (Steady brain rank)
        ((occasion.met brain).step brain occasion.request) occasion.between
      ∧ Steady brain rank (occasion.ticks brain) occasion.tick := by
  obtain ⟨before, rest⟩ := Along.append_iff.mp fits.steady
  obtain ⟨front, last⟩ := Along.append_iff.mp rest
  exact ⟨before, front.1, front.2, last.1⟩

/-- The turns noted before the request are not later than its own. -/
theorem Fits.pending_le (fits : occasion.Fits brain rank) {due : Nat}
    (pending : (occasion.met brain).pendingServes.lookup occasion.requester = some due)
    : due ≤ turn occasion.asked rank := by
  have steady := fits.steady_parts.1
  rcases pending_run fits.behind steady pending with nothing | ⟨event, member, isTurn, -⟩
  · cases nothing
  · have earlier := (List.pairwise_append.mp fits.clocked).2.2 event member occasion.request
      List.mem_cons_self
    rw [isTurn, turn, turn]
    exact Nat.add_le_add_right earlier _

/-- A requester that was answered before its request is not served. -/
theorem Fits.not_served_of_answered (fits : occasion.Fits brain rank)
    (answered : occasion.requester ∈ (occasion.met brain).served)
    : ¬ occasion.Served brain := by
  have steady : Along (JoinState.step brain) (Steady brain rank) (occasion.met brain)
      (occasion.request :: occasion.between ++ [.tick occasion.ticked occasion.answers]) :=
    (Along.append_iff.mp fits.steady).2
  exact not_served_again fits.behind steady answered

/-- After the request a requester that nobody has answered waits for its turn: the one noted
before, or else the one of this request.
-/
theorem Fits.waiting (fits : occasion.Fits brain rank)
    (otherNode : Hex.eqIgnoreAsciiCase occasion.requester brain.myEcdhPk = false)
    (unanswered : occasion.requester ∉ (occasion.met brain).served)
    : ∃ due, Waiting occasion.requester due ((occasion.met brain).step brain occasion.request)
      ∧ ((occasion.met brain).pendingServes.lookup occasion.requester = some due
        ∨ ((occasion.met brain).pendingServes.lookup occasion.requester = none
          ∧ due = turn occasion.asked rank)) := by
  have here := fits.steady_parts.2.1
  have counted : passedOver brain occasion.requester occasion.shardId occasion.groupId = false := by
    simp [passedOver, fits.ofShard, fits.ofGroup, otherNode]
  have step : (occasion.met brain).step brain occasion.request
      = { occasion.met brain with
          pendingServes :=
            if occasion.requester ∈ (occasion.met brain).pendingServes then
              (occasion.met brain).pendingServes
            else
              (occasion.met brain).pendingServes.insert occasion.requester
                (turn occasion.asked rank) } := by
    rw [Occasion.request, step_request here.isSource fits.behind here.unflagged, counted]
    rfl
  rw [step]
  cases pending : (occasion.met brain).pendingServes.lookup occasion.requester with
  | some due =>
      have known : occasion.requester ∈ (occasion.met brain).pendingServes :=
        AList.lookup_isSome.mp (by rw [pending]; rfl)
      rw [if_pos known]
      exact ⟨due, ⟨pending, unanswered⟩, .inl rfl⟩
  | none =>
      have unknown : occasion.requester ∉ (occasion.met brain).pendingServes :=
        AList.lookup_eq_none.mp pending
      rw [if_neg unknown]
      exact ⟨turn occasion.asked rank, ⟨AList.lookup_insert _, unanswered⟩, .inr ⟨rfl, rfl⟩⟩

/-- Between the request and the tick the requester is answered exactly if it is delivered to
after the turn, or if the turn of an earlier request comes up.
-/
theorem Fits.not_answers_iff (fits : occasion.Fits brain rank) {due : Nat}
    (isTurn
      : (occasion.met brain).pendingServes.lookup occasion.requester = some due
        ∨ ((occasion.met brain).pendingServes.lookup occasion.requester = none
          ∧ due = turn occasion.asked rank))
    : (∀ event ∈ occasion.between, ¬ event.answers occasion.requester due)
      ↔ (∀ event ∈ occasion.between, turn occasion.asked rank < event.now
          → ¬ event.delivers occasion.requester)
        ∧ ∀ noted, (occasion.met brain).pendingServes.lookup occasion.requester = some noted
          → ∀ event ∈ occasion.between, event.isTick = true → event.now < noted := by
  constructor
  · intro unanswered
    refine ⟨fun event member _ delivers => unanswered event member (.inl delivers), ?_⟩
    intro noted pending event member isTick
    by_contra reached
    refine unanswered event member (.inr ⟨isTick, ?_⟩)
    rcases isTurn with earlier | ⟨nothing, -⟩
    · rw [pending] at earlier
      cases earlier
      exact Nat.le_of_not_lt reached
    · rw [pending] at nothing
      cases nothing
  · rintro ⟨undelivered, ownTurn⟩ event member (delivers | ⟨isTick, reached⟩)
    · -- a delivery before the turn is excluded, one before the request by the clock
      have inRun : event ∈ occasion.events := by
        simp [Occasion.events, member]
      have later := (List.pairwise_append.mp fits.clocked).2.1
      have notBefore : occasion.asked ≤ event.now :=
        (List.pairwise_cons.mp later).1 event (List.mem_append_left _ member)
      rcases fits.noDelivery event inRun delivers with early | late
      · exact absurd notBefore (Nat.not_le_of_lt early)
      · exact undelivered event member late delivers
    · rcases isTurn with earlier | ⟨-, rfl⟩
      · exact absurd reached (Nat.not_le_of_lt (ownTurn due earlier event member isTick))
      · exact absurd reached (Nat.not_le_of_lt (fits.first event member isTick))

end Fits

end Occasion

/-- The node serves a newcomer at the first tick at or after its turn exactly if nothing has
it pass the newcomer over.
-/
theorem fallback_served_iff {occasion : Occasion} {brain : JoinBrain} {rank : Nat}
    (fits : occasion.Fits brain rank)
    : occasion.Served brain ↔ occasion.Unanswered brain rank := by
  obtain ⟨before, -, between, last⟩ := fits.steady_parts
  have serves : occasion.Served brain
      ↔ ∃ due, Waiting occasion.requester due (occasion.ticks brain) ∧ due ≤ occasion.ticked :=
    serves_tick_iff last.isSource last.unflagged
  rw [serves]
  constructor
  · rintro ⟨due, waiting, reached⟩
    have otherNode : Hex.eqIgnoreAsciiCase occasion.requester brain.myEcdhPk = false := by
      have steady := (Along.append_iff.mp fits.steady).2
      rcases pending_run fits.behind (Along.append_iff.mp steady).1 waiting.pending with
        noted | ⟨event, -, -, otherNode⟩
      · rcases pending_run fits.behind before noted with nothing | ⟨event, -, -, otherNode⟩
        · cases nothing
        · exact otherNode
      · exact otherNode
    have unanswered : occasion.requester ∉ (occasion.met brain).served := by
      intro answered
      exact fits.not_served_of_answered answered (serves.mpr ⟨due, waiting, reached⟩)
    obtain ⟨turn, waits, isTurn⟩ := fits.waiting otherNode unanswered
    have quiet : ∀ event ∈ occasion.between, ¬ event.answers occasion.requester turn := by
      intro event member answers
      have answered := waits.answered_run fits.behind between ⟨event, member, answers⟩
      exact waiting.unanswered answered
    obtain ⟨undelivered, ownTurn⟩ := (fits.not_answers_iff isTurn).mp quiet
    exact ⟨otherNode, unanswered, undelivered, ownTurn⟩
  · intro condition
    obtain ⟨due, waits, isTurn⟩ := fits.waiting condition.otherNode condition.unanswered
    have quiet := (fits.not_answers_iff isTurn).mpr ⟨condition.undelivered, condition.ownTurn⟩
    have waiting := waits.run fits.behind between quiet
    refine ⟨due, waiting, le_trans ?_ fits.reached⟩
    rcases isTurn with earlier | ⟨-, rfl⟩
    · exact fits.pending_le earlier
    · exact le_rfl

/-- The second member of an authority set of two. -/
def secondMember : JoinBrain where
  hasDb := true
  escrowHex := "e5"
  shardId := 7
  groupIdHex := "aa"
  myEcdhPk := "02"
  myAccountIdHex := "1111111111111111111111111111111111111111"

def tupleOfTwo : CurrentMembershipBundle where
  escrowHex := "e5"
  authorityEpoch := 1
  confirmedEpoch := 1
  prevEpochHashHex := "00"
  authoritySignersHex :=
    "0000000000000000000000000000000000000000" ++ "00000001"
      ++ "1111111111111111111111111111111111111111" ++ "00000001"
  authoritySignerCount := 2
  authorityQuorum := 2
  attestingSignersHex := ""
  attestingSignerCount := 0
  attestingQuorum := 2
  quorumBundleHex := ""

def envelopeOf (senderPk : String) : BootstrapEnvelope := ⟨"nonce", "iv", "ct", "tag", senderPk⟩

/-- Everything is in sync, and the enclave wraps what it is asked to. -/
def inSyncAnswers : Answers where
  nowUnix := 0
  source := fun _ => ⟨.ok (some ⟨1, 1, true⟩), some tupleOfTwo⟩
  exported := fun _ => .ok (envelopeOf "02")
  imported := fun _ => .error "not a newcomer"
  queriedEpoch := some 1
  sealedEpoch := some 1

/-- A delivery for the newcomer, as any peer can publish it. -/
def strayDeliver : Deliver where
  recipientPubkey := "03"
  shardId := 7
  groupId := "aa"
  escrowAccountId := "e5"
  authoritySigners := ""
  authoritySignerCount := 0
  authorityQuorum := 0
  authorityEpoch := 0
  confirmedEpoch := 0
  prevEpochHash := ""
  attestingSigners := ""
  attestingSignerCount := 0
  attestingQuorum := 0
  envelope := envelopeOf "04"

/-- A request at half a minute, a tick before its turn and a tick after it. -/
def requestAfter (before : List JoinEvent) : Occasion where
  bootstrapped := true
  before := before
  requester := "03"
  shardId := 7
  groupId := "aa"
  asked := 30 * second
  replies := inSyncAnswers
  between := [.tick (32 * second) inSyncAnswers]
  ticked := 34 * second
  answers := inSyncAnswers

theorem inSyncAnswers_source (requester : String)
    : (sourcePrepare secondMember (inSyncAnswers.source requester)).map Prod.snd = some 1 := by
  show (sourcePrepare secondMember ⟨.ok (some ⟨1, 1, true⟩), some tupleOfTwo⟩).map Prod.snd
    = some 1
  decide +kernel

/-- All events of these occasions find the node a source. -/
theorem requestAfter_sources {before : List JoinEvent}
    (sources
      : ∀ event ∈ before, event.SourceOfRank secondMember 1 ∧ event.isObserve = false)
    : ∀ event ∈ (requestAfter before).events,
      event.SourceOfRank secondMember 1 ∧ event.isObserve = false := by
  intro event member
  rcases List.mem_append.mp member with earlier | later
  · exact sources event earlier
  · simp only [requestAfter, List.mem_append, List.mem_cons, List.not_mem_nil, or_false] at later
    rcases later with (rfl | rfl) | rfl
    · exact ⟨inSyncAnswers_source, rfl⟩
    · exact ⟨inSyncAnswers_source, rfl⟩
    · exact ⟨inSyncAnswers_source, rfl⟩

/-- A newcomer that nobody has answered is served. -/
theorem fallback_served_first
    : (requestAfter []).Fits secondMember 1 ∧ (requestAfter []).Served secondMember := by
  have fits : (requestAfter []).Fits secondMember 1 := by
    refine ⟨by decide, ?_, ?_, rfl, by decide +kernel, ?_, by decide, ?_⟩
    · exact steady_of_unobserved rfl rfl (requestAfter_sources (by simp))
    · simp [requestAfter, Occasion.events, Occasion.request, Occasion.tick, JoinEvent.now,
        second]
    · simp [requestAfter, Occasion.events, Occasion.request, Occasion.tick, JoinEvent.delivers]
    · simp [requestAfter, JoinEvent.now, turn, electionJitter, second]
  refine ⟨fits, (fallback_served_iff fits).mpr ⟨by decide +kernel, ?_, ?_, ?_⟩⟩
  · exact Finset.notMem_empty _
  · simp [requestAfter, JoinEvent.delivers]
  · intro due nothing
    cases nothing

/-- A request after a delivery by anybody. -/
def repeatedRequest : Occasion :=
  requestAfter [.receive (.deliver strayDeliver) 0 inSyncAnswers]

/-- After a delivery by anybody the newcomer's next request is not served, although no
delivery comes while the node waits for its turn.
-/
theorem fallback_suppressed_by_earlier_deliver
    : repeatedRequest.Fits secondMember 1 ∧ ¬ repeatedRequest.Served secondMember := by
  have steady : Along (JoinState.step secondMember) (Steady secondMember 1) (.start true)
      repeatedRequest.events := by
    refine steady_of_unobserved rfl rfl (requestAfter_sources (fun event member => ?_))
    rw [List.mem_singleton.mp member]
    exact ⟨inSyncAnswers_source, rfl⟩
  have fits : repeatedRequest.Fits secondMember 1 := by
    refine ⟨by decide, steady, ?_, rfl, by decide +kernel, ?_, by decide, ?_⟩
    · simp [repeatedRequest, requestAfter, Occasion.events, Occasion.request, Occasion.tick,
        JoinEvent.now, second]
    · simp [repeatedRequest, requestAfter, Occasion.events, Occasion.request, Occasion.tick,
        JoinEvent.delivers, JoinEvent.now, strayDeliver, second]
    · simp [repeatedRequest, requestAfter, JoinEvent.now, turn, electionJitter, second]
  exact ⟨fits, fits.not_served_of_answered (Finset.mem_insert_self _ _)⟩

end Bootstrap

end PerpDex
