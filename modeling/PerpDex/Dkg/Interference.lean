import PerpDex.Dkg.Handlers
import PerpDex.Lib.Run

/-! Ceremonies that overlap at one node.
A node has one slot for the active ceremony. Most handlers look whether it holds the ceremony
they are about; the count of imports, the note of an import and the abort after a failure take
whichever ceremony is there. What the node does for a ceremony then depends on another one,
unless the slot holds the right ceremony each time.
-/

namespace PerpDex.Dkg

def DkgStepMessage.ceremonyId : DkgStepMessage → String
  | .round1Start ceremonyId _ _ _ => ceremonyId
  | .round1Done ceremonyId _ _ => ceremonyId
  | .round15Start ceremonyId => ceremonyId
  | .round15Done ceremonyId _ => ceremonyId
  | .round2Start ceremonyId _ => ceremonyId
  | .round2Done ceremonyId _ => ceremonyId
  | .finalizeStart ceremonyId => ceremonyId
  | .finalizeDone ceremonyId _ _ => ceremonyId
  | .abort ceremonyId _ _ => ceremonyId

def Task.ceremonyId : Task → String
  | .generate ceremonyId _ _ _ _ => ceremonyId
  | .exportShare ceremonyId _ _ _ _ => ceremonyId
  | .awaitImports ceremonyId _ _ => ceremonyId
  | .finalize ceremonyId _ => ceremonyId

/-- A node with what has happened at it: the ceremony in which the commitment of the import
in flight was looked up, the commitments that have been recorded, by ceremony and participant,
and the imports that succeeded, each with the commitment it was checked against.
-/
structure Watched where
  node : Node
  origin : Option String
  recorded : List (String × Nat × String)
  imports : List (Nat × String)

def Watched.fresh (identity : LocalIdentity) : Watched where
  node := .fresh identity
  origin := none
  recorded := []
  imports := []

/-- The commitments of the active ceremony. -/
def commitmentsOf (active : Option ActiveCeremony) : List (String × Nat × String) :=
  active.toList.flatMap (fun ceremony =>
    ceremony.vssCommitments.entries.map (fun entry =>
      (ceremony.ceremonyId, entry.1, entry.2)))

/-- The import that an event completes. -/
def completedImport (node : Node) : NodeEvent → List (Nat × String)
  | .imported (.ok ()) =>
      match node.importer with
      | some (.bootstrap share vss) => [(share.signerId, vss)]
      | _ => []
  | _ => []

def Watched.step (watched : Watched) (event : NodeEvent) : Watched :=
  let node := (watched.node.step event).1
  { node
    origin :=
      match event with
      | .receiveShare _ =>
          if watched.node.importer.isNone then
            watched.node.active.map ActiveCeremony.ceremonyId
          else watched.origin
      | _ => watched.origin
    recorded := watched.recorded ++ commitmentsOf node.active
    imports := watched.imports ++ completedImport watched.node event }

-----------------------------------------------------------------------------------------
-- What ceremonies are promised
-----------------------------------------------------------------------------------------

/-- Every participant noted as imported in the active ceremony had a share imported against a
commitment recorded for it in that ceremony.
-/
def ImportsBelong (watched : Watched) : Prop :=
  ∀ ceremony, watched.node.active = some ceremony
  → ∀ pid ∈ ceremony.importedFromPid, ∃ vss,
      (pid, vss) ∈ watched.imports ∧ (ceremony.ceremonyId, pid, vss) ∈ watched.recorded

/-- The active ceremony is this one and has the imports of all other participants. -/
def HasAllImports (active : Option ActiveCeremony) (ceremonyId : String) : Prop :=
  ∃ ceremony, active = some ceremony ∧ ceremony.ceremonyId = ceremonyId
    ∧ ceremony.nParticipants - 1 ≤ ceremony.importedFromPid.card

/-- The event is a step of this ceremony and fails. -/
def StepFailed (node : Node) (event : NodeEvent) (ceremonyId : String) : Prop :=
  (∃ message, event = .receive message ∧ message.ceremonyId = ceremonyId
    ∧ (handleMessage node.identity node.active message).isFailed)
  ∨ ∃ answer task effect, event = .resume answer ∧ node.follower = some task
      ∧ task.ceremonyId = ceremonyId
      ∧ resumeTask node.identity node.active task answer = some effect ∧ effect.isFailed

/-- What the node publishes in a step speaks for the ceremony it names: `Round2Done` once that
ceremony has all its imports, `Abort` once a step of that ceremony failed.
-/
def SpeaksForCeremony (watched : Watched) (event : NodeEvent) : Prop :=
  (∀ ceremonyId pid,
      .round2Done ceremonyId pid ∈ (watched.node.step event).2.steps
      → HasAllImports watched.node.active ceremonyId)
  ∧ ∀ ceremonyId pid reason,
      .abort ceremonyId pid reason ∈ (watched.node.step event).2.steps
      → StepFailed watched.node event ceremonyId

-----------------------------------------------------------------------------------------
-- When the promises are kept
-----------------------------------------------------------------------------------------

/-- A wait that ends finds its own ceremony active, with no more participants than it waits
for.
-/
def PollsOwn (active : Option ActiveCeremony) (task : Task) (answer : Resume) : Prop :=
  ∀ ceremonyId myPid want expired,
    task = .awaitImports ceremonyId myPid want
    → answer = .polled expired
    → want ≤ importCount active
    → ∃ ceremony, active = some ceremony ∧ ceremony.ceremonyId = ceremonyId
        ∧ ceremony.nParticipants - 1 ≤ want

/-- No event meets another ceremony than its own in the slot where it matters: a handler fails
only while its own ceremony or none is active, a wait for imports ends only while its own
ceremony is active, and an import succeeds only while the ceremony it was looked up in, or
none, is active.
-/
def Undisturbed (watched : Watched) : NodeEvent → Prop
  | .receive message =>
      watched.node.follower = none
      → ∀ ceremony, watched.node.active = some ceremony
        → Unwelcome watched.node.identity message
        → ceremony.ceremonyId = message.ceremonyId
  | .resume answer =>
      ∀ task, watched.node.follower = some task
      → PollsOwn watched.node.active task answer
        ∧ ∀ ceremony, watched.node.active = some ceremony
          → FailingAnswer watched.node.identity watched.node.active task answer
          → ceremony.ceremonyId = task.ceremonyId
  | .resumeDriver request answer =>
      ∀ initial ceremonyId n sent message task,
        watched.node.drivers request = .sending initial ceremonyId n sent message task
        → PollsOwn watched.node.active task answer
  | .imported result =>
      result = .ok ()
      → ∀ share vss ceremony,
          watched.node.importer = some (.bootstrap share vss)
          → watched.node.active = some ceremony
          → watched.origin = some ceremony.ceremonyId
  | _ => True

-----------------------------------------------------------------------------------------
-- What a node keeps
-----------------------------------------------------------------------------------------

/-- The imports belong to their ceremonies, and so will the one in flight, if the ceremony it
was looked up in is still active when it is noted.
-/
structure Sound (watched : Watched) : Prop where
  noted : ImportsBelong watched
  known : commitmentsOf watched.node.active ⊆ watched.recorded
  looked
    : ∀ share vss, watched.node.importer = some (.bootstrap share vss)
      → ∃ id, watched.origin = some id ∧ (id, share.signerId, vss) ∈ watched.recorded
  sends : ∀ request, SendsNeutral (watched.node.drivers request)

section Sound

variable {watched : Watched}

theorem ImportsBelong.of_kept {later : Watched} (belong : ImportsBelong watched)
    (kept : ImportsKept watched.node.active later.node.active)
    (imports : watched.imports ⊆ later.imports) (recorded : watched.recorded ⊆ later.recorded)
    : ImportsBelong later := by
  intro ceremony isActive pid noted
  rcases kept ceremony isActive with none | ⟨before, wasActive, sameId, sameImports⟩
  · rw [none] at noted
    cases noted
  · rw [← sameImports] at noted
    rw [← sameId]
    obtain ⟨vss, isImport, isRecorded⟩ := belong before wasActive pid noted
    exact ⟨vss, imports isImport, recorded isRecorded⟩

/-- Every commitment that the active ceremony gives out has been recorded. -/
theorem Sound.lookup_recorded (sound : Sound watched) {ceremony : ActiveCeremony}
    (isActive : watched.node.active = some ceremony) {pid : Nat} {vss : String}
    (found : ceremony.vssCommitments.lookup pid = some vss)
    : (ceremony.ceremonyId, pid, vss) ∈ watched.recorded := by
  apply sound.known
  rw [commitmentsOf, isActive]
  refine List.mem_flatMap.mpr ⟨ceremony, List.mem_singleton_self ceremony, ?_⟩
  have entry : (⟨pid, vss⟩ : Sigma (fun _ : Nat => String)) ∈ ceremony.vssCommitments.entries :=
    AList.mem_lookup_iff.mp found
  exact List.mem_map_of_mem (f := fun entry : Sigma (fun _ : Nat => String) =>
    (ceremony.ceremonyId, entry.1, entry.2)) entry

/-- A step that has nothing to do with imports keeps the node sound. -/
theorem Sound.bystander (sound : Sound watched) {event : NodeEvent}
    (bystander : Bystander watched.node (watched.node.step event).1)
    (sameOrigin : (watched.step event).origin = watched.origin)
    : Sound (watched.step event) where
  noted :=
    sound.noted.of_kept bystander.kept (List.subset_append_left _ _)
      (List.subset_append_left _ _)
  known := List.subset_append_right _ _
  looked := by
    intro share vss waiting
    replace waiting : (watched.node.step event).1.importer = some (.bootstrap share vss) :=
      waiting
    rw [bystander.importer] at waiting
    obtain ⟨id, isOrigin, isRecorded⟩ := sound.looked share vss waiting
    exact ⟨id, sameOrigin.trans isOrigin, List.mem_append_left _ isRecorded⟩
  sends := bystander.sends

/-- A share that arrives is looked up in the ceremony that is active. -/
theorem Sound.receiveShare (sound : Sound watched) (share : ShareMessage)
    : Sound (watched.step (.receiveShare share)) := by
  cases isImporting : watched.node.importer with
  | some waiting =>
      have stays : (watched.node.step (.receiveShare share)).1 = watched.node := by
        simp only [Node.step, isImporting]
      refine sound.bystander ?_ ?_
      · rw [stays]
        exact bystander_self sound.sends
      · simp [Watched.step, isImporting]
  | none =>
      have routed : (watched.node.step (.receiveShare share)).1
          = { watched.node with importer := routeInboundShareV2 watched.node.active share } := by
        simp only [Node.step, isImporting]
      have sameActive : (watched.node.step (.receiveShare share)).1.active
          = watched.node.active := by
        rw [routed]
      refine ⟨?_, List.subset_append_right _ _, ?_, ?_⟩
      · refine sound.noted.of_kept ?_ (List.subset_append_left _ _) (List.subset_append_left _ _)
        show ImportsKept watched.node.active (watched.node.step (.receiveShare share)).1.active
        rw [sameActive]
        exact .refl
      · intro pending vss waiting
        replace waiting : (watched.node.step (.receiveShare share)).1.importer
            = some (.bootstrap pending vss) := waiting
        rw [routed] at waiting
        replace waiting : routeInboundShareV2 watched.node.active share
            = some (.bootstrap pending vss) := waiting
        unfold routeInboundShareV2 at waiting
        split at waiting
        case isTrue =>
          obtain ⟨commitment, found, same⟩ := Option.map_eq_some_iff.mp waiting
          cases same
          obtain ⟨ceremony, isActive, found⟩ := Option.bind_eq_some_iff.mp found
          refine ⟨ceremony.ceremonyId, ?_, ?_⟩
          · simp [Watched.step, isImporting, isActive]
          · exact List.mem_append_left _ (sound.lookup_recorded isActive found)
        case isFalse => cases waiting
      · show ∀ request,
          SendsNeutral ((watched.node.step (.receiveShare share)).1.drivers request)
        rw [routed]
        exact sound.sends

/-- An import that succeeds belongs to the ceremony in which it is noted, if it was looked up
there.
-/
theorem Sound.noteImport (sound : Sound watched) {share : ShareMessage} {vss : String}
    (isImporting : watched.node.importer = some (.bootstrap share vss))
    (same
      : ∀ ceremony, watched.node.active = some ceremony
        → watched.origin = some ceremony.ceremonyId)
    : ImportsBelong (watched.step (.imported (.ok ()))) := by
  have noted : (watched.step (.imported (.ok ()))).node.active
      = Dkg.noteImport watched.node.active (.bootstrap share vss) := by
    simp only [Watched.step, Node.step, isImporting]
  intro ceremony isActive pid member
  rw [noted] at isActive
  obtain ⟨before, wasActive, rfl⟩ := Option.map_eq_some_iff.mp isActive
  rcases Finset.mem_insert.mp member with now | earlier
  · -- the share just imported: its commitment was recorded in the ceremony it was looked up in
    obtain ⟨id, isOrigin, isRecorded⟩ := sound.looked share vss isImporting
    have sameId : id = before.ceremonyId :=
      Option.some.inj (isOrigin.symm.trans (same before wasActive))
    subst sameId
    rw [now]
    refine ⟨vss, List.mem_append_right _ ?_, List.mem_append_left _ isRecorded⟩
    simp [completedImport, isImporting]
  · obtain ⟨commitment, isImport, isRecorded⟩ := sound.noted before wasActive pid earlier
    exact ⟨commitment, List.mem_append_left _ isImport, List.mem_append_left _ isRecorded⟩

/-- The enclave's answer to an import. -/
theorem Sound.imported (sound : Sound watched) {result : Except String Unit}
    (undisturbed : Undisturbed watched (.imported result))
    : Sound (watched.step (.imported result)) := by
  cases isImporting : watched.node.importer with
  | none =>
      have stays : (watched.node.step (.imported result)).1 = watched.node := by
        simp only [Node.step, isImporting]
      refine sound.bystander ?_ rfl
      rw [stays]
      exact bystander_self sound.sends
  | some waiting =>
      have ended : (watched.step (.imported result)).node.importer = none
          ∧ (watched.step (.imported result)).node.drivers = watched.node.drivers := by
        cases result with
        | error reason => simp only [Watched.step, Node.step, isImporting, and_self]
        | ok done => simp only [Watched.step, Node.step, isImporting, and_self]
      refine ⟨?_, List.subset_append_right _ _, ?_, ?_⟩
      · have keeps (unchanged : (watched.step (.imported result)).node.active
            = watched.node.active) : ImportsBelong (watched.step (.imported result)) := by
          refine sound.noted.of_kept ?_ (List.subset_append_left _ _)
            (List.subset_append_left _ _)
          rw [unchanged]
          exact .refl
        cases result with
        | error reason =>
            refine keeps ?_
            simp only [Watched.step, Node.step, isImporting]
        | ok done =>
            cases waiting with
            | bootstrap share vss =>
                refine sound.noteImport isImporting (fun ceremony isActive => ?_)
                exact undisturbed rfl share vss ceremony isImporting isActive
            | rotation share =>
                refine keeps ?_
                simp only [Watched.step, Node.step, isImporting, Dkg.noteImport]
      · intro share vss waiting
        rw [ended.1] at waiting
        cases waiting
      · rw [ended.2]
        exact sound.sends

/-- One event at the node. -/
theorem Sound.step (sound : Sound watched) {event : NodeEvent}
    (undisturbed : Undisturbed watched event)
    : Sound (watched.step event) := by
  cases event with
  | receive message =>
      refine sound.bystander ?_ rfl
      unfold Node.step
      dsimp only
      split
      · exact bystander_self sound.sends
      · exact bystander_follow sound.sends (handleMessage_orderly message)
  | resume answer =>
      refine sound.bystander ?_ rfl
      unfold Node.step
      dsimp only
      split
      case h_1 => exact bystander_self sound.sends
      case h_2 effect resumed =>
        obtain ⟨task, _, resumed⟩ := Option.bind_eq_some_iff.mp resumed
        exact bystander_follow sound.sends (resumeTask_orderly resumed)
  | receiveShare share => exact sound.receiveShare share
  | imported result => exact sound.imported undisturbed
  | start request id threshold =>
      refine sound.bystander ?_ rfl
      unfold Node.step
      dsimp only
      split
      · exact bystander_drive sound.sends request (handleStartDkg_orderly threshold).1
      · exact bystander_self sound.sends
  | resumeDriver request answer =>
      refine sound.bystander ?_ rfl
      have neutral := sound.sends request
      unfold Node.step
      dsimp only
      split
      case h_1 initial id n sent message task isSending =>
        rw [isSending] at neutral
        split
        case h_1 => exact bystander_self sound.sends
        case h_2 effect resumed =>
          exact bystander_drive sound.sends request
            (selfHandled_orderly (resumeTask_orderly resumed) neutral)
      case h_2 => exact bystander_self sound.sends
  | tick request expired =>
      refine sound.bystander ?_ rfl
      unfold Node.step
      dsimp only
      split
      · exact bystander_drive sound.sends request (driveCeremony_orderly expired).1
      · exact bystander_self sound.sends

/-- A wait that ends with its own ceremony active has counted that ceremony's imports. -/
theorem PollsOwn.hasAllImports {active : Option ActiveCeremony} {identity : LocalIdentity}
    {task : Task} {answer : Resume} {effect : Effect} (polls : PollsOwn active task answer)
    (resumed : resumeTask identity active task answer = some effect) {id : String} {pid : Nat}
    (published : .round2Done id pid ∈ effect.steps)
    : HasAllImports active id := by
  obtain ⟨want, expired, isTask, isAnswer, enough⟩ := resumeTask_round2Done resumed published
  obtain ⟨ceremony, isActive, same, few⟩ := polls id pid want expired isTask isAnswer enough
  refine ⟨ceremony, isActive, same, few.trans ?_⟩
  simpa [importCount, isActive] using enough

/-- A step that publishes neutral messages only. -/
theorem speaks_of_neutral {event : NodeEvent}
    (neutral : ∀ message ∈ (watched.node.step event).2.steps, message.isNeutral = true)
    : SpeaksForCeremony watched event := by
  constructor
  · intro id pid published
    cases neutral _ published
  · intro id pid reason published
    cases neutral _ published

/-- What a message makes the follower loop publish. -/
theorem speaks_receive {message : DkgStepMessage}
    (undisturbed : Undisturbed watched (.receive message))
    : SpeaksForCeremony watched (.receive message) := by
  cases idle : watched.node.follower with
  | some task =>
      refine speaks_of_neutral ?_
      simp [Node.step, idle]
  | none =>
      have step : watched.node.step (.receive message)
          = watched.node.follow
            (handleMessage watched.node.identity watched.node.active message) := by
        simp only [Node.step, idle]
      constructor
      · intro id pid published
        rw [step] at published
        cases handleMessage_neutral message _ (follow_round2Done published)
      · intro id pid reason published
        rw [step] at published
        obtain ⟨failed, ceremony, isActive, same⟩ :=
          follow_abort (handleMessage_orderly message) published
        have own := undisturbed idle ceremony isActive (handleMessage_failed failed)
        exact .inl ⟨message, rfl, own.symm.trans same, failed⟩

/-- What a suspended handler makes the follower loop publish. -/
theorem speaks_resume {answer : Resume} (undisturbed : Undisturbed watched (.resume answer))
    : SpeaksForCeremony watched (.resume answer) := by
  cases resumed : watched.node.follower.bind (fun task =>
      resumeTask watched.node.identity watched.node.active task answer) with
  | none =>
      refine speaks_of_neutral ?_
      simp [Node.step, resumed]
  | some effect =>
      have step : watched.node.step (.resume answer) = watched.node.follow effect := by
        simp only [Node.step, resumed]
      obtain ⟨task, isTask, resumed⟩ := Option.bind_eq_some_iff.mp resumed
      obtain ⟨polls, fails⟩ := undisturbed task isTask
      constructor
      · intro id pid published
        rw [step] at published
        exact polls.hasAllImports resumed (follow_round2Done published)
      · intro id pid reason published
        rw [step] at published
        obtain ⟨failed, ceremony, isActive, same⟩ :=
          follow_abort (resumeTask_orderly resumed) published
        have own := fails ceremony isActive (resumeTask_failed resumed failed)
        exact .inr ⟨answer, task, effect, rfl, isTask, own.symm.trans same, resumed, failed⟩

/-- What a request publishes once its handler goes on. -/
theorem Sound.speaks_resumeDriver (sound : Sound watched) {request : Nat} {answer : Resume}
    (undisturbed : Undisturbed watched (.resumeDriver request answer))
    : SpeaksForCeremony watched (.resumeDriver request answer) := by
  have neutral := sound.sends request
  cases isDriver : watched.node.drivers request with
  | sending initial id n sent message task =>
      rw [isDriver] at neutral
      cases resumed : resumeTask watched.node.identity watched.node.active task answer with
      | none =>
          refine speaks_of_neutral ?_
          simp [Node.step, isDriver, resumed]
      | some effect =>
          have step : (watched.node.step (.resumeDriver request answer)).2.steps
              = (selfHandled initial id n sent message effect).2.steps := by
            simp only [Node.step, isDriver, resumed, Node.drive]
          constructor
          · intro done pid published
            rw [step] at published
            rcases mem_selfHandled_steps published with own | isMessage
            · exact (undisturbed initial id n sent message task isDriver).hasAllImports
                resumed own
            · rw [← isMessage] at neutral
              cases neutral
          · intro aborted pid reason published
            rw [step] at published
            rcases mem_selfHandled_steps published with own | isMessage
            · exact absurd own ((resumeTask_orderly resumed).noAbort aborted pid reason)
            · rw [← isMessage] at neutral
              cases neutral
  | idle | driving | refused | responded =>
      refine speaks_of_neutral ?_
      simp [Node.step, isDriver]

/-- What the node publishes in one event. -/
theorem Sound.speaks (sound : Sound watched) {event : NodeEvent}
    (undisturbed : Undisturbed watched event)
    : SpeaksForCeremony watched event := by
  cases event with
  | receive message => exact speaks_receive undisturbed
  | resume answer => exact speaks_resume undisturbed
  | receiveShare share =>
      refine speaks_of_neutral ?_
      unfold Node.step
      dsimp only
      split <;> simp
  | imported result =>
      refine speaks_of_neutral ?_
      unfold Node.step
      dsimp only
      split <;> simp
  | start request id threshold =>
      refine speaks_of_neutral ?_
      unfold Node.step
      dsimp only
      split
      · exact (handleStartDkg_orderly threshold).2
      · simp
  | resumeDriver request answer => exact sound.speaks_resumeDriver undisturbed
  | tick request expired =>
      refine speaks_of_neutral ?_
      unfold Node.step
      dsimp only
      split
      · exact (driveCeremony_orderly expired).2
      · simp

end Sound

-----------------------------------------------------------------------------------------
-- Runs
-----------------------------------------------------------------------------------------

theorem sound_fresh (identity : LocalIdentity) : Sound (.fresh identity) where
  noted := fun _ isActive => (by cases isActive)
  known := List.nil_subset _
  looked := fun _ _ waiting => (by cases waiting)
  sends := fun _ => trivial

/-- In every run in which no event meets another ceremony than its own where it matters,
every import is noted in the ceremony it was checked for, and what the node publishes speaks
for the ceremony it names.
-/
theorem ceremonies_do_not_interfere (identity : LocalIdentity) {events : List NodeEvent}
    (undisturbed : Along Watched.step Undisturbed (.fresh identity) events)
    : (∀ front, front <+: events
        → ImportsBelong (front.foldl Watched.step (.fresh identity)))
      ∧ Along Watched.step SpeaksForCeremony (.fresh identity) events := by
  refine ⟨fun front isFront => ?_, ?_⟩
  · have along := undisturbed.front isFront
    have sound : Sound (front.foldl Watched.step (.fresh identity)) :=
      along.invariant (fun _ _ sound here => sound.step here) (sound_fresh identity)
    exact sound.noted
  · exact undisturbed.imp_of_invariant (fun _ _ sound here => sound.step here)
      (fun _ _ sound here => sound.speaks here) (sound_fresh identity)

/-- One of two nodes. -/
def firstOfTwo : LocalIdentity where
  xrplAddress := "rone"
  ecdhPubkey := "ecdh-rone"
  peers := [("rtwo", "ecdh-rtwo")]
  distinct := by decide
  notSelf := by decide

/-- A share of a ceremony, from the other node. -/
def shareOfSecond : ShareMessage where
  recipientPubkey := "ecdh-rone"
  shardId := 0
  groupId := sentinelGroupIdZeros
  signerId := 1
  envelope := ⟨"nonce", "iv", "ct", "tag", "ecdh-rtwo"⟩

/-- What the first of two nodes goes through in a ceremony up to the second round. -/
def joined (ceremonyId : String) : List NodeEvent := [
  .receive (.round1Start ceremonyId 2 2 [("rone", 0), ("rtwo", 1)]),
  .resume (.generated (.ok "v0")),
  .receive (.round1Done ceremonyId 1 "v1"),
  .receiveShare shareOfSecond,
  .receive (.round2Start ceremonyId [])
]

/-- The first of two nodes after some events. -/
def watchedAfter (events : List NodeEvent) : Watched :=
  events.foldl Watched.step (.fresh firstOfTwo)

def soleCeremony : List NodeEvent :=
  joined "c" ++ [.imported (.ok ()), .resume (.polled false)]

theorem ceremonyId_of_active {active : Option ActiveCeremony} {id : String}
    (known : active.map ActiveCeremony.ceremonyId = some id) {ceremony : ActiveCeremony}
    (isActive : active = some ceremony)
    : ceremony.ceremonyId = id := by
  rw [isActive] at known
  exact Option.some.inj known

/-- A ceremony by itself: the other node's share is noted, and `Round2Done` published. -/
theorem ceremonies_do_not_interfere_alone
    : ((watchedAfter soleCeremony).node.active.map ActiveCeremony.importedFromPid) = some {1}
      ∧ ImportsBelong (watchedAfter soleCeremony)
      ∧ Along Watched.step SpeaksForCeremony (.fresh firstOfTwo) soleCeremony := by
  have undisturbed : Along Watched.step Undisturbed (.fresh firstOfTwo) soleCeremony := by
    refine ⟨?_, ?_, ?_, trivial, ?_, ?_, ?_, trivial⟩
    · intro _ ceremony isActive
      cases isActive
    · rintro task ⟨⟩
      refine ⟨fun _ _ _ _ other => (by cases other), fun ceremony isActive => ?_⟩
      cases isActive
    · intro _ ceremony isActive _
      exact ceremonyId_of_active (by decide +kernel) isActive
    · intro _ ceremony isActive _
      exact ceremonyId_of_active (by decide +kernel) isActive
    · intro _ share vss ceremony _ isActive
      have isSole : ceremony.ceremonyId = "c" := ceremonyId_of_active (by decide +kernel) isActive
      rw [isSole]
      decide +kernel
    · rintro task ⟨⟩
      refine ⟨?_, fun ceremony isActive _ => ?_⟩
      · rintro id pid want expired ⟨⟩ - -
        exact ⟨_, rfl, by decide +kernel, by decide +kernel⟩
      · exact ceremonyId_of_active (by decide +kernel) isActive
  have result := ceremonies_do_not_interfere firstOfTwo undisturbed
  exact ⟨by decide +kernel, result.1 soleCeremony List.prefix_rfl, result.2⟩

/-- A second ceremony begins at the node while it waits for the imports of the first. -/
def overlapping : List NodeEvent :=
  joined "c1" ++ [
    .start 0 "c2" 2,
    .resumeDriver 0 (.generated (.ok "w0")),
    .imported (.ok ())
  ]

/-- The share of the first ceremony is noted in the second one, in which no commitment of the
sender has been recorded. The node then publishes `Round2Done` for the first ceremony, which
is not active any more, and on the next message of the first ceremony it aborts the second.
-/
theorem overlapping_ceremonies_interfere
    : ¬ ImportsBelong (watchedAfter overlapping)
      ∧ (.round2Done "c1" 0
          ∈ ((watchedAfter overlapping).node.step (.resume (.polled false))).2.steps
        ∧ ¬ HasAllImports (watchedAfter overlapping).node.active "c1")
      ∧ ∃ reason, .abort "c2" 0 reason
          ∈ ((watchedAfter (overlapping ++ [.resume (.polled false)])).node.step
            (.receive (.round15Start "c1"))).2.steps
        ∧ ¬ StepFailed (watchedAfter (overlapping ++ [.resume (.polled false)])).node
          (.receive (.round15Start "c1")) "c2" := by
  have second : (watchedAfter overlapping).node.active.map ActiveCeremony.ceremonyId
      = some "c2" := by
    decide +kernel
  refine ⟨fun belong => ?_, ⟨by decide +kernel, ?_⟩, "Round15Start for unknown ceremony c1",
    by decide +kernel, ?_⟩
  · have noted : (watchedAfter overlapping).node.active.map ActiveCeremony.importedFromPid
        = some {1} := by
      decide +kernel
    obtain ⟨ceremony, isActive, imports⟩ := Option.map_eq_some_iff.mp noted
    obtain ⟨vss, -, isRecorded⟩ := belong ceremony isActive 1 (by simp [imports])
    rw [ceremonyId_of_active second isActive] at isRecorded
    have unknown : ∀ entry ∈ (watchedAfter overlapping).recorded,
        ¬ (entry.1 = "c2" ∧ entry.2.1 = 1) := by
      decide +kernel
    exact unknown _ isRecorded ⟨rfl, rfl⟩
  · rintro ⟨ceremony, isActive, same, -⟩
    rw [ceremonyId_of_active second isActive] at same
    exact absurd same (by decide)
  · rintro (⟨message, isMessage, same, -⟩ | ⟨answer, task, effect, isResume, -⟩)
    · cases isMessage
      exact absurd same (by decide)
    · cases isResume

end PerpDex.Dkg
