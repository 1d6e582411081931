import PerpDex.Dkg.Agreement

/-! How a node learns the commitment of the leader.
It does from the leader's acknowledgement of the first round alone, and only while a
ceremony is active, so a node that begins after that acknowledgement stays without it.
-/

namespace PerpDex.Dkg

-----------------------------------------------------------------------------------------
-- What a handler can do to the commitments
-----------------------------------------------------------------------------------------

def Task.isGenerate : Task → Bool
  | .generate .. => true
  | _ => false

/-- A message that neither starts a ceremony nor acknowledges its first round. -/
def DkgStepMessage.isPlain : DkgStepMessage → Bool
  | .round1Start .. => false
  | .round1Done .. => false
  | _ => true

/-- Neither the commitment of a participant is known nor its share imported. -/
def Without (own : Nat) (active : Option ActiveCeremony) : Prop :=
  ∀ ceremony, active = some ceremony →
    ceremony.vssCommitments.lookup own = none ∧ own ∉ ceremony.importedFromPid

/-- A piece of a handler that learns no commitment of a participant, begins no ceremony and
publishes plain messages only.
-/
structure Quiet (own : Nat) (active : Option ActiveCeremony) (effect : Effect) : Prop where
  without : Without own active → Without own effect.active
  stays : active = none → effect.active = none
  plain : ∀ message ∈ effect.steps, message.isPlain
  waits : ∀ task, effect.progress = .suspended task → task.isGenerate = false

section Handlers

variable {own : Nat} {active : Option ActiveCeremony} {identity : LocalIdentity}

theorem without_none : Without own none := by
  intro ceremony nothing
  cases nothing

/-- A change that leaves commitments and imports alone. -/
theorem Without.onCeremony (without : Without own active) (id : String)
    {change : ActiveCeremony → ActiveCeremony}
    (sameVss : ∀ ceremony, (change ceremony).vssCommitments = ceremony.vssCommitments)
    (sameImports : ∀ ceremony, (change ceremony).importedFromPid = ceremony.importedFromPid)
    : Without own (Dkg.onCeremony active id change) := by
  intro ceremony isActive
  obtain ⟨before, wasActive, rfl⟩ := Option.map_eq_some_iff.mp isActive
  split
  · rw [sameVss, sameImports]
    exact without before wasActive
  · exact without before wasActive

/-- A handler that changes neither commitments nor imports, and then ends. -/
theorem quiet_changed (id : String) {change : ActiveCeremony → ActiveCeremony}
    {steps : List DkgStepMessage} {shares : List ShareMessage}
    {finalized : List (String × String)} (plain : ∀ message ∈ steps, message.isPlain)
    (sameVss : ∀ ceremony, (change ceremony).vssCommitments = ceremony.vssCommitments)
    (sameImports : ∀ ceremony, (change ceremony).importedFromPid = ceremony.importedFromPid)
    : Quiet own active
      { active := onCeremony active id change, progress := .finished, steps, shares, finalized }
    where
  without := fun without => without.onCeremony id sameVss sameImports
  stays := fun nothing => by subst nothing; rfl
  plain := plain
  waits := fun task isTask => by cases isTask

theorem quiet_failure (reason : String) : Quiet own active (failure active reason) where
  without := id
  stays := id
  plain := by simp [failure]
  waits := fun task isTask => by cases isTask

theorem quiet_waiting {task : Task} (other : task.isGenerate = false)
    : Quiet own active (waiting active task) where
  without := id
  stays := id
  plain := by simp [waiting]
  waits := fun _ isTask => by cases isTask; exact other

theorem quiet_exportNext (id : String) (myPid : Nat) (remaining : List (String × Nat))
    : Quiet own active (exportNext identity active id myPid remaining) := by
  induction remaining with
  | nil => exact quiet_changed id (by simp [DkgStepMessage.isPlain]) (fun _ => rfl) (fun _ => rfl)
  | cons entry rest ih =>
      unfold exportNext
      split
      · exact ih
      · split
        · exact quiet_failure _
        · exact quiet_waiting rfl

/-- Every message but a start of a ceremony is quiet, if the participant's own
acknowledgement finds no ceremony.
-/
theorem quiet_handleMessage {message : DkgStepMessage}
    (noStart : ∀ id threshold n pidAssignment, message ≠ .round1Start id threshold n pidAssignment)
    (missed : ∀ id vss, message = .round1Done id own vss → active = none)
    : Quiet own active (handleMessage identity active message) := by
  cases message with
  | round1Start id threshold n pidAssignment => exact absurd rfl (noStart _ _ _ _)
  | round1Done id pid vss =>
      refine ⟨fun without ceremony isActive => ?_, fun nothing => ?_, by simp [handleMessage,
        recorded], fun task isTask => by cases isTask⟩
      · obtain ⟨before, wasActive, rfl⟩ := Option.map_eq_some_iff.mp isActive
        obtain ⟨unknown, unimported⟩ := without before wasActive
        split
        · refine ⟨?_, unimported⟩
          have other : own ≠ pid := by
            intro same
            have none := missed id vss (by rw [same])
            rw [wasActive] at none
            cases none
          rw [AList.lookup_insert_ne other]
          exact unknown
        · exact ⟨unknown, unimported⟩
      · subst nothing
        rfl
  | round15Start id =>
      show Quiet own active (round15Start identity active id)
      unfold round15Start
      split
      · exact quiet_failure _
      · exact quiet_exportNext id _ _
  | round15Done id pid => exact quiet_changed id (by simp) (fun _ => rfl) (fun _ => rfl)
  | round2Start id commitments =>
      show Quiet own active (round2Start active id)
      unfold round2Start
      split
      · exact quiet_failure _
      · exact quiet_waiting rfl
  | round2Done id pid => exact quiet_changed id (by simp) (fun _ => rfl) (fun _ => rfl)
  | finalizeStart id =>
      show Quiet own active (finalizeStart active id)
      unfold finalizeStart
      split
      · exact quiet_failure _
      · exact quiet_waiting rfl
  | finalizeDone id pid key => exact quiet_changed id (by simp) (fun _ => rfl) (fun _ => rfl)
  | abort id pid reason =>
      refine ⟨fun without ceremony isActive => ?_, fun nothing => ?_, by simp [handleMessage,
        recorded], fun task isTask => by cases isTask⟩
      · exact without ceremony (Option.filter_eq_some_iff.mp isActive).1
      · subst nothing
        rfl

/-- Every suspended handler but the one that begins a ceremony goes on quietly. -/
theorem quiet_resumeTask {task : Task} {answer : Resume} {effect : Effect}
    (other : task.isGenerate = false)
    (resumed : resumeTask identity active task answer = some effect)
    : Quiet own active effect := by
  unfold resumeTask at resumed
  split at resumed
  case h_1 => cases other
  case h_2 => cases other
  case h_3 id myPid peer peerEcdh remaining envelope =>
    cases resumed
    have next : Quiet own active (exportNext identity active id myPid remaining) :=
      quiet_exportNext id myPid remaining
    exact ⟨next.without, next.stays, next.plain, next.waits⟩
  case h_5 id myPid want expired =>
    dsimp only at resumed
    split at resumed
    · cases resumed
      exact quiet_changed id (by simp [DkgStepMessage.isPlain]) (fun _ => rfl) (fun _ => rfl)
    split at resumed
    · cases resumed
      exact quiet_failure _
    · cases resumed
      exact quiet_waiting rfl
  case h_6 id myPid key =>
    cases resumed
    exact quiet_changed id (by simp [DkgStepMessage.isPlain]) (fun _ => rfl) (fun _ => rfl)
  case h_8 => cases resumed
  all_goals
    cases resumed
    exact quiet_failure _

/-- The answer to the enclave call that begins a ceremony. -/
theorem resumeTask_generate {id : String} {threshold n myPid : Nat}
    {pidAssignment : List (String × Nat)} {answer : Resume} {effect : Effect}
    (resumed : resumeTask identity active (.generate id threshold n pidAssignment myPid) answer
      = some effect)
    : (∃ vss, effect = {
        active := some (begun id threshold n pidAssignment myPid vss),
        progress := .finished, steps := [.round1Done id myPid vss] })
      ∨ effect = failure active "dkg_round1_generate failed" := by
  cases answer with
  | generated result =>
      cases result with
      | ok vss => exact .inl ⟨vss, (Option.some.inj resumed).symm⟩
      | error reason => exact .inr (Option.some.inj resumed).symm
  | exported result => cases resumed
  | polled expired => cases resumed
  | finalized result => cases resumed

end Handlers

-----------------------------------------------------------------------------------------
-- A follower without the commitment
-----------------------------------------------------------------------------------------

/-- The acknowledgement of the first round by the participant with an id. -/
def IsDone (own : Nat) (message : DkgStepMessage) : Prop :=
  ∃ id vss, message = .round1Done id own vss

def IsStart (message : DkgStepMessage) : Prop :=
  ∃ id threshold n pidAssignment, message = .round1Start id threshold n pidAssignment

/-- No acknowledgement comes after a start. -/
def DoneFirst (own : Nat) : List DkgStepMessage → Prop
  | [] => True
  | message :: rest =>
      (IsStart message → ∀ later ∈ rest, ¬ IsDone own later) ∧ DoneFirst own rest

/-- The node takes part in a ceremony, or is about to. -/
def Begun (node : Node) : Prop :=
  node.active ≠ none ∨ ∃ task, node.follower = some task ∧ task.isGenerate = true

/-- A follower without the leader's commitment: it is not known, no share is being imported
against it, and what is under way from the leader will not bring it.
-/
structure Missing (own : Nat) (node : Node) (mail : List DkgStepMessage) : Prop where
  without : Without own node.active
  importer : ∀ share vss, node.importer = some (.bootstrap share vss) → share.signerId ≠ own
  order : DoneFirst own mail
  begun : Begun node → ∀ message ∈ mail, ¬ IsDone own message

section Invariant

variable (cluster : Cluster) (leader : String) (own : Nat)

/-- Only the leader starts ceremonies, with its own assignment, and a participant
acknowledges under its own id.
-/
def SentBy (sender : String) : DkgStepMessage → Prop
  | .round1Start _ _ _ pidAssignment =>
      sender = leader ∧ pidAssignment = assignmentOf cluster leader
  | .round1Done _ pid _ => pidOf (assignmentOf cluster leader) sender = some pid
  | _ => True

/-- A follower that begins a ceremony does so under its own id. -/
def GeneratesFor (address : String) : Task → Prop
  | .generate _ _ _ _ myPid =>
      address ≠ leader ∧ pidOf (assignmentOf cluster leader) address = some myPid
  | _ => True

/-- The leader's request after the ceremony is published. -/
def LateDriver : Driver → Prop
  | .idle => False
  | .sending _ _ _ _ message task => message.isPlain = true ∧ task.isGenerate = false
  | _ => True

/-- A step of one node that keeps a ceremony under way. -/
structure StepKeeps (address : String) (mail : List DkgStepMessage) (result : Node × Output)
    : Prop where
  identity : result.1.identity = cluster.identity address
  sends : ∀ message ∈ result.2.steps, SentBy cluster leader address message
  plain : address = leader → ∀ message ∈ result.2.steps, message.isPlain = true
  generating : ∀ task, result.1.follower = some task → GeneratesFor cluster leader address task
  driver : address = leader → LateDriver (result.1.drivers 0)
  missing : address ≠ leader → Missing own result.1 mail

end Invariant

section Plain

variable {cluster : Cluster} {leader : String} {own : Nat}

theorem not_isDone_of_plain {message : DkgStepMessage} (plain : message.isPlain = true)
    : ¬ IsDone own message := by
  rintro ⟨id, vss, rfl⟩
  cases plain

theorem not_isStart_of_plain {message : DkgStepMessage} (plain : message.isPlain = true)
    : ¬ IsStart message := by
  rintro ⟨id, threshold, n, pidAssignment, rfl⟩
  cases plain

theorem sentBy_of_plain {sender : String} {message : DkgStepMessage}
    (plain : message.isPlain = true)
    : SentBy cluster leader sender message := by
  cases message with
  | round1Start => cases plain
  | round1Done => cases plain
  | _ => trivial

theorem generatesFor_of_other {address : String} {task : Task} (other : task.isGenerate = false)
    : GeneratesFor cluster leader address task := by
  cases task with
  | generate => cases other
  | _ => trivial

theorem DoneFirst.append {mail more : List DkgStepMessage} (order : DoneFirst own mail)
    (plain : ∀ message ∈ more, message.isPlain = true)
    : DoneFirst own (mail ++ more) := by
  induction mail with
  | nil =>
      induction more with
      | nil => trivial
      | cons message rest ih =>
          have isPlain := plain message List.mem_cons_self
          refine ⟨fun start => absurd start (not_isStart_of_plain isPlain), ?_⟩
          exact ih (fun other member => plain other (.tail message member))
  | cons message rest ih =>
      refine ⟨fun start later member => ?_, ih order.2⟩
      rcases List.mem_append.mp member with before | added
      · exact order.1 start later before
      · exact not_isDone_of_plain (plain later added)

/-- Plain messages from the leader bring no commitment. -/
theorem Missing.append {node : Node} {mail more : List DkgStepMessage}
    (missing : Missing own node mail) (plain : ∀ message ∈ more, message.isPlain = true)
    : Missing own node (mail ++ more) where
  without := missing.without
  importer := missing.importer
  order := missing.order.append plain
  begun := by
    intro begun message member
    rcases List.mem_append.mp member with before | added
    · exact missing.begun begun message before
    · exact not_isDone_of_plain (plain message added)

end Plain

-----------------------------------------------------------------------------------------
-- The steps of a node
-----------------------------------------------------------------------------------------

section Steps

variable {cluster : Cluster} {leader : String} {own : Nat} {address : String} {node : Node}
  {mail : List DkgStepMessage}

/-- What a node in a ceremony under way keeps. -/
structure NodeKept (cluster : Cluster) (leader : String) (own : Nat) (address : String)
    (node : Node) (mail : List DkgStepMessage) : Prop where
  identity : node.identity = cluster.identity address
  generating : ∀ task, node.follower = some task → GeneratesFor cluster leader address task
  driver : address = leader → LateDriver (node.drivers 0)
  missing : address ≠ leader → Missing own node mail

/-- The follower loop adds nothing but an abort to what a handler publishes. -/
theorem mem_follow_steps {node : Node} {effect : Effect} {message : DkgStepMessage}
    (member : message ∈ (node.follow effect).2.steps)
    : message ∈ effect.steps ∨ message.isPlain = true := by
  unfold Node.follow at member
  split at member
  case h_1 => exact .inl member
  case h_2 => exact .inl member
  case h_3 =>
    rcases List.mem_append.mp member with published | aborted
    · exact .inl published
    · obtain ⟨ceremony, _, rfl⟩ := List.mem_map.mp aborted
      exact .inr rfl

/-- A quiet piece of the follower loop. -/
theorem NodeKept.follow_quiet (kept : NodeKept cluster leader own address node mail)
    {effect : Effect} (quiet : Quiet own node.active effect)
    : StepKeeps cluster leader own address mail (node.follow effect) := by
  have plain : ∀ message ∈ (node.follow effect).2.steps, message.isPlain = true := by
    intro message member
    rcases mem_follow_steps member with published | isPlain
    · exact quiet.plain message published
    · exact isPlain
  refine ⟨?_, fun message member => sentBy_of_plain (plain message member), fun _ => plain, ?_,
    fun isLeader => ?_, fun follows => ?_⟩
  · rw [follow_identity]
    exact kept.identity
  · intro task isTask
    exact generatesFor_of_other (quiet.waits task (follow_follower node effect isTask))
  · rw [follow_drivers]
    exact kept.driver isLeader
  · have missing := kept.missing follows
    refine ⟨?_, ?_, missing.order, fun begun => missing.begun ?_⟩
    · rw [follow_active]
      exact quiet.without missing.without
    · rw [follow_importer]
      exact missing.importer
    · rcases begun with isActive | ⟨task, isTask, generates⟩
      · rw [follow_active] at isActive
        exact .inl (fun nothing => isActive (quiet.stays nothing))
      · rw [quiet.waits task (follow_follower node effect isTask)] at generates
        cases generates

/-- The start of the ceremony at a follower. -/
theorem NodeKept.follow_start (kept : NodeKept cluster leader own address node mail)
    (follows : address ≠ leader) (noDone : ∀ message ∈ mail, ¬ IsDone own message)
    (id : String) (threshold n : Nat)
    : StepKeeps cluster leader own address mail
      (node.follow (round1Start node.identity node.active id threshold n
        (assignmentOf cluster leader))) := by
  unfold round1Start
  split
  case h_1 => exact kept.follow_quiet (quiet_failure _)
  case h_2 entry found =>
    have missing := kept.missing follows
    refine ⟨kept.identity, fun _ member => (by cases member), fun _ _ member => (by cases member),
      fun task isTask => ?_, fun isLeader => absurd isLeader follows, fun _ => ?_⟩
    · cases isTask
      rw [kept.identity, cluster.named address] at found
      exact ⟨follows, by rw [pidOf, found]; rfl⟩
    · exact ⟨missing.without, missing.importer, missing.order, fun _ => noDone⟩

/-- A message that a node takes. -/
theorem NodeKept.receive (kept : NodeKept cluster leader own address node mail)
    (idle : node.follower = none) {message : DkgStepMessage}
    (start : IsStart message → address ≠ leader ∧ (∀ later ∈ mail, ¬ IsDone own later)
      ∧ SentBy cluster leader leader message)
    (done : IsDone own message → node.active = none)
    : StepKeeps cluster leader own address mail (node.step (.receive message)) := by
  have step : node.step (.receive message)
      = node.follow (handleMessage node.identity node.active message) := by
    unfold Node.step
    rw [idle]
  rw [step]
  by_cases isStart : IsStart message
  · obtain ⟨follows, noDone, sent⟩ := start isStart
    obtain ⟨id, threshold, n, pidAssignment, rfl⟩ := isStart
    obtain ⟨_, rfl⟩ := sent
    exact kept.follow_start follows noDone id threshold n
  · refine kept.follow_quiet (quiet_handleMessage ?_ ?_)
    · intro id threshold n pidAssignment same
      exact isStart ⟨id, threshold, n, pidAssignment, same⟩
    · intro id vss same
      exact done ⟨id, vss, same⟩

/-- A step that publishes nothing and leaves follower loop and requests alone. -/
theorem NodeKept.silent (kept : NodeKept cluster leader own address node mail) {next : Node}
    (identity : next.identity = node.identity) (follower : next.follower = node.follower)
    (drivers : next.drivers = node.drivers)
    (missing : address ≠ leader → Missing own next mail)
    : StepKeeps cluster leader own address mail (next, {}) where
  identity := identity.trans kept.identity
  sends := fun _ member => (by cases member)
  plain := fun _ _ member => (by cases member)
  generating := fun task isTask => kept.generating task (follower.symm.trans isTask)
  driver := fun isLeader => drivers.symm ▸ kept.driver isLeader
  missing := missing

theorem NodeKept.unchanged (kept : NodeKept cluster leader own address node mail)
    : StepKeeps cluster leader own address mail (node, {}) :=
  kept.silent rfl rfl rfl kept.missing

/-- Another participant has another id. -/
theorem pid_ne_own {pid : Nat} (assigned : (leader, own) ∈ assignmentOf cluster leader)
    (isPid : pidOf (assignmentOf cluster leader) address = some pid)
    (follows : address ≠ leader)
    : pid ≠ own := by
  rintro rfl
  obtain ⟨entry, found, rfl⟩ := Option.map_eq_some_iff.mp isPid
  have isAddress : entry.1 = address := by simpa using List.find?_some found
  have member : (entry.1, entry.2) ∈ assignmentOf cluster leader :=
    List.mem_of_find?_eq_some found
  exact follows (isAddress.symm.trans (address_unique member assigned))

/-- A suspended handler of the follower loop goes on. -/
theorem NodeKept.resume (kept : NodeKept cluster leader own address node mail)
    (assigned : (leader, own) ∈ assignmentOf cluster leader) (answer : Resume)
    : StepKeeps cluster leader own address mail (node.step (.resume answer)) := by
  unfold Node.step
  dsimp only
  split
  case h_1 => exact kept.unchanged
  case h_2 effect resumed =>
    obtain ⟨task, isTask, resumed⟩ := Option.bind_eq_some_iff.mp resumed
    have generates := kept.generating task isTask
    cases task with
    | generate id threshold n pidAssignment myPid =>
        have missing := kept.missing generates.1
        have noDone := missing.begun (.inr ⟨_, isTask, rfl⟩)
        rcases resumeTask_generate resumed with ⟨vss, rfl⟩ | rfl
        · refine ⟨kept.identity, fun message member => ?_,
            fun isLeader => absurd isLeader generates.1, fun _ none => (by cases none),
            fun isLeader => absurd isLeader generates.1, fun _ => ?_⟩
          · rw [List.mem_singleton.mp member]
            exact generates.2
          · refine ⟨fun ceremony isActive => ?_, missing.importer, missing.order, fun _ => noDone⟩
            cases isActive
            refine ⟨?_, by simp [begun]⟩
            have other := pid_ne_own assigned generates.2 generates.1
            rw [begun, AList.lookup_insert_ne (Ne.symm other)]
            exact AList.lookup_empty own
        · exact kept.follow_quiet (quiet_failure _)
    | exportShare | awaitImports | finalize =>
        exact kept.follow_quiet (quiet_resumeTask rfl resumed)

/-- A share that arrives: one of the leader finds no commitment. -/
theorem NodeKept.receiveShare (kept : NodeKept cluster leader own address node mail)
    (share : ShareMessage)
    : StepKeeps cluster leader own address mail (node.step (.receiveShare share)) := by
  unfold Node.step
  dsimp only
  split
  case h_1 => exact kept.unchanged
  case h_2 =>
    refine kept.silent rfl rfl rfl (fun follows => ?_)
    have missing := kept.missing follows
    refine ⟨missing.without, fun taken vss isTaken => ?_, missing.order, missing.begun⟩
    dsimp only [routeInboundShareV2] at isTaken
    split at isTaken
    · obtain ⟨found, isFound, same⟩ := Option.map_eq_some_iff.mp isTaken
      obtain ⟨ceremony, isActive, isKnown⟩ := Option.bind_eq_some_iff.mp isFound
      cases same
      intro isOwn
      rw [isOwn, (missing.without ceremony isActive).1] at isKnown
      cases isKnown
    · cases isTaken

/-- An import that ends: it is of another participant's share. -/
theorem NodeKept.imported (kept : NodeKept cluster leader own address node mail)
    (result : Except String Unit)
    : StepKeeps cluster leader own address mail (node.step (.imported result)) := by
  unfold Node.step
  dsimp only
  split
  case h_1 => exact kept.unchanged
  case h_2 =>
    refine kept.silent rfl rfl rfl (fun follows => ?_)
    have missing := kept.missing follows
    exact ⟨missing.without, fun _ _ none => (by cases none), missing.order, missing.begun⟩
  case h_3 waiting isWaiting =>
    refine kept.silent rfl rfl rfl (fun follows => ?_)
    have missing := kept.missing follows
    cases waiting with
    | rotation share =>
        exact ⟨missing.without, fun _ _ none => (by cases none), missing.order, missing.begun⟩
    | bootstrap share vss =>
        refine ⟨fun ceremony isActive => ?_, fun _ _ none => (by cases none), missing.order,
          fun begun => missing.begun ?_⟩
        · obtain ⟨before, wasActive, rfl⟩ := Option.map_eq_some_iff.mp isActive
          obtain ⟨unknown, unimported⟩ := missing.without before wasActive
          refine ⟨unknown, fun member => ?_⟩
          rcases Finset.mem_insert.mp member with same | inside
          · exact missing.importer share vss isWaiting same.symm
          · exact unimported inside
        · rcases begun with isActive | generating
          · refine .inl (fun nothing => isActive ?_)
            show node.active.map _ = none
            rw [nothing]
            rfl
          · exact .inr generating

/-- A piece of the leader's request after the ceremony is published. -/
structure LatePiece (piece : Driver × Effect) : Prop where
  driver : LateDriver piece.1
  plain : ∀ message ∈ piece.2.steps, message.isPlain = true

theorem NodeKept.drive_late (kept : NodeKept cluster leader own leader node mail)
    {piece : Driver × Effect} (late : LatePiece piece)
    : StepKeeps cluster leader own leader mail (node.drive 0 piece) := by
  refine ⟨kept.identity, fun message member => sentBy_of_plain (late.plain message member),
    fun _ => late.plain, kept.generating, fun _ => ?_, fun follows => absurd rfl follows⟩
  show LateDriver (Function.update node.drivers 0 piece.1 0)
  rw [Function.update_self]
  exact late.driver

theorem selfHandled_late {initial : Bool} {id : String} {n : Nat} {sent : Sent}
    {message : DkgStepMessage} {active : Option ActiveCeremony} {effect : Effect}
    (plain : message.isPlain = true) (quiet : Quiet own active effect)
    : LatePiece (selfHandled initial id n sent message effect) := by
  unfold selfHandled
  split
  case h_1 task suspended => exact ⟨⟨plain, quiet.waits task suspended⟩, quiet.plain⟩
  case h_2 =>
    refine ⟨trivial, fun other member => ?_⟩
    rcases List.mem_append.mp member with published | added
    · exact quiet.plain other published
    · rw [List.mem_singleton.mp added]
      exact plain
  case h_3 =>
    split
    · exact ⟨trivial, quiet.plain⟩
    · exact ⟨trivial, quiet.plain⟩

theorem driveCeremony_late (identity : LocalIdentity) (active : Option ActiveCeremony)
    (id : String) (n : Nat) (sent : Sent) (expired : Bool)
    : LatePiece (driveCeremony identity active id n sent expired) := by
  have unpublished : ∀ (other : Option ActiveCeremony),
      ∀ message ∈ (recorded other).steps, message.isPlain = true :=
    fun _ _ member => (by cases member)
  unfold driveCeremony
  split
  case isTrue => exact ⟨trivial, unpublished active⟩
  case isFalse =>
    split
    case h_1 => exact ⟨trivial, unpublished active⟩
    case h_2 ceremony found =>
      have quiet : ∀ message : DkgStepMessage, message.isPlain = true →
          Quiet 0 active (handleMessage identity active message) := by
        intro message plain
        refine quiet_handleMessage (fun _ _ _ _ same => ?_) (fun _ _ same => ?_)
        · exact not_isStart_of_plain plain ⟨_, _, _, _, same⟩
        · exact absurd ⟨_, _, same⟩ (not_isDone_of_plain plain)
      split
      case isTrue => exact ⟨trivial, unpublished none⟩
      case isFalse =>
        split
        case isTrue => exact selfHandled_late rfl (quiet _ rfl)
        case isFalse =>
          split
          case isTrue => exact selfHandled_late rfl (quiet _ rfl)
          case isFalse =>
            split
            case isTrue => exact selfHandled_late rfl (quiet _ rfl)
            case isFalse => exact ⟨trivial, unpublished active⟩

/-- The request goes on: no event makes it start another ceremony. -/
theorem NodeKept.resumeDriver (kept : NodeKept cluster leader own leader node mail)
    (answer : Resume)
    : StepKeeps cluster leader own leader mail (node.step (.resumeDriver 0 answer)) := by
  have late := kept.driver rfl
  unfold Node.step
  dsimp only
  split
  case h_1 initial id n sent message task isSending =>
    rw [isSending] at late
    split
    case h_1 => exact kept.unchanged
    case h_2 effect resumed =>
      have quiet : Quiet own node.active effect := quiet_resumeTask late.2 resumed
      exact kept.drive_late (selfHandled_late late.1 quiet)
  case h_2 => exact kept.unchanged

theorem NodeKept.tick (kept : NodeKept cluster leader own leader node mail) (expired : Bool)
    : StepKeeps cluster leader own leader mail (node.step (.tick 0 expired)) := by
  unfold Node.step
  dsimp only
  split
  case h_1 => exact kept.drive_late (driveCeremony_late _ _ _ _ _ expired)
  case h_2 => exact kept.unchanged

theorem NodeKept.start (kept : NodeKept cluster leader own leader node mail) (id : String)
    (threshold : Nat)
    : StepKeeps cluster leader own leader mail (node.step (.start 0 id threshold)) := by
  have late := kept.driver rfl
  unfold Node.step
  dsimp only
  split
  case h_1 isIdle =>
    rw [isIdle] at late
    cases late
  case h_2 => exact kept.unchanged

end Steps

end PerpDex.Dkg
