import PerpDex.Dkg.Network
import PerpDex.Dkg.Commitments

/-! Ceremonies of honest nodes.
The leader publishes its own acknowledgement of the first round before the message that
starts the ceremony, so no follower is there to take it, and no follower can import the
leader's share.
-/

namespace PerpDex.Dkg

-----------------------------------------------------------------------------------------
-- What every run keeps
-----------------------------------------------------------------------------------------

section Invariant

variable (cluster : Cluster) (leader : String) (own : Nat)

/-- The leader's request before the ceremony is published. -/
def EarlyDriver : Driver → Prop
  | .idle => True
  | .refused _ => True
  | .sending initial _ _ _ message task =>
      initial = true ∧ 2 ≤ (assignmentOf cluster leader).length
        ∧ ∃ id threshold n, message = .round1Start id threshold n (assignmentOf cluster leader)
          ∧ task = .generate id threshold n (assignmentOf cluster leader) own
  | _ => False

/-- Nothing has been published. -/
structure NotStarted (net : Net) : Prop where
  identity : ∀ address, (net.nodes address).identity = cluster.identity address
  active : ∀ address, (net.nodes address).active = none
  follower : ∀ address, (net.nodes address).follower = none
  importer : ∀ address, (net.nodes address).importer = none
  stepMail : ∀ sender recipient, net.stepMail sender recipient = []
  shareMail : ∀ sender recipient, net.shareMail sender recipient = []
  published : net.published = []
  driver : EarlyDriver cluster leader own ((net.nodes leader).drivers 0)

/-- The ceremony is under way, and every follower is without the leader's commitment. -/
structure Underway (net : Net) : Prop where
  several : 2 ≤ (assignmentOf cluster leader).length
  identity : ∀ address, (net.nodes address).identity = cluster.identity address
  mail : ∀ sender recipient, ∀ message ∈ net.stepMail sender recipient,
    SentBy cluster leader sender message
  noSelf : ∀ address, net.stepMail address address = []
  generating : ∀ address task, (net.nodes address).follower = some task →
    GeneratesFor cluster leader address task
  driver : LateDriver ((net.nodes leader).drivers 0)
  missing : ∀ address, address ≠ leader →
    Missing own (net.nodes address) (net.stepMail leader address)

end Invariant

section Mail

variable {cluster : Cluster} {leader : String} {own : Nat} {net : Net}

theorem Net.apply_nodes_self {address : String} {event : NodeEvent}
    : (Net.apply cluster leader net address event).nodes address
      = ((net.nodes address).step event).1 :=
  Function.update_self _ _ _

theorem Net.apply_nodes_of_ne {address other : String} {event : NodeEvent}
    (different : other ≠ address)
    : (Net.apply cluster leader net address event).nodes other = net.nodes other :=
  Function.update_of_ne different _ _

/-- What holds of the node that acts after its step, and of the others before it, holds of all
nodes.
-/
theorem Net.forall_nodes_apply (property : String → Node → Prop) {address : String}
    {event : NodeEvent} (acted : property address ((net.nodes address).step event).1)
    (others : ∀ other, other ≠ address → property other (net.nodes other)) (other : String)
    : property other ((Net.apply cluster leader net address event).nodes other) := by
  by_cases same : other = address
  · rw [same, Net.apply_nodes_self]
    exact acted
  · rw [Net.apply_nodes_of_ne same]
    exact others other same

theorem Net.apply_stepMail {address sender recipient : String} {event : NodeEvent}
    : (Net.apply cluster leader net address event).stepMail sender recipient
      = if sender = address ∧ Recipient cluster leader address recipient then
          net.stepMail sender recipient ++ ((net.nodes address).step event).2.steps
        else net.stepMail sender recipient :=
  rfl

/-- An event that nobody takes changes nothing. -/
theorem Net.apply_unchanged {address : String} {event : NodeEvent}
    (unchanged : (net.nodes address).step event = (net.nodes address, {}))
    : Net.apply cluster leader net address event = net := by
  unfold Net.apply
  rw [unchanged]
  simp

/-- A step of one node keeps the ceremony under way. -/
theorem Underway.apply (underway : Underway cluster leader own net) {address : String}
    {event : NodeEvent}
    (keeps : StepKeeps cluster leader own address (net.stepMail leader address)
      ((net.nodes address).step event))
    : Underway cluster leader own (Net.apply cluster leader net address event) := by
  refine ⟨underway.several, ?_, ?_, fun other => ?_, ?_, ?_, fun other follows => ?_⟩
  · exact Net.forall_nodes_apply (fun other node => node.identity = cluster.identity other)
      keeps.identity (fun other _ => underway.identity other)
  · intro sender recipient message member
    rw [Net.apply_stepMail] at member
    split at member
    case isTrue sent =>
      rcases List.mem_append.mp member with before | added
      · exact underway.mail sender recipient message before
      · rw [sent.1]
        exact keeps.sends message added
    case isFalse => exact underway.mail sender recipient message member
  · rw [Net.apply_stepMail, if_neg (fun sent => sent.2.2 sent.1)]
    exact underway.noSelf other
  · exact Net.forall_nodes_apply
      (fun other node =>
        ∀ task, node.follower = some task → GeneratesFor cluster leader other task)
      keeps.generating (fun other _ => underway.generating other)
  · by_cases same : leader = address
    · subst same
      rw [Net.apply_nodes_self]
      exact keeps.driver rfl
    · rw [Net.apply_nodes_of_ne same]
      exact underway.driver
  · rw [Net.apply_stepMail]
    by_cases same : other = address
    · subst same
      rw [Net.apply_nodes_self, if_neg (fun sent => follows sent.1.symm)]
      exact keeps.missing follows
    · rw [Net.apply_nodes_of_ne same]
      split
      case isTrue sent =>
        exact (underway.missing other follows).append (keeps.plain sent.1.symm)
      case isFalse => exact underway.missing other follows

/-- Taking the next message of a sender keeps the ceremony under way. -/
theorem Underway.pop (underway : Underway cluster leader own net) {sender recipient : String}
    {message : DkgStepMessage} {rest : List DkgStepMessage}
    (next : net.stepMail sender recipient = message :: rest)
    : Underway cluster leader own
      { net with stepMail := withMail net.stepMail sender recipient rest } := by
  refine ⟨underway.several, underway.identity, ?_, fun address => ?_, underway.generating,
    underway.driver, fun address follows => ?_⟩
  · intro other address later member
    dsimp only [withMail] at member
    split at member
    case isTrue same =>
      refine underway.mail other address later ?_
      rw [same.1, same.2, next]
      exact .tail message member
    case isFalse => exact underway.mail other address later member
  · dsimp only [withMail]
    split
    case isTrue same =>
      have nothing := underway.noSelf address
      rw [← same.1, ← same.2, nothing] at next
      cases next
    case isFalse => exact underway.noSelf address
  · have missing := underway.missing address follows
    dsimp only [withMail]
    split
    case isTrue same =>
      rw [same.1, same.2, next] at missing
      rw [same.2]
      refine ⟨missing.without, missing.importer, missing.order.2, fun begun later member => ?_⟩
      exact missing.begun begun later (.tail message member)
    case isFalse => exact missing

end Mail

-----------------------------------------------------------------------------------------
-- Runs of a ceremony
-----------------------------------------------------------------------------------------

section Ceremonies

variable {cluster : Cluster} {leader ceremonyId : String} {own : Nat} {net : Net}

theorem Underway.nodeKept (underway : Underway cluster leader own net) (address : String)
    : NodeKept cluster leader own address (net.nodes address) (net.stepMail leader address) where
  identity := underway.identity address
  generating := underway.generating address
  driver := fun isLeader => isLeader ▸ underway.driver
  missing := underway.missing address

/-- The leader's acknowledgement comes from the leader. -/
theorem sender_of_isDone {sender : String} {message : DkgStepMessage}
    (assigned : (leader, own) ∈ assignmentOf cluster leader)
    (sent : SentBy cluster leader sender message) (done : IsDone own message)
    : sender = leader := by
  obtain ⟨id, vss, rfl⟩ := done
  by_contra other
  exact pid_ne_own assigned sent other rfl

/-- Taking a message keeps the ceremony under way. -/
theorem Underway.deliver (underway : Underway cluster leader own net)
    (assigned : (leader, own) ∈ assignmentOf cluster leader) {sender recipient : String}
    {message : DkgStepMessage} {rest : List DkgStepMessage}
    (next : net.stepMail sender recipient = message :: rest)
    (idle : (net.nodes recipient).follower = none)
    : Underway cluster leader own
      (Net.apply cluster leader
        { net with stepMail := withMail net.stepMail sender recipient rest } recipient
        (.receive message)) := by
  have popped := underway.pop next
  have sent : SentBy cluster leader sender message :=
    underway.mail sender recipient message (next ▸ List.mem_cons_self)
  have notSelf : sender = leader → recipient ≠ leader := by
    rintro rfl rfl
    rw [underway.noSelf] at next
    cases next
  refine popped.apply ((popped.nodeKept recipient).receive idle (fun start => ?_) (fun done => ?_))
  · have isLeader : sender = leader := by
      obtain ⟨_, _, _, _, rfl⟩ := start
      exact sent.1
    subst isLeader
    have missing := underway.missing recipient (notSelf rfl)
    refine ⟨notSelf rfl, ?_, sent⟩
    rw [next] at missing
    show ∀ later ∈ withMail net.stepMail sender recipient rest sender recipient, _
    rw [withMail, if_pos ⟨rfl, rfl⟩]
    exact missing.order.1 start
  · have isLeader := sender_of_isDone assigned sent done
    subst isLeader
    have missing := underway.missing recipient (notSelf rfl)
    by_contra isActive
    exact missing.begun (.inl isActive) message (next ▸ List.mem_cons_self) done

/-- Every event keeps a ceremony under way. -/
theorem Underway.step (underway : Underway cluster leader own net)
    (assigned : (leader, own) ∈ assignmentOf cluster leader) (event : NetEvent)
    : Underway cluster leader own (net.step cluster leader ceremonyId event) := by
  cases event with
  | deliver sender recipient =>
      unfold Net.step
      dsimp only
      split
      case h_1 message rest next idle => exact underway.deliver assigned next idle
      case h_2 => exact underway
  | deliverShare sender recipient =>
      have popped : ∀ mail, Underway cluster leader own { net with shareMail := mail } :=
        fun _ => ⟨underway.several, underway.identity, underway.mail, underway.noSelf,
          underway.generating, underway.driver, underway.missing⟩
      unfold Net.step
      dsimp only
      split
      case h_1 share rest _ _ =>
        split
        · have taken := popped (withMail net.shareMail sender recipient rest)
          exact taken.apply ((taken.nodeKept recipient).receiveShare share)
        · exact popped _
      case h_2 => exact underway
  | resume address answer =>
      exact underway.apply ((underway.nodeKept address).resume assigned answer)
  | imported address result => exact underway.apply ((underway.nodeKept address).imported result)
  | start threshold =>
      exact underway.apply ((underway.nodeKept leader).start ceremonyId threshold)
  | resumeDriver answer => exact underway.apply ((underway.nodeKept leader).resumeDriver answer)
  | tick expired => exact underway.apply ((underway.nodeKept leader).tick expired)

/-- An event that nobody takes. -/
theorem NotStarted.unchanged (early : NotStarted cluster leader own net) {address : String}
    {event : NodeEvent}
    (unchanged : (net.nodes address).step event = (net.nodes address, {}))
    : NotStarted cluster leader own (Net.apply cluster leader net address event) := by
  rw [Net.apply_unchanged unchanged]
  exact early

theorem Net.apply_drivers {event : NodeEvent} {piece : Driver × Effect}
    (step : (net.nodes leader).step event = (net.nodes leader).drive 0 piece)
    : ((Net.apply cluster leader net leader event).nodes leader).drivers 0 = piece.1 := by
  rw [Net.apply_nodes_self, step]
  exact Function.update_self 0 piece.1 (net.nodes leader).drivers

/-- The leader's request changed while nothing is published. -/
theorem NotStarted.drive (early : NotStarted cluster leader own net) {event : NodeEvent}
    {piece : Driver × Effect}
    (step : (net.nodes leader).step event = (net.nodes leader).drive 0 piece)
    (isActive : piece.2.active = none) (noSteps : piece.2.steps = [])
    (noShares : piece.2.shares = []) (driver : EarlyDriver cluster leader own piece.1)
    : NotStarted cluster leader own (Net.apply cluster leader net leader event) := by
  have output : ((net.nodes leader).step event).2.steps = [] := by rw [step]; exact noSteps
  have shares : ((net.nodes leader).step event).2.shares = [] := by rw [step]; exact noShares
  have acted : ((net.nodes leader).step event).1 = ((net.nodes leader).drive 0 piece).1 :=
    congrArg Prod.fst step
  refine ⟨?_, ?_, ?_, ?_, ?_, ?_, ?_, ?_⟩
  · exact Net.forall_nodes_apply (fun other node => node.identity = cluster.identity other)
      (acted ▸ early.identity leader) (fun other _ => early.identity other)
  · exact Net.forall_nodes_apply (fun _ node => node.active = none) (acted ▸ isActive)
      (fun other _ => early.active other)
  · exact Net.forall_nodes_apply (fun _ node => node.follower = none)
      (acted ▸ early.follower leader) (fun other _ => early.follower other)
  · exact Net.forall_nodes_apply (fun _ node => node.importer = none)
      (acted ▸ early.importer leader) (fun other _ => early.importer other)
  · intro sender recipient
    dsimp only [Net.apply]
    rw [output, early.stepMail sender recipient]
    simp
  · intro sender recipient
    dsimp only [Net.apply]
    rw [shares, early.shareMail sender recipient]
    simp
  · dsimp only [Net.apply]
    rw [output, early.published]
    rfl
  · rw [Net.apply_drivers step]
    exact driver

/-- A request to start the ceremony is refused, or waits for the leader's own commitment. -/
theorem NotStarted.start (early : NotStarted cluster leader own net)
    (isOwn : pidOf (assignmentOf cluster leader) leader = some own) (threshold : Nat)
    : NotStarted cluster leader own
      (Net.apply cluster leader net leader (.start 0 ceremonyId threshold)) := by
  cases driver : (net.nodes leader).drivers 0 with
  | idle =>
      have step : (net.nodes leader).step (.start 0 ceremonyId threshold)
          = (net.nodes leader).drive 0 (handleStartDkg (net.nodes leader).identity
            (net.nodes leader).active ceremonyId threshold) := by
        unfold Node.step
        dsimp only
        rw [driver]
      obtain ⟨entry, found, isPid⟩ := Option.map_eq_some_iff.mp isOwn
      rw [early.identity leader, early.active leader] at step
      unfold handleStartDkg validateThreshold at step
      dsimp only at step
      by_cases invalid : threshold < 2 ∨ (buildPidAssignment (cluster.identity leader)).length
          < threshold
      · rw [if_pos invalid] at step
        exact early.drive step rfl rfl rfl trivial
      · rw [if_neg invalid] at step
        have waits : handleMessage (cluster.identity leader) none
            (.round1Start ceremonyId threshold
              (buildPidAssignment (cluster.identity leader)).length
              (buildPidAssignment (cluster.identity leader)))
            = waiting none (.generate ceremonyId threshold
              (buildPidAssignment (cluster.identity leader)).length
              (buildPidAssignment (cluster.identity leader)) own) := by
          show round1Start _ _ _ _ _ _ = _
          rw [assignmentOf] at found
          rw [round1Start, cluster.named leader, found, ← isPid]
        dsimp only at step
        rw [waits] at step
        have several : 2 ≤ (assignmentOf cluster leader).length := by
          show 2 ≤ (buildPidAssignment (cluster.identity leader)).length
          omega
        exact early.drive step rfl rfl rfl ⟨rfl, several, _, _, _, rfl, rfl⟩
  | sending | driving | refused | responded =>
      refine early.unchanged ?_
      unfold Node.step
      dsimp only
      rw [driver]

/-- A node before the ceremony, where what is under way has the acknowledgement first. -/
theorem missing_idle {node : Node} {mail : List DkgStepMessage} (inactive : node.active = none)
    (idle : node.follower = none) (free : node.importer = none) (order : DoneFirst own mail)
    : Missing own node mail := by
  refine ⟨?_, fun share vss isTaken => ?_, order, fun begun => ?_⟩
  · rw [inactive]
    exact without_none
  · rw [free] at isTaken
    cases isTaken
  · rcases begun with isActive | ⟨task, isTask, _⟩
    · exact absurd inactive isActive
    · rw [idle] at isTask
      cases isTask

/-- With nothing under way before, what the leader sends is all there is. -/
theorem NotStarted.apply_stepMail (early : NotStarted cluster leader own net)
    {event : NodeEvent} {steps : List DkgStepMessage}
    (output : ((net.nodes leader).step event).2.steps = steps) (sender recipient : String)
    : (Net.apply cluster leader net leader event).stepMail sender recipient
      = if sender = leader ∧ Recipient cluster leader leader recipient then steps else [] := by
  rw [Net.apply_stepMail, output, early.stepMail sender recipient]
  rfl

/-- The ceremony is published: the leader's own acknowledgement, and then the start. -/
theorem NotStarted.publish (early : NotStarted cluster leader own net)
    (isOwn : pidOf (assignmentOf cluster leader) leader = some own)
    (several : 2 ≤ (assignmentOf cluster leader).length) {event : NodeEvent}
    {piece : Driver × Effect}
    (step : (net.nodes leader).step event = (net.nodes leader).drive 0 piece)
    {id vss : String} {threshold n : Nat}
    (published : piece.2.steps = [.round1Done id own vss,
      .round1Start id threshold n (assignmentOf cluster leader)])
    (driver : LateDriver piece.1)
    : Underway cluster leader own (Net.apply cluster leader net leader event) := by
  have acted : ((net.nodes leader).step event).1 = ((net.nodes leader).drive 0 piece).1 :=
    congrArg Prod.fst step
  have output : ((net.nodes leader).step event).2.steps
      = [.round1Done id own vss, .round1Start id threshold n (assignmentOf cluster leader)] := by
    rw [step]
    exact published
  have mailTo := early.apply_stepMail output
  refine ⟨several, ?_, ?_, fun other => ?_, fun other task isTask => ?_, ?_,
    fun other follows => ?_⟩
  · exact Net.forall_nodes_apply (fun other node => node.identity = cluster.identity other)
      (acted ▸ early.identity leader) (fun other _ => early.identity other)
  · intro sender recipient message member
    rw [mailTo] at member
    split at member
    case isTrue sent =>
      rw [sent.1]
      rcases List.mem_cons.mp member with rfl | last
      · exact isOwn
      · rw [List.mem_singleton.mp last]
        exact ⟨rfl, rfl⟩
    case isFalse => cases member
  · rw [mailTo, if_neg (fun sent => sent.2.2 sent.1)]
  · have idle : ((Net.apply cluster leader net leader event).nodes other).follower = none :=
      Net.forall_nodes_apply (fun _ node => node.follower = none)
        (acted ▸ early.follower leader) (fun other _ => early.follower other) other
    rw [idle] at isTask
    cases isTask
  · rw [Net.apply_drivers step]
    exact driver
  · rw [Net.apply_nodes_of_ne follows, mailTo]
    refine missing_idle (early.active other) (early.follower other) (early.importer other) ?_
    split
    · refine ⟨fun start => ?_, fun _ later member => (by cases member), trivial⟩
      rcases start with ⟨_, _, _, _, same⟩
      cases same
    · trivial

/-- The answer to the leader's first enclave call publishes the ceremony, or ends it. -/
theorem NotStarted.resumeDriver (early : NotStarted cluster leader own net)
    (isOwn : pidOf (assignmentOf cluster leader) leader = some own) (answer : Resume)
    : NotStarted cluster leader own
        (Net.apply cluster leader net leader (.resumeDriver 0 answer))
      ∨ Underway cluster leader own
        (Net.apply cluster leader net leader (.resumeDriver 0 answer)) := by
  have isEarly := early.driver
  cases driver : (net.nodes leader).drivers 0 with
  | sending initial id n sent message task =>
      rw [driver] at isEarly
      obtain ⟨rfl, several, first, threshold, count, rfl, rfl⟩ := isEarly
      cases resumed : resumeTask (net.nodes leader).identity (net.nodes leader).active
          (.generate first threshold count (assignmentOf cluster leader) own) answer with
      | none =>
          refine .inl (early.unchanged ?_)
          unfold Node.step
          dsimp only
          rw [driver]
          dsimp only
          rw [resumed]
      | some effect =>
          have step : (net.nodes leader).step (.resumeDriver 0 answer)
              = (net.nodes leader).drive 0 (selfHandled true id n sent
                (.round1Start first threshold count (assignmentOf cluster leader)) effect) := by
            unfold Node.step
            dsimp only
            rw [driver]
            dsimp only
            rw [resumed]
          rcases resumeTask_generate resumed with ⟨vss, rfl⟩ | rfl
          · exact .inr (early.publish isOwn several step rfl trivial)
          · exact .inl (early.drive step (early.active leader) rfl rfl trivial)
  | idle | driving | refused | responded =>
      refine .inl (early.unchanged ?_)
      unfold Node.step
      dsimp only
      rw [driver]

/-- One event before the ceremony is published. -/
theorem NotStarted.step (early : NotStarted cluster leader own net)
    (isOwn : pidOf (assignmentOf cluster leader) leader = some own) (event : NetEvent)
    : NotStarted cluster leader own (net.step cluster leader ceremonyId event)
      ∨ Underway cluster leader own (net.step cluster leader ceremonyId event) := by
  cases event with
  | deliver sender recipient =>
      refine .inl ?_
      unfold Net.step
      dsimp only
      rw [early.stepMail sender recipient]
      exact early
  | deliverShare sender recipient =>
      refine .inl ?_
      unfold Net.step
      dsimp only
      rw [early.shareMail sender recipient]
      exact early
  | resume address answer =>
      refine .inl (early.unchanged ?_)
      unfold Node.step
      dsimp only
      rw [early.follower address]
      rfl
  | imported address result =>
      refine .inl (early.unchanged ?_)
      unfold Node.step
      dsimp only
      rw [early.importer address]
  | start threshold => exact .inl (early.start isOwn threshold)
  | resumeDriver answer => exact early.resumeDriver isOwn answer
  | tick expired =>
      have isEarly := early.driver
      refine .inl (early.unchanged ?_)
      unfold Node.step
      dsimp only
      split
      case h_1 isDriving =>
        rw [isDriving] at isEarly
        cases isEarly
      case h_2 => rfl

/-- In every state of every run the ceremony is not published yet, or under way with every
follower without the leader's commitment.
-/
theorem run_kept (isOwn : pidOf (assignmentOf cluster leader) leader = some own)
    (assigned : (leader, own) ∈ assignmentOf cluster leader) (events : List NetEvent)
    : NotStarted cluster leader own (Net.run cluster leader ceremonyId events)
      ∨ Underway cluster leader own (Net.run cluster leader ceremonyId events) := by
  refine run_invariant
    (fun net => NotStarted cluster leader own net ∨ Underway cluster leader own net)
    (fun net event kept => ?_) (.inl ?_) events
  · rcases kept with early | underway
    · exact early.step isOwn event
    · exact .inr (underway.step assigned event)
  · exact ⟨fun _ => rfl, fun _ => rfl, fun _ => rfl, fun _ => rfl, fun _ _ => rfl, fun _ _ => rfl,
      rfl, trivial⟩

/-- A participant other than the leader, where there are two or more. -/
theorem exists_follower (several : 2 ≤ (assignmentOf cluster leader).length)
    : ∃ entry ∈ assignmentOf cluster leader, entry.1 ≠ leader := by
  have named := cluster.named leader
  have peers : (cluster.identity leader).peers ≠ [] := by
    intro none
    rw [assignmentOf, buildPidAssignment, none] at several
    simp at several
  obtain ⟨peer, others, isPeer⟩ := List.exists_cons_of_ne_nil peers
  have inPeers : peer.1 ∈ (cluster.identity leader).peers.map Prod.fst := by
    rw [isPeer]
    exact List.mem_cons_self
  have listed : peer.1 ∈ (assignmentOf cluster leader).map Prod.fst := by
    rw [assignmentOf, buildPidAssignment, List.zipIdx_map_fst, List.mem_insertionSort]
    exact List.mem_append_left _ inPeers
  obtain ⟨entry, member, isAddress⟩ := List.mem_map.mp listed
  refine ⟨entry, member, fun same => ?_⟩
  have isLeader : peer.1 = (cluster.identity leader).xrplAddress := by
    rw [named, ← isAddress, same]
  exact (cluster.identity leader).notSelf (isLeader ▸ inPeers)

end Ceremonies

/-- Once all participants have published `Round15Done` and everything published has been
delivered and handled, the imports are never complete: no follower has the leader's share.
-/
theorem leader_share_lost {cluster : Cluster} {leader ceremonyId : String}
    (events : List NetEvent)
    (settled : Settled cluster leader ceremonyId (Net.run cluster leader ceremonyId events))
    : ¬ AllImported cluster leader (Net.run cluster leader ceremonyId events) := by
  obtain ⟨own, isOwn, assigned⟩ := mem_assignmentOf_self cluster leader
  intro imported
  rcases run_kept isOwn assigned events with early | underway
  · have published := settled.published _ assigned
    rw [early.published] at published
    cases published
  · obtain ⟨entry, member, follows⟩ := exists_follower underway.several
    have different : own ≠ entry.2 := by
      intro same
      exact follows (address_unique (same ▸ member) assigned)
    obtain ⟨ceremony, isActive, inside⟩ := imported entry member (leader, own) assigned different
    exact ((underway.missing entry.1 follows).without ceremony isActive).2 inside

/-- A ceremony of two in which every enclave call succeeds, up to the end of the exports. -/
def lostRun : List NetEvent :=
  let envelope : Envelope := ⟨"n", "i", "c", "t", "s"⟩
  [
    .start 2,
    .resumeDriver (.generated (.ok "vA")),
    .deliver "rone" "rtwo",
    .deliver "rone" "rtwo",
    .resume "rtwo" (.generated (.ok "vB")),
    .deliver "rtwo" "rone",
    .tick false,
    .resumeDriver (.exported (.ok envelope)),
    .deliverShare "rone" "rtwo",
    .deliver "rone" "rtwo",
    .deliver "rone" "rtwo",
    .resume "rtwo" (.exported (.ok envelope)),
    .deliverShare "rtwo" "rone",
    .imported "rone" (.ok ()),
    .deliver "rtwo" "rone"
  ]

theorem assignmentOf_pair : assignmentOf pair "rone" = [("rone", 0), ("rtwo", 1)] := by
  decide +kernel

theorem settled_lostRun : Settled pair "rone" "c" (Net.run pair "rone" "c" lostRun) := by
  refine ⟨?_, ?_, ?_⟩
  · rw [assignmentOf_pair]
    decide +kernel
  · rw [assignmentOf_pair]
    decide +kernel
  · rw [assignmentOf_pair]
    decide +kernel

/-- Both have exported and handled everything, and the imports are not complete. -/
theorem leader_share_lost_pair
    : Settled pair "rone" "c" (Net.run pair "rone" "c" lostRun)
      ∧ ¬ AllImported pair "rone" (Net.run pair "rone" "c" lostRun) :=
  ⟨settled_lostRun, leader_share_lost lostRun settled_lostRun⟩

/-- The follower of the ceremony of two has imported nothing. -/
theorem settled_without_imports
    : ¬ ∀ (cluster : Cluster) (leader ceremonyId : String) (events : List NetEvent),
      Settled cluster leader ceremonyId (Net.run cluster leader ceremonyId events) →
        AllImported cluster leader (Net.run cluster leader ceremonyId events) := by
  intro complete
  have imported := complete pair "rone" "c" lostRun settled_lostRun ("rtwo", 1)
    (by rw [assignmentOf_pair]; simp) ("rone", 0) (by rw [assignmentOf_pair]; simp) (by simp)
  obtain ⟨ceremony, isActive, inside⟩ := imported
  have nothing : ((Net.run pair "rone" "c" lostRun).nodes "rtwo").active.map
      ActiveCeremony.importedFromPid = some ∅ := by
    decide +kernel
  rw [isActive] at nothing
  rw [Option.some.inj nothing] at inside
  simp at inside

end PerpDex.Dkg
