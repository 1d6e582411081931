import PerpDex.Lib.Run

/-! Sequencer election by heartbeats and static priorities, zero being the highest.
Times are monotonic instants, and `Instant::elapsed` saturates at zero. The role and the
leader are separate fields; what the node publishes as elected leader follows the leader.
-/

namespace PerpDex

inductive Role where
  | sequencer
  | validator
deriving DecidableEq

inductive ElectionMessage where
  | heartbeat (peerId : String) (priority : UInt8) (seqNum : UInt64)
  | leaderAnnounce (peerId : String) (priority : UInt8)
deriving DecidableEq

def ElectionMessage.peerId : ElectionMessage → String
  | .heartbeat peerId _ _ => peerId
  | .leaderAnnounce peerId _ => peerId

def ElectionMessage.priority : ElectionMessage → UInt8
  | .heartbeat _ priority _ => priority
  | .leaderAnnounce _ priority => priority

structure ElectionConfig where
  ourPeerId : String
  ourPriority : UInt8
  heartbeatTimeout : Nat
deriving DecidableEq

/-- The state of a node, with what it has put on its outgoing channels. -/
structure ElectionState where
  config : ElectionConfig
  role : Role
  leader : Option (String × UInt8)
  lastHeartbeat : Nat
  heartbeatSeq : UInt64
  startupGrace : Bool
  startupTime : Nat
  publishedLeader : Option String
  outbound : List ElectionMessage
deriving DecidableEq

/-- The leader a node names when it names itself. -/
def ElectionConfig.self (config : ElectionConfig) : String × UInt8 :=
  (config.ourPeerId, config.ourPriority)

namespace ElectionState

/-- Priority zero starts as sequencer, others as validator. -/
def new (config : ElectionConfig) (now : Nat) : ElectionState where
  config := config
  role := if config.ourPriority = 0 then .sequencer else .validator
  leader := if config.ourPriority = 0 then some config.self else none
  lastHeartbeat := now
  heartbeatSeq := 0
  startupGrace := true
  startupTime := now
  publishedLeader := if config.ourPriority = 0 then some config.ourPeerId else none
  outbound := []

def setLeader (state : ElectionState) (leader : String × UInt8) : ElectionState :=
  { state with leader := some leader, publishedLeader := some leader.1 }

def switchRole (state : ElectionState) (role : Role) : ElectionState := { state with role }

/-- Follow a peer that was heard at `now`. -/
def follow (state : ElectionState) (now : Nat) (peerId : String) (priority : UInt8)
    : ElectionState :=
  { state.setLeader (peerId, priority) with lastHeartbeat := now }

/-- Step down for a peer of higher priority. -/
def yieldTo (state : ElectionState) (priority : UInt8) : ElectionState :=
  if state.role = .sequencer ∧ priority < state.config.ourPriority then
    state.switchRole .validator
  else state

/-- A heartbeat of another peer. Under the startup grace its sender becomes the leader
whatever its priority; later only a sender of higher priority than the leader does.
-/
def handleHeartbeat (state : ElectionState) (now : Nat) (peerId : String) (priority : UInt8)
    : ElectionState :=
  if state.startupGrace then
    ({ state with startupGrace := false }.follow now peerId priority).yieldTo priority
  else
    match state.leader with
    | none => state.follow now peerId priority
    | some (leaderId, leaderPriority) =>
        let state := if peerId = leaderId then { state with lastHeartbeat := now } else state
        if priority < leaderPriority then (state.follow now peerId priority).yieldTo priority
        else state

/-- An announcement of another peer. Ties go to the smaller peer id. -/
def handleAnnounce (state : ElectionState) (now : Nat) (peerId : String) (priority : UInt8)
    : ElectionState :=
  if priority < state.config.ourPriority then
    (state.follow now peerId priority).switchRole .validator
  else if priority = state.config.ourPriority ∧ peerId < state.config.ourPeerId then
    (state.follow now peerId priority).switchRole .validator
  else state

/-- `handle_message`; a node ignores its own messages. -/
def handleMessage (state : ElectionState) (now : Nat) (message : ElectionMessage)
    : ElectionState :=
  if message.peerId = state.config.ourPeerId then state
  else
    match message with
    | .heartbeat peerId priority _ => state.handleHeartbeat now peerId priority
    | .leaderAnnounce peerId priority => state.handleAnnounce now peerId priority

/-- Take over and announce it. -/
def promote (state : ElectionState) : ElectionState :=
  let state := (state.setLeader state.config.self).switchRole .sequencer
  { state with
    outbound :=
      state.outbound ++ [.leaderAnnounce state.config.ourPeerId state.config.ourPriority] }

def checkTimeout (state : ElectionState) (now : Nat) : ElectionState :=
  if state.startupGrace then
    if state.config.heartbeatTimeout < now - state.startupTime then
      let state := { state with startupGrace := false }
      if state.leader.isNone then state.promote else state
    else state
  else if state.role = .validator
    ∧ state.config.heartbeatTimeout < now - state.lastHeartbeat then state.promote
  else state

def sendHeartbeat (state : ElectionState) : ElectionState :=
  { state with
    heartbeatSeq := state.heartbeatSeq + 1
    outbound :=
      state.outbound
      ++ [.heartbeat state.config.ourPeerId state.config.ourPriority (state.heartbeatSeq + 1)] }

end ElectionState

/-- What the loop of a node selects on. -/
inductive ElectionEvent where
  | heartbeatTick
  | checkTick (now : Nat)
  | received (now : Nat) (message : ElectionMessage)
deriving DecidableEq

def ElectionState.step (state : ElectionState) : ElectionEvent → ElectionState
  | .heartbeatTick => if state.role = .sequencer then state.sendHeartbeat else state
  | .checkTick now => state.checkTimeout now
  | .received now message => state.handleMessage now message

/-- The state of a node after the events it has seen. -/
def ElectionState.run (config : ElectionConfig) (start : Nat) (events : List ElectionEvent)
    : ElectionState :=
  events.foldl ElectionState.step (ElectionState.new config start)

-----------------------------------------------------------------------------------------
-- Role and leader
-----------------------------------------------------------------------------------------

namespace ElectionState

/-- A node is sequencer exactly if it takes itself for the leader, and then it publishes
itself as elected.
-/
def RoleMatchesLeader (state : ElectionState) : Prop :=
  (state.role = .sequencer ↔ state.leader = some state.config.self)
  ∧ (state.role = .sequencer → state.publishedLeader = some state.config.ourPeerId)

/-- No heartbeat of a peer that does not outrank the node comes in while the node is
sequencer under its startup grace.
-/
def Undisputed (state : ElectionState) : ElectionEvent → Prop
  | .received _ (.heartbeat peerId priority _) =>
      peerId ≠ state.config.ourPeerId → state.startupGrace = true → state.role = .sequencer →
      priority < state.config.ourPriority
  | _ => True

instance (state : ElectionState) (event : ElectionEvent) : Decidable (state.Undisputed event) := by
  unfold Undisputed
  split <;> infer_instance

/-- Agreement of role and leader, with what is published following the leader. -/
structure Coherent (state : ElectionState) : Prop where
  role_iff : state.role = .sequencer ↔ state.leader = some state.config.self
  published : state.publishedLeader = state.leader.map Prod.fst

theorem Coherent.roleMatchesLeader {state : ElectionState} (coherent : state.Coherent)
    : state.RoleMatchesLeader := by
  refine ⟨coherent.role_iff, fun isSequencer => ?_⟩
  rw [coherent.published, coherent.role_iff.mp isSequencer]
  rfl

/-- A node that follows another peer is coherent exactly if it is a validator. -/
theorem coherent_follow_iff (state : ElectionState) (now : Nat) {peerId : String}
    (priority : UInt8) (foreign : peerId ≠ state.config.ourPeerId)
    : (state.follow now peerId priority).Coherent ↔ state.role = .validator := by
  have other : some (peerId, priority) ≠ some state.config.self := by
    intro same
    exact foreign (Prod.mk.inj (Option.some.inj same)).1
  constructor
  · intro coherent
    cases isRole : state.role with
    | validator => rfl
    | sequencer => exact absurd (coherent.role_iff.mp isRole) other
  · intro isValidator
    refine ⟨⟨fun isSequencer => ?_, fun same => absurd same other⟩, rfl⟩
    have isSequencer : state.role = .sequencer := isSequencer
    rw [isValidator] at isSequencer
    cases isSequencer

theorem coherent_promote (state : ElectionState) : state.promote.Coherent :=
  ⟨⟨fun _ => rfl, fun _ => rfl⟩, rfl⟩

/-- Stepping down leaves a validator unless the peer does not outrank the sequencer. -/
theorem coherent_yieldTo_iff (state : ElectionState) (now : Nat) {peerId : String}
    (priority : UInt8) (foreign : peerId ≠ state.config.ourPeerId)
    : ((state.follow now peerId priority).yieldTo priority).Coherent
      ↔ (state.role = .sequencer → priority < state.config.ourPriority) := by
  by_cases steps : state.role = .sequencer ∧ priority < state.config.ourPriority
  · have yields : (state.follow now peerId priority).yieldTo priority
        = { state with role := .validator }.follow now peerId priority := if_pos steps
    rw [yields]
    refine ⟨fun _ _ => steps.2, fun _ => ?_⟩
    exact (coherent_follow_iff { state with role := .validator } now priority foreign).mpr rfl
  · have stays : (state.follow now peerId priority).yieldTo priority
        = state.follow now peerId priority := if_neg steps
    rw [stays, coherent_follow_iff state now priority foreign]
    constructor
    · intro isValidator isSequencer
      rw [isValidator] at isSequencer
      cases isSequencer
    · intro outranked
      cases isRole : state.role with
      | validator => rfl
      | sequencer => exact absurd ⟨isRole, outranked isRole⟩ steps

/-- Fields outside role, leader and publication do not matter. -/
theorem Coherent.congr {before after : ElectionState} (coherent : before.Coherent)
    (config : after.config = before.config) (role : after.role = before.role)
    (leader : after.leader = before.leader)
    (published : after.publishedLeader = before.publishedLeader)
    : after.Coherent := by
  refine ⟨?_, ?_⟩
  · rw [role, leader, config]
    exact coherent.role_iff
  · rw [published, leader]
    exact coherent.published

/-- A heartbeat keeps a coherent node coherent, except one that ends the startup grace of a
sequencer it does not outrank.
-/
theorem Coherent.heartbeat_iff {state : ElectionState} (coherent : state.Coherent) (now : Nat)
    {peerId : String} (priority : UInt8) (foreign : peerId ≠ state.config.ourPeerId)
    : (state.handleHeartbeat now peerId priority).Coherent
      ↔ (state.startupGrace = true → state.role = .sequencer →
          priority < state.config.ourPriority) := by
  by_cases grace : state.startupGrace = true
  · simp only [handleHeartbeat, if_pos grace]
    refine (coherent_yieldTo_iff { state with startupGrace := false } now priority foreign).trans ?_
    exact ⟨fun outranked _ => outranked, fun outranked => outranked grace⟩
  · simp only [handleHeartbeat, if_neg grace]
    refine ⟨fun _ during => absurd during grace, fun _ => ?_⟩
    cases leads : state.leader with
    | none =>
        refine (coherent_follow_iff state now priority foreign).mpr ?_
        cases isRole : state.role with
        | validator => rfl
        | sequencer =>
            have self := coherent.role_iff.mp isRole
            rw [leads] at self
            cases self
    | some leader =>
        have refreshed : ({ state with leader := some leader, lastHeartbeat := now }).Coherent :=
          coherent.congr rfl rfl leads.symm rfl
        have yields : state.role = .sequencer → priority < leader.2 →
            priority < state.config.ourPriority := by
          intro isSequencer lower
          have self := coherent.role_iff.mp isSequencer
          rw [leads] at self
          rw [Option.some.inj self] at lower
          exact lower
        simp only
        split_ifs with lower same same
        · exact (coherent_yieldTo_iff { state with lastHeartbeat := now } now priority foreign).mpr
            (fun isSequencer => yields isSequencer lower)
        · exact (coherent_yieldTo_iff state now priority foreign).mpr
            (fun isSequencer => yields isSequencer lower)
        · exact refreshed
        · exact coherent

/-- An announcement makes the node a validator or changes nothing. -/
theorem Coherent.handleAnnounce {state : ElectionState} (coherent : state.Coherent) (now : Nat)
    {peerId : String} (priority : UInt8) (foreign : peerId ≠ state.config.ourPeerId)
    : (state.handleAnnounce now peerId priority).Coherent := by
  have followed : ((state.follow now peerId priority).switchRole .validator).Coherent :=
    (coherent_follow_iff { state with role := .validator } now priority foreign).mpr rfl
  simp only [ElectionState.handleAnnounce]
  split_ifs
  · exact followed
  · exact followed
  · exact coherent

/-- A timeout check promotes the node or changes nothing but its grace. -/
theorem Coherent.checkTimeout {state : ElectionState} (coherent : state.Coherent) (now : Nat)
    : (state.checkTimeout now).Coherent := by
  simp only [ElectionState.checkTimeout]
  split_ifs
  · exact coherent_promote _
  · exact coherent.congr rfl rfl rfl rfl
  · exact coherent
  · exact coherent_promote _
  · exact coherent

/-- What one event preserves, and what breaks it. -/
theorem Coherent.step_iff (state : ElectionState) (event : ElectionEvent)
    (coherent : state.Coherent)
    : (state.step event).Coherent ↔ state.Undisputed event := by
  cases event with
  | heartbeatTick =>
      refine ⟨fun _ => trivial, fun _ => ?_⟩
      simp only [step]
      split_ifs
      · exact coherent.congr rfl rfl rfl rfl
      · exact coherent
  | checkTick now => exact ⟨fun _ => trivial, fun _ => coherent.checkTimeout now⟩
  | received now message =>
      cases message with
      | heartbeat peerId priority seqNum =>
          by_cases own : peerId = state.config.ourPeerId
          · have ignored : state.step (.received now (.heartbeat peerId priority seqNum)) = state :=
              if_pos own
            rw [ignored]
            exact ⟨fun _ foreign => absurd own foreign, fun _ => coherent⟩
          · have handled : state.step (.received now (.heartbeat peerId priority seqNum))
                = state.handleHeartbeat now peerId priority := if_neg own
            rw [handled, coherent.heartbeat_iff now priority own]
            exact ⟨fun outranked _ => outranked, fun outranked => outranked own⟩
      | leaderAnnounce peerId priority =>
          refine ⟨fun _ => trivial, fun _ => ?_⟩
          by_cases own : peerId = state.config.ourPeerId
          · have ignored : state.step (.received now (.leaderAnnounce peerId priority)) = state :=
              if_pos own
            rw [ignored]
            exact coherent
          · have handled : state.step (.received now (.leaderAnnounce peerId priority))
                = state.handleAnnounce now peerId priority := if_neg own
            rw [handled]
            exact coherent.handleAnnounce now priority own

theorem coherent_new (config : ElectionConfig) (start : Nat) : (new config start).Coherent := by
  by_cases highest : config.ourPriority = 0
  · refine ⟨?_, ?_⟩
    · simp [new, highest]
    · simp [new, highest, ElectionConfig.self]
  · refine ⟨?_, ?_⟩
    · simp [new, highest]
    · simp [new, highest]

/-- Publication follows the leader in every run. -/
theorem published_step {state : ElectionState} (event : ElectionEvent)
    (published : state.publishedLeader = state.leader.map Prod.fst)
    : (state.step event).publishedLeader = (state.step event).leader.map Prod.fst := by
  have yielded : ∀ (follower : ElectionState) (priority : UInt8),
      follower.publishedLeader = follower.leader.map Prod.fst →
      (follower.yieldTo priority).publishedLeader
        = (follower.yieldTo priority).leader.map Prod.fst := by
    intro follower priority holds
    simp only [yieldTo]
    split_ifs
    · exact holds
    · exact holds
  cases event with
  | heartbeatTick =>
      simp only [step]
      split_ifs
      · exact published
      · exact published
  | checkTick now =>
      simp only [step, checkTimeout]
      split_ifs
      · rfl
      · exact published
      · exact published
      · rfl
      · exact published
  | received now message =>
      simp only [step, handleMessage]
      split_ifs
      · exact published
      · cases message with
        | heartbeat peerId priority seqNum =>
            simp only [handleHeartbeat]
            split_ifs
            · exact yielded _ _ rfl
            · cases leads : state.leader with
              | none => rfl
              | some leader =>
                  rw [leads] at published
                  simp only
                  split_ifs
                  · exact yielded _ _ rfl
                  · exact yielded _ _ rfl
                  · exact published
                  · rw [leads]
                    exact published
        | leaderAnnounce peerId priority =>
            simp only [handleAnnounce]
            split_ifs
            · rfl
            · rfl
            · exact published

theorem published_run (config : ElectionConfig) (start : Nat) (events : List ElectionEvent)
    : (run config start events).publishedLeader
      = (run config start events).leader.map Prod.fst := by
  refine run_invariant
    (fun state : ElectionState => state.publishedLeader = state.leader.map Prod.fst) ?_
    (coherent_new config start).published events
  exact fun state event published => published_step event published

/-- Role and leader agree in every state of a run exactly if no heartbeat disputes the role
of a sequencer under its startup grace.
-/
theorem role_matches_leader_iff (config : ElectionConfig) (start : Nat)
    (events : List ElectionEvent)
    : (∀ front, front <+: events → (run config start front).RoleMatchesLeader)
      ↔ Along step Undisputed (new config start) events := by
  rw [← Along.states_iff Coherent.step_iff (coherent_new config start) events]
  constructor
  · intro matches_ front isFront
    exact ⟨(matches_ front isFront).1, published_run config start front⟩
  · intro coherent front isFront
    exact (coherent front isFront).roleMatchesLeader

/-- A heartbeat of a lower-ranked validator under the startup grace: the sequencer publishes
it as leader and stays sequencer.
-/
theorem startup_heartbeat_splits_role
    : ¬ (run ⟨"a", 0, 15⟩ 0 [.received 1 (.heartbeat "b" 1 1)]).RoleMatchesLeader := by
  unfold RoleMatchesLeader
  decide +kernel

-----------------------------------------------------------------------------------------
-- Two sequencers
-----------------------------------------------------------------------------------------

/-- How a node can be sequencer: it leads, or it has the highest priority. -/
structure Seated (config : ElectionConfig) (state : ElectionState) : Prop where
  config_eq : state.config = config
  leads
    : state.role = .sequencer → state.leader = some config.self ∨ config.ourPriority = 0
  grace : state.startupGrace = true → state.role = .sequencer → config.ourPriority = 0

theorem seated_new (config : ElectionConfig) (start : Nat) : Seated config (new config start) := by
  by_cases highest : config.ourPriority = 0
  · exact ⟨rfl, fun _ => Or.inr highest, fun _ _ => highest⟩
  · have isValidator : (new config start).role = .validator := if_neg highest
    refine ⟨rfl, fun isSequencer => ?_, fun _ isSequencer => ?_⟩
    · rw [isValidator] at isSequencer
      cases isSequencer
    · rw [isValidator] at isSequencer
      cases isSequencer

theorem Seated.of_validator {config : ElectionConfig} {state : ElectionState}
    (config_eq : state.config = config) (isValidator : state.role = .validator)
    : Seated config state := by
  refine ⟨config_eq, fun isSequencer => ?_, fun _ isSequencer => ?_⟩
  · rw [isValidator] at isSequencer
    cases isSequencer
  · rw [isValidator] at isSequencer
    cases isSequencer

theorem Seated.of_highest {config : ElectionConfig} {state : ElectionState}
    (config_eq : state.config = config) (highest : config.ourPriority = 0)
    : Seated config state :=
  ⟨config_eq, fun _ => Or.inr highest, fun _ _ => highest⟩

theorem Seated.promote {config : ElectionConfig} {state : ElectionState}
    (config_eq : state.config = config) (ended : state.startupGrace = false)
    : Seated config state.promote := by
  refine ⟨config_eq, fun _ => Or.inl ?_, fun during => ?_⟩
  · rw [← config_eq]
    rfl
  · have during : state.startupGrace = true := during
    rw [ended] at during
    cases during

/-- A sequencer that follows a peer has yielded, unless it has the highest priority. -/
theorem Seated.yieldTo {config : ElectionConfig} {state : ElectionState} {priority : UInt8}
    (config_eq : state.config = config)
    (lower : state.role = .sequencer → priority < config.ourPriority ∨ config.ourPriority = 0)
    : Seated config (state.yieldTo priority) := by
  subst config_eq
  simp only [ElectionState.yieldTo]
  split_ifs with steps
  · exact .of_validator rfl rfl
  · cases isRole : state.role with
    | validator => exact .of_validator rfl isRole
    | sequencer =>
        rcases lower isRole with outranked | highest
        · exact absurd ⟨isRole, outranked⟩ steps
        · exact .of_highest rfl highest

theorem Seated.handleHeartbeat {config : ElectionConfig} {state : ElectionState}
    (seated : Seated config state) (now : Nat) (peerId : String) (priority : UInt8)
    : Seated config (state.handleHeartbeat now peerId priority) := by
  simp only [ElectionState.handleHeartbeat]
  split_ifs with during
  · refine Seated.yieldTo seated.config_eq (fun isSequencer => Or.inr ?_)
    exact seated.grace during isSequencer
  · cases leads : state.leader with
    | none =>
        cases isRole : state.role with
        | validator => exact .of_validator seated.config_eq isRole
        | sequencer =>
            rcases seated.leads isRole with self | highest
            · rw [leads] at self
              cases self
            · exact .of_highest seated.config_eq highest
    | some leader =>
        have lower : state.role = .sequencer → priority < leader.2 →
            priority < config.ourPriority ∨ config.ourPriority = 0 := by
          intro isSequencer below
          rcases seated.leads isSequencer with self | highest
          · rw [leads] at self
            rw [Option.some.inj self] at below
            exact Or.inl below
          · exact Or.inr highest
        have kept : ∀ heard : Nat, Seated config
            { state with leader := some leader, lastHeartbeat := heard } := by
          intro heard
          refine ⟨seated.config_eq, fun isSequencer => ?_, seated.grace⟩
          rw [← leads]
          exact seated.leads isSequencer
        simp only
        split_ifs with below
        · exact Seated.yieldTo seated.config_eq (fun isSequencer => lower isSequencer below)
        · exact Seated.yieldTo seated.config_eq (fun isSequencer => lower isSequencer below)
        · exact kept now
        · exact seated

/-- After every event a sequencer still leads or has the highest priority, by cases on the event and
on what a message says.
-/
theorem Seated.step {config : ElectionConfig} {state : ElectionState}
    (seated : Seated config state) (event : ElectionEvent)
    : Seated config (state.step event) := by
  cases event with
  | heartbeatTick =>
      simp only [ElectionState.step]
      split_ifs
      · exact ⟨seated.config_eq, seated.leads, seated.grace⟩
      · exact seated
  | checkTick now =>
      simp only [ElectionState.step, checkTimeout]
      split_ifs with during
      · exact Seated.promote seated.config_eq rfl
      · exact ⟨seated.config_eq, seated.leads, fun during => by cases during⟩
      · exact seated
      · exact Seated.promote seated.config_eq (Bool.not_eq_true _ ▸ during)
      · exact seated
  | received now message =>
      simp only [ElectionState.step, handleMessage]
      split_ifs
      · exact seated
      · cases message with
        | heartbeat peerId priority seqNum => exact seated.handleHeartbeat now peerId priority
        | leaderAnnounce peerId priority =>
            simp only [handleAnnounce]
            split_ifs
            · exact .of_validator seated.config_eq rfl
            · exact .of_validator seated.config_eq rfl
            · exact seated

theorem seated_run (config : ElectionConfig) (start : Nat) (events : List ElectionEvent)
    : Seated config (run config start events) :=
  run_invariant (Seated config) (fun _ event seated => seated.step event)
    (seated_new config start) events

end ElectionState

/-- The sender of a message comes before a node: by priority, and by peer id on a tie. -/
def ElectionMessage.Outranks (message : ElectionMessage) (config : ElectionConfig) : Prop :=
  message.priority < config.ourPriority
  ∨ message.priority = config.ourPriority ∧ message.peerId < config.ourPeerId

/-- A heartbeat of a sender with the node's own priority. -/
def ElectionMessage.TiedHeartbeat (message : ElectionMessage) (config : ElectionConfig) : Prop :=
  match message with
  | .heartbeat _ priority _ => priority = config.ourPriority
  | .leaderAnnounce _ _ => False

instance (message : ElectionMessage) (config : ElectionConfig)
    : Decidable (message.TiedHeartbeat config) := by
  unfold ElectionMessage.TiedHeartbeat
  split <;> infer_instance

namespace ElectionState

theorem yieldTo_role {state : ElectionState} {priority : UInt8}
    (isSequencer : state.role = .sequencer)
    : (state.yieldTo priority).role = .validator ↔ priority < state.config.ourPriority := by
  by_cases lower : priority < state.config.ourPriority
  · have steps : state.yieldTo priority = state.switchRole .validator :=
      if_pos ⟨isSequencer, lower⟩
    rw [steps]
    exact ⟨fun _ => lower, fun _ => rfl⟩
  · have stays : state.yieldTo priority = state := if_neg (fun both => lower both.2)
    rw [stays, isSequencer]
    exact ⟨fun clash => (by cases clash), fun below => absurd below lower⟩

theorem yieldTo_leader (state : ElectionState) (priority : UInt8)
    : (state.yieldTo priority).leader = state.leader := by
  simp only [yieldTo]
  split_ifs
  · rfl
  · rfl

/-- A sequencer steps down for a heartbeat exactly if the sender has higher priority, and
then follows the sender.
-/
theorem Seated.heartbeat_demotes {config : ElectionConfig} {state : ElectionState}
    (seated : Seated config state) (isSequencer : state.role = .sequencer) (now : Nat)
    (peerId : String) (priority : UInt8)
    : ((state.handleHeartbeat now peerId priority).role = .validator
        ↔ priority < config.ourPriority)
      ∧ (priority < config.ourPriority →
          (state.handleHeartbeat now peerId priority).leader = some (peerId, priority)) := by
  have yields : ∀ follower : ElectionState, follower.role = .sequencer →
      follower.config = config →
      (((follower.follow now peerId priority).yieldTo priority).role = .validator
          ↔ priority < config.ourPriority)
        ∧ (priority < config.ourPriority →
            ((follower.follow now peerId priority).yieldTo priority).leader
              = some (peerId, priority)) := by
    intro follower leads sameConfig
    rw [← sameConfig]
    have followed : (follower.follow now peerId priority).role = .sequencer := leads
    exact ⟨yieldTo_role followed, fun _ => yieldTo_leader _ _⟩
  have stays : ¬ priority < config.ourPriority → ∀ other : ElectionState,
      other.role = .sequencer →
      (other.role = .validator ↔ priority < config.ourPriority)
        ∧ (priority < config.ourPriority → other.leader = some (peerId, priority)) := by
    intro notLower other leads
    rw [leads]
    exact ⟨⟨fun clash => (by cases clash), fun lower => absurd lower notLower⟩,
      fun lower => absurd lower notLower⟩
  have zero : config.ourPriority = 0 → ¬ priority < config.ourPriority := by
    intro highest
    rw [highest]
    exact UInt8.not_lt_zero
  simp only [ElectionState.handleHeartbeat]
  split_ifs with during
  · exact yields { state with startupGrace := false } isSequencer seated.config_eq
  · cases leads : state.leader with
    | none =>
        refine stays ?_ _ isSequencer
        rcases seated.leads isSequencer with self | highest
        · rw [leads] at self
          cases self
        · exact zero highest
    | some leader =>
        have bound : ¬ priority < leader.2 → ¬ priority < config.ourPriority := by
          intro notBelow
          rcases seated.leads isSequencer with self | highest
          · rw [leads] at self
            rw [Option.some.inj self] at notBelow
            exact notBelow
          · exact zero highest
        simp only
        split_ifs with below
        · exact yields { state with lastHeartbeat := now } isSequencer seated.config_eq
        · exact yields state isSequencer seated.config_eq
        · exact stays (bound below) _ isSequencer
        · exact stays (bound below) _ isSequencer

/-- A sequencer steps down for an announcement exactly if the sender outranks it, and then
follows the sender.
-/
theorem Seated.announce_demotes {config : ElectionConfig} {state : ElectionState}
    (seated : Seated config state) (isSequencer : state.role = .sequencer) (now : Nat)
    (peerId : String) (priority : UInt8)
    : ((state.handleAnnounce now peerId priority).role = .validator
        ↔ (ElectionMessage.leaderAnnounce peerId priority).Outranks config)
      ∧ ((ElectionMessage.leaderAnnounce peerId priority).Outranks config →
          (state.handleAnnounce now peerId priority).leader = some (peerId, priority)) := by
  obtain ⟨rfl, _, _⟩ := seated
  simp only [ElectionState.handleAnnounce, ElectionMessage.Outranks, ElectionMessage.priority,
    ElectionMessage.peerId]
  split_ifs with lower tied
  · exact ⟨⟨fun _ => Or.inl lower, fun _ => rfl⟩, fun _ => rfl⟩
  · exact ⟨⟨fun _ => Or.inr tied, fun _ => rfl⟩, fun _ => rfl⟩
  · have unranked : ¬ (priority < state.config.ourPriority
        ∨ priority = state.config.ourPriority ∧ peerId < state.config.ourPeerId) := by
      intro outranks
      rcases outranks with below | tie
      · exact lower below
      · exact tied tie
    rw [isSequencer]
    exact ⟨⟨fun clash => (by cases clash), fun outranks => absurd outranks unranked⟩,
      fun outranks => absurd outranks unranked⟩

/-- What a sequencer does with any message of another peer: it steps down for a sender that
outranks it, unless the message is a heartbeat and the priorities tie.
-/
theorem Seated.demoted {config : ElectionConfig} {state : ElectionState}
    (seated : Seated config state) (isSequencer : state.role = .sequencer) (now : Nat)
    {message : ElectionMessage} (foreign : message.peerId ≠ config.ourPeerId)
    : ((state.handleMessage now message).role = .validator
        ↔ message.Outranks config ∧ ¬ message.TiedHeartbeat config)
      ∧ (message.Outranks config ∧ ¬ message.TiedHeartbeat config →
          (state.handleMessage now message).leader
            = some (message.peerId, message.priority)) := by
  have outside : message.peerId ≠ state.config.ourPeerId := by
    rw [seated.config_eq]
    exact foreign
  cases message with
  | heartbeat peerId priority seqNum =>
      have demotes : (ElectionMessage.heartbeat peerId priority seqNum).Outranks config
          ∧ ¬ (ElectionMessage.heartbeat peerId priority seqNum).TiedHeartbeat config
          ↔ priority < config.ourPriority := by
        simp only [ElectionMessage.Outranks, ElectionMessage.TiedHeartbeat,
          ElectionMessage.priority]
        constructor
        · intro given
          rcases given with ⟨lower | tied, untied⟩
          · exact lower
          · exact absurd tied.1 untied
        · intro lower
          exact ⟨Or.inl lower, UInt8.ne_of_lt lower⟩
      have handled : state.handleMessage now (.heartbeat peerId priority seqNum)
          = state.handleHeartbeat now peerId priority := if_neg outside
      rw [handled, demotes]
      exact seated.heartbeat_demotes isSequencer now peerId priority
  | leaderAnnounce peerId priority =>
      have demotes : (ElectionMessage.leaderAnnounce peerId priority).Outranks config
          ∧ ¬ (ElectionMessage.leaderAnnounce peerId priority).TiedHeartbeat config
          ↔ (ElectionMessage.leaderAnnounce peerId priority).Outranks config :=
        ⟨fun both => both.1, fun outranks => ⟨outranks, fun tied => tied⟩⟩
      have handled : state.handleMessage now (.leaderAnnounce peerId priority)
          = state.handleAnnounce now peerId priority := if_neg outside
      rw [handled, demotes]
      exact seated.announce_demotes isSequencer now peerId priority

/-- The message a node sends about itself. -/
def SentBy (config : ElectionConfig) (message : ElectionMessage) : Prop :=
  message.peerId = config.ourPeerId ∧ message.priority = config.ourPriority

theorem run_snoc (config : ElectionConfig) (start : Nat) (events : List ElectionEvent)
    (now : Nat) (message : ElectionMessage)
    : run config start (events ++ [.received now message])
      = (run config start events).handleMessage now message := by
  simp only [run, List.foldl_append, List.foldl_cons, List.foldl_nil, step]

/-- Neither of two nodes with one id each outranks the other. -/
theorem outranks_asymm {first second : ElectionConfig} {message reply : ElectionMessage}
    (fromSecond : SentBy second message) (fromFirst : SentBy first reply)
    (outranks : message.Outranks first)
    : ¬ reply.Outranks second := by
  simp only [ElectionMessage.Outranks, fromSecond.1, fromSecond.2, fromFirst.1,
    fromFirst.2] at outranks ⊢
  intro back
  rcases outranks with lower | ⟨tied, before⟩
  · rcases back with higher | ⟨same, _⟩
    · exact UInt8.lt_irrefl _ (UInt8.lt_trans lower higher)
    · exact UInt8.ne_of_lt lower same.symm
  · rcases back with higher | ⟨_, after⟩
    · exact UInt8.ne_of_lt higher tied.symm
    · exact lt_irrefl _ (lt_trans before after)

/-- A sequencer that hears from a peer that outranks it becomes a validator of that peer,
and so of two sequencers that hear each other only one is left, exactly if the message it
hears is not a heartbeat with its own priority.
-/
theorem split_brain_resolves_iff (config : ElectionConfig) (start : Nat)
    (events : List ElectionEvent) (now : Nat) (message : ElectionMessage)
    (isSequencer : (run config start events).role = .sequencer)
    (foreign : message.peerId ≠ config.ourPeerId) (outranks : message.Outranks config)
    : (((run config start (events ++ [.received now message])).role = .validator
          ∧ (run config start (events ++ [.received now message])).leader
            = some (message.peerId, message.priority))
        ↔ ¬ message.TiedHeartbeat config)
      ∧ ∀ (other : ElectionConfig) (otherStart : Nat) (otherEvents : List ElectionEvent)
          (later : Nat) (reply : ElectionMessage),
          (run other otherStart otherEvents).role = .sequencer →
          SentBy other message → SentBy config reply →
          (¬ ((run config start (events ++ [.received now message])).role = .sequencer
              ∧ (run other otherStart (otherEvents ++ [.received later reply])).role
                = .sequencer)
            ↔ ¬ message.TiedHeartbeat config) := by
  have sequencer_iff : ∀ role : Role, role = .sequencer ↔ ¬ role = .validator := by
    intro role
    cases role <;> simp
  obtain ⟨demotes, follows⟩ :=
    (seated_run config start events).demoted isSequencer now foreign
  rw [run_snoc]
  refine ⟨⟨fun resolved => (demotes.mp resolved.1).2, fun untied => ?_⟩, ?_⟩
  · exact ⟨demotes.mpr ⟨outranks, untied⟩, follows ⟨outranks, untied⟩⟩
  · intro other otherStart otherEvents later reply otherSequencer fromOther fromHere
    have replyForeign : reply.peerId ≠ other.ourPeerId := by
      rw [fromHere.1, ← fromOther.1]
      exact foreign.symm
    obtain ⟨otherDemotes, _⟩ :=
      (seated_run other otherStart otherEvents).demoted otherSequencer later replyForeign
    have otherStays : (run other otherStart (otherEvents ++ [.received later reply])).role
        = .sequencer := by
      rw [run_snoc, sequencer_iff, otherDemotes]
      exact fun both => outranks_asymm fromOther fromHere outranks both.1
    rw [sequencer_iff, demotes]
    constructor
    · intro notBoth tied
      exact notBoth ⟨fun demoted => demoted.2 tied, otherStays⟩
    · intro untied both
      exact both.1 ⟨outranks, untied⟩

/-- Two nodes of priority zero that start together: an announcement settles which leads. -/
theorem split_brain_resolves_announced
    : (run ⟨"b", 0, 15⟩ 0 ([] ++ [.received 1 (.leaderAnnounce "a" 0)])).role = .validator
      ∧ (run ⟨"b", 0, 15⟩ 0 ([] ++ [.received 1 (.leaderAnnounce "a" 0)])).leader
        = some ("a", 0) :=
  (split_brain_resolves_iff ⟨"b", 0, 15⟩ 0 [] 1 (.leaderAnnounce "a" 0) rfl (by decide)
    (Or.inr ⟨rfl, by decide⟩)).1.mpr (by decide)

/-- A heartbeat does not settle it: both stay sequencer. -/
theorem tied_heartbeats_keep_two_sequencers
    : (run ⟨"b", 0, 15⟩ 0 []).role = .sequencer
      ∧ (ElectionMessage.heartbeat "a" 0 1).Outranks ⟨"b", 0, 15⟩
      ∧ (run ⟨"b", 0, 15⟩ 0 [.received 1 (.heartbeat "a" 0 1)]).role = .sequencer
      ∧ (run ⟨"a", 0, 15⟩ 0 [.received 1 (.heartbeat "b" 0 1)]).role = .sequencer := by
  refine ⟨rfl, Or.inr ⟨rfl, ?_⟩, ?_, ?_⟩
  · decide
  · decide +kernel
  · decide +kernel

end ElectionState

end PerpDex
