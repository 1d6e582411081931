import Mathlib

/-! One node of a key-generation ceremony.
Its follower loop, its share importer and the admin requests that drive ceremonies work on
one active ceremony. A handler is cut at its enclave calls: between two cuts it runs as one
piece, and while it is suspended the other tasks of the node go on.
-/

namespace PerpDex.Dkg

-----------------------------------------------------------------------------------------
-- Messages and state
-----------------------------------------------------------------------------------------

/-- A map from participant ids, as a hash map is used: no order is relied on. -/
abbrev PidMap := AList (fun _ : Nat => String)

inductive DkgStepMessage where
  | round1Start (ceremonyId : String) (threshold nParticipants : Nat)
      (pidAssignment : List (String × Nat))
  | round1Done (ceremonyId : String) (pid : Nat) (vssCommitment : String)
  | round15Start (ceremonyId : String)
  | round15Done (ceremonyId : String) (pid : Nat)
  | round2Start (ceremonyId : String) (vssCommitments : List (Sigma (fun _ : Nat => String)))
  | round2Done (ceremonyId : String) (pid : Nat)
  | finalizeStart (ceremonyId : String)
  | finalizeDone (ceremonyId : String) (pid : Nat) (groupPubkey : String)
  | abort (ceremonyId : String) (pid : Nat) (reason : String)
deriving DecidableEq

/-- A share encrypted for one recipient. -/
structure Envelope where
  ceremonyNonce : String
  iv : String
  ct : String
  tag : String
  senderPubkey : String
deriving DecidableEq

/-- `ShareEnvelopeV2Message::Deliver`. -/
structure ShareMessage where
  recipientPubkey : String
  shardId : Nat
  groupId : String
  signerId : Nat
  envelope : Envelope
deriving DecidableEq

/-- The group id of a share that belongs to a ceremony, before there is a group. -/
def sentinelGroupIdZeros : String :=
  "0000000000000000000000000000000000000000000000000000000000000000"

/-- The node's own address and key, and the keys of its peers by address. The node itself is
not among its peers.
-/
structure LocalIdentity where
  xrplAddress : String
  ecdhPubkey : String
  peers : List (String × String)
  distinct : (peers.map Prod.fst).Nodup
  notSelf : xrplAddress ∉ peers.map Prod.fst

structure ActiveCeremony where
  ceremonyId : String
  threshold : Nat
  nParticipants : Nat
  pidAssignment : List (String × Nat)
  myPid : Nat
  vssCommitments : PidMap
  round1Done : Finset Nat
  round15Done : Finset Nat
  round2Done : Finset Nat
  finalizeDone : PidMap
  importedFromPid : Finset Nat

/-- A handler that waits for its enclave, or for imports. -/
inductive Task where
  | generate (ceremonyId : String) (threshold nParticipants : Nat)
      (pidAssignment : List (String × Nat)) (myPid : Nat)
  | exportShare (ceremonyId : String) (myPid : Nat) (peer : String) (peerEcdh : String)
      (remaining : List (String × Nat))
  | awaitImports (ceremonyId : String) (myPid want : Nat)
  | finalize (ceremonyId : String) (myPid : Nat)

/-- What ends a wait: the enclave's answer, or one more look at the imports. -/
inductive Resume where
  | generated (result : Except String String)
  | exported (result : Except String Envelope)
  | polled (expired : Bool)
  | finalized (result : Except String String)

inductive Progress where
  | suspended (task : Task)
  | finished
  | failed (reason : String)

/-- What one piece of a handler does: the active ceremony it leaves, how far it got, what it
publishes, and the ceremony and key of an enclave call of `dkg_finalize` that returned.
-/
structure Effect where
  active : Option ActiveCeremony
  progress : Progress
  steps : List DkgStepMessage := []
  shares : List ShareMessage := []
  finalized : List (String × String) := []

/-- The active ceremony, if it is this one. -/
def ofCeremony (active : Option ActiveCeremony) (ceremonyId : String) : Option ActiveCeremony :=
  active.filter (fun ceremony => ceremony.ceremonyId = ceremonyId)

/-- A change to the active ceremony, if it is this one. -/
def onCeremony (active : Option ActiveCeremony) (ceremonyId : String)
    (change : ActiveCeremony → ActiveCeremony) : Option ActiveCeremony :=
  active.map (fun ceremony =>
    if ceremony.ceremonyId = ceremonyId then change ceremony else ceremony)

-----------------------------------------------------------------------------------------
-- Handlers
-----------------------------------------------------------------------------------------

/-- A handler that only records. -/
def recorded (active : Option ActiveCeremony) : Effect := { active, progress := .finished }

def waiting (active : Option ActiveCeremony) (task : Task) : Effect :=
  { active, progress := .suspended task }

def failure (active : Option ActiveCeremony) (reason : String) : Effect :=
  { active, progress := .failed reason }

def round1Start (identity : LocalIdentity) (active : Option ActiveCeremony)
    (ceremonyId : String) (threshold nParticipants : Nat)
    (pidAssignment : List (String × Nat)) : Effect :=
  match pidAssignment.find? (fun entry => entry.1 = identity.xrplAddress) with
  | none => failure active
      ("local xrpl_address " ++ identity.xrplAddress ++ " not in pid_assignment")
  | some entry =>
      waiting active (.generate ceremonyId threshold nParticipants pidAssignment entry.2)

/-- The rest of the export loop: the next peer that is not the node itself, or the end. -/
def exportNext (identity : LocalIdentity) (active : Option ActiveCeremony)
    (ceremonyId : String) (myPid : Nat) : List (String × Nat) → Effect
  | [] => {
      active := onCeremony active ceremonyId (fun ceremony =>
        { ceremony with round15Done := insert myPid ceremony.round15Done }),
      progress := .finished,
      steps := [.round15Done ceremonyId myPid]
    }
  | (peer, peerPid) :: rest =>
      if peerPid = myPid then exportNext identity active ceremonyId myPid rest
      else match identity.peers.lookup peer with
        | none => failure active ("no ECDH pubkey for peer " ++ peer)
        | some peerEcdh =>
            waiting active (.exportShare ceremonyId myPid peer peerEcdh rest)

def round15Start (identity : LocalIdentity) (active : Option ActiveCeremony)
    (ceremonyId : String) : Effect :=
  match ofCeremony active ceremonyId with
  | none => failure active ("Round15Start for unknown ceremony " ++ ceremonyId)
  | some ceremony =>
      exportNext identity active ceremonyId ceremony.myPid ceremony.pidAssignment

def round2Start (active : Option ActiveCeremony) (ceremonyId : String) : Effect :=
  match ofCeremony active ceremonyId with
  | none => failure active ("Round2Start for unknown ceremony " ++ ceremonyId)
  | some ceremony =>
      waiting active (.awaitImports ceremonyId ceremony.myPid (ceremony.nParticipants - 1))

def finalizeStart (active : Option ActiveCeremony) (ceremonyId : String) : Effect :=
  match ofCeremony active ceremonyId with
  | none => failure active ("FinalizeStart for unknown ceremony " ++ ceremonyId)
  | some ceremony => waiting active (.finalize ceremonyId ceremony.myPid)

/-- A message up to its first enclave call. The commitments that `Round2Start` carries are
not looked at.
-/
def handleMessage (identity : LocalIdentity) (active : Option ActiveCeremony)
    : DkgStepMessage → Effect
  | .round1Start ceremonyId threshold nParticipants pidAssignment =>
      round1Start identity active ceremonyId threshold nParticipants pidAssignment
  | .round1Done ceremonyId pid vssCommitment =>
      recorded (onCeremony active ceremonyId (fun ceremony => { ceremony with
        vssCommitments := ceremony.vssCommitments.insert pid vssCommitment,
        round1Done := insert pid ceremony.round1Done }))
  | .round15Start ceremonyId => round15Start identity active ceremonyId
  | .round15Done ceremonyId pid =>
      recorded (onCeremony active ceremonyId (fun ceremony =>
        { ceremony with round15Done := insert pid ceremony.round15Done }))
  | .round2Start ceremonyId _ => round2Start active ceremonyId
  | .round2Done ceremonyId pid =>
      recorded (onCeremony active ceremonyId (fun ceremony =>
        { ceremony with round2Done := insert pid ceremony.round2Done }))
  | .finalizeStart ceremonyId => finalizeStart active ceremonyId
  | .finalizeDone ceremonyId pid groupPubkey =>
      recorded (onCeremony active ceremonyId (fun ceremony =>
        { ceremony with finalizeDone := ceremony.finalizeDone.insert pid groupPubkey }))
  | .abort ceremonyId _ _ =>
      recorded (active.filter (fun ceremony => ceremony.ceremonyId ≠ ceremonyId))

/-- A fresh ceremony with the node's own commitment. -/
def begun (ceremonyId : String) (threshold nParticipants : Nat)
    (pidAssignment : List (String × Nat)) (myPid : Nat) (vss : String) : ActiveCeremony where
  ceremonyId := ceremonyId
  threshold := threshold
  nParticipants := nParticipants
  pidAssignment := pidAssignment
  myPid := myPid
  vssCommitments := (∅ : PidMap).insert myPid vss
  round1Done := {myPid}
  round15Done := ∅
  round2Done := ∅
  finalizeDone := ∅
  importedFromPid := ∅

/-- A suspended handler goes on; an answer to another call than the one it waits for is
none.
-/
def resumeTask (identity : LocalIdentity) (active : Option ActiveCeremony)
    : Task → Resume → Option Effect
  | .generate ceremonyId threshold nParticipants pidAssignment myPid, .generated (.ok vss) =>
      some {
        active := some (begun ceremonyId threshold nParticipants pidAssignment myPid vss),
        progress := .finished,
        steps := [.round1Done ceremonyId myPid vss]
      }
  | .generate .., .generated (.error _) => some (failure active "dkg_round1_generate failed")
  | .exportShare ceremonyId myPid _ peerEcdh remaining, .exported (.ok envelope) =>
      let next := exportNext identity active ceremonyId myPid remaining
      some { next with
        shares := {
          recipientPubkey := peerEcdh, shardId := 0, groupId := sentinelGroupIdZeros,
          signerId := myPid, envelope
        } :: next.shares }
  | .exportShare _ _ peer _ _, .exported (.error _) =>
      some (failure active ("dkg_round1_export_share_v2 to " ++ peer))
  | .awaitImports ceremonyId myPid want, .polled expired =>
      let count := (active.map (fun ceremony => ceremony.importedFromPid.card)).getD 0
      if want ≤ count then
        some {
          active := onCeremony active ceremonyId (fun ceremony =>
            { ceremony with round2Done := insert myPid ceremony.round2Done }),
          progress := .finished,
          steps := [.round2Done ceremonyId myPid]
        }
      else if expired then
        some (failure active ("Round2 timeout: imported " ++ toString count ++ " of "
          ++ toString want ++ " expected DKG shares"))
      else some (waiting active (.awaitImports ceremonyId myPid want))
  | .finalize ceremonyId myPid, .finalized (.ok groupPubkey) =>
      some {
        active := onCeremony active ceremonyId (fun ceremony =>
          { ceremony with finalizeDone := ceremony.finalizeDone.insert myPid groupPubkey }),
        progress := .finished,
        steps := [.finalizeDone ceremonyId myPid groupPubkey],
        finalized := [(ceremonyId, groupPubkey)]
      }
  | .finalize .., .finalized (.error _) => some (failure active "dkg_finalize")
  | _, _ => none

-----------------------------------------------------------------------------------------
-- The leader's request
-----------------------------------------------------------------------------------------

/-- Own address and peers in ascending order, numbered from zero. -/
def buildPidAssignment (identity : LocalIdentity) : List (String × Nat) :=
  ((identity.peers.map Prod.fst ++ [identity.xrplAddress]).insertionSort
    (fun left right => left ≤ right)).zipIdx

def validateThreshold (threshold n : Nat) : Except String Unit :=
  if threshold < 2 ∨ n < threshold then
    .error ("invalid threshold " ++ toString threshold ++ " for n=" ++ toString n)
  else .ok ()

inductive Status where
  | success
  | diverged
  | timeout
deriving DecidableEq

structure StartDkgResponse where
  ceremonyId : String
  status : Status
  groupPubkey : Option String
  message : Option String
deriving DecidableEq

/-- Which of the later rounds a request has started. -/
structure Sent where
  round15 : Bool
  round2 : Bool
  finalize : Bool

/-- A request to start a ceremony. While it sends a message it first handles it itself;
`initial` marks the first one.
-/
inductive Driver where
  | idle
  | sending (initial : Bool) (ceremonyId : String) (n : Nat) (sent : Sent)
      (message : DkgStepMessage) (task : Task)
  | driving (ceremonyId : String) (n : Nat) (sent : Sent)
  | refused (reason : String)
  | responded (response : StartDkgResponse)

/-- The answer a request has been given. -/
def Driver.response : Driver → Option StartDkgResponse
  | .responded response => some response
  | _ => none

/-- `publish_and_self_handle` after a piece of the handler: the message is published once the
handler has finished, and not at all if it fails.
-/
def selfHandled (initial : Bool) (ceremonyId : String) (n : Nat) (sent : Sent)
    (message : DkgStepMessage) (effect : Effect) : Driver × Effect :=
  match effect.progress with
  | .suspended task => (.sending initial ceremonyId n sent message task, effect)
  | .finished =>
      (.driving ceremonyId n sent, { effect with steps := effect.steps ++ [message] })
  | .failed reason =>
      if initial then
        (.refused ("publish/self-handle Round1Start failed: " ++ reason), effect)
      else (.driving ceremonyId n sent, effect)

def handleStartDkg (identity : LocalIdentity) (active : Option ActiveCeremony)
    (ceremonyId : String) (threshold : Nat) : Driver × Effect :=
  let pidAssignment := buildPidAssignment identity
  let n := pidAssignment.length
  match validateThreshold threshold n with
  | .error reason => (.refused reason, recorded active)
  | .ok () =>
      let message := DkgStepMessage.round1Start ceremonyId threshold n pidAssignment
      selfHandled true ceremonyId n ⟨false, false, false⟩ message
        (handleMessage identity active message)

/-- The answer once as many keys as participants have been acknowledged. -/
def concluded (ceremonyId : String) (keys : List String) : StartDkgResponse :=
  let canonical := keys.headD ""
  if keys.all (fun key => key = canonical) then
    { ceremonyId, status := .success, groupPubkey := some canonical, message := none }
  else {
    ceremonyId, status := .diverged, groupPubkey := none,
    message := some "group_pubkeys diverged across nodes"
  }

/-- One round of the loop of `drive_ceremony`. -/
def driveCeremony (identity : LocalIdentity) (active : Option ActiveCeremony)
    (ceremonyId : String) (n : Nat) (sent : Sent) (expired : Bool) : Driver × Effect :=
  if expired then
    (.responded {
      ceremonyId, status := .timeout, groupPubkey := none,
      message := some "ceremony stalled past 180s"
    }, recorded active)
  else match ofCeremony active ceremonyId with
    | none => (.driving ceremonyId n sent, recorded active)
    | some ceremony =>
        if ceremony.finalizeDone.entries.length = n then
          (.responded (concluded ceremonyId (ceremony.finalizeDone.entries.map Sigma.snd)),
            recorded none)
        else if ceremony.round1Done.card = n ∧ sent.round15 = false then
          let message := DkgStepMessage.round15Start ceremonyId
          selfHandled false ceremonyId n { sent with round15 := true } message
            (handleMessage identity active message)
        else if ceremony.round15Done.card = n ∧ sent.round2 = false then
          let message := DkgStepMessage.round2Start ceremonyId ceremony.vssCommitments.entries
          selfHandled false ceremonyId n { sent with round2 := true } message
            (handleMessage identity active message)
        else if ceremony.round2Done.card = n ∧ sent.finalize = false then
          let message := DkgStepMessage.finalizeStart ceremonyId
          selfHandled false ceremonyId n { sent with finalize := true } message
            (handleMessage identity active message)
        else (.driving ceremonyId n sent, recorded active)

-----------------------------------------------------------------------------------------
-- The tasks of a node
-----------------------------------------------------------------------------------------

/-- A share import that waits for the enclave: one of a ceremony, checked against the
commitment of its sender, or one of an existing group.
-/
inductive Import where
  | bootstrap (share : ShareMessage) (vss : String)
  | rotation (share : ShareMessage)

structure Node where
  identity : LocalIdentity
  active : Option ActiveCeremony
  follower : Option Task
  importer : Option Import
  drivers : Nat → Driver

/-- A node before any ceremony. -/
def Node.fresh (identity : LocalIdentity) : Node where
  identity := identity
  active := none
  follower := none
  importer := none
  drivers := fun _ => .idle

/-- What a node gives away in a step. -/
structure Output where
  steps : List DkgStepMessage := []
  shares : List ShareMessage := []
  finalized : List (String × String) := []

inductive NodeEvent where
  | receive (message : DkgStepMessage)
  | resume (answer : Resume)
  | receiveShare (share : ShareMessage)
  | imported (result : Except String Unit)
  | start (request : Nat) (ceremonyId : String) (threshold : Nat)
  | resumeDriver (request : Nat) (answer : Resume)
  | tick (request : Nat) (expired : Bool)

/-- A piece of the follower loop. A handler that fails makes it abort the ceremony that is
active by then.
-/
def Node.follow (node : Node) (effect : Effect) : Node × Output :=
  match effect.progress with
  | .suspended task =>
      ({ node with active := effect.active, follower := some task },
        { steps := effect.steps, shares := effect.shares, finalized := effect.finalized })
  | .finished =>
      ({ node with active := effect.active, follower := none },
        { steps := effect.steps, shares := effect.shares, finalized := effect.finalized })
  | .failed reason =>
      let aborts := effect.active.toList.map (fun ceremony =>
        DkgStepMessage.abort ceremony.ceremonyId ceremony.myPid reason)
      ({ node with active := effect.active, follower := none },
        { steps := effect.steps ++ aborts, shares := effect.shares, finalized := effect.finalized })

/-- A piece of a request. -/
def Node.drive (node : Node) (request : Nat) (piece : Driver × Effect) : Node × Output :=
  ({ node with
      active := piece.2.active, drivers := Function.update node.drivers request piece.1 },
    { steps := piece.2.steps, shares := piece.2.shares, finalized := piece.2.finalized })

/-- `route_inbound_share_v2` up to its enclave call: a share of a ceremony is given up unless
the commitment of its sender is known.
-/
def routeInboundShareV2 (active : Option ActiveCeremony) (share : ShareMessage)
    : Option Import :=
  if share.groupId = sentinelGroupIdZeros then
    (active.bind (fun ceremony => ceremony.vssCommitments.lookup share.signerId)).map
      (fun vss => .bootstrap share vss)
  else some (.rotation share)

/-- A share that has been imported is noted in the ceremony that is active by then. -/
def noteImport (active : Option ActiveCeremony) : Import → Option ActiveCeremony
  | .bootstrap share _ => active.map (fun ceremony =>
      { ceremony with importedFromPid := insert share.signerId ceremony.importedFromPid })
  | .rotation _ => active

/-- One event at a node. An event whose task is not there to take it changes nothing. -/
def Node.step (node : Node) : NodeEvent → Node × Output
  | .receive message =>
      match node.follower with
      | some _ => (node, {})
      | none => node.follow (handleMessage node.identity node.active message)
  | .resume answer =>
      match node.follower.bind (fun task => resumeTask node.identity node.active task answer) with
      | none => (node, {})
      | some effect => node.follow effect
  | .receiveShare share =>
      match node.importer with
      | some _ => (node, {})
      | none => ({ node with importer := routeInboundShareV2 node.active share }, {})
  | .imported result =>
      match node.importer, result with
      | none, _ => (node, {})
      | some _, .error _ => ({ node with importer := none }, {})
      | some waiting, .ok () =>
          ({ node with importer := none, active := noteImport node.active waiting }, {})
  | .start request ceremonyId threshold =>
      match node.drivers request with
      | .idle =>
          node.drive request (handleStartDkg node.identity node.active ceremonyId threshold)
      | _ => (node, {})
  | .resumeDriver request answer =>
      match node.drivers request with
      | .sending initial ceremonyId n sent message task =>
          match resumeTask node.identity node.active task answer with
          | none => (node, {})
          | some effect =>
              node.drive request (selfHandled initial ceremonyId n sent message effect)
      | _ => (node, {})
  | .tick request expired =>
      match node.drivers request with
      | .driving ceremonyId n sent =>
          node.drive request
            (driveCeremony node.identity node.active ceremonyId n sent expired)
      | _ => (node, {})

-----------------------------------------------------------------------------------------
-- What a piece leaves
-----------------------------------------------------------------------------------------

section Pieces

variable (node : Node) (effect : Effect)

@[simp]
theorem follow_identity : (node.follow effect).1.identity = node.identity := by
  unfold Node.follow
  split <;> rfl

@[simp]
theorem follow_active : (node.follow effect).1.active = effect.active := by
  unfold Node.follow
  split <;> rfl

@[simp]
theorem follow_importer : (node.follow effect).1.importer = node.importer := by
  unfold Node.follow
  split <;> rfl

@[simp]
theorem follow_drivers : (node.follow effect).1.drivers = node.drivers := by
  unfold Node.follow
  split <;> rfl

@[simp]
theorem follow_finalized : (node.follow effect).2.finalized = effect.finalized := by
  unfold Node.follow
  split <;> rfl

/-- The follower loop waits for what its handler is suspended on. -/
theorem follow_follower {task : Task} (isTask : (node.follow effect).1.follower = some task)
    : effect.progress = .suspended task := by
  unfold Node.follow at isTask
  split at isTask
  case h_1 isSuspended =>
    cases isTask
    exact isSuspended
  case h_2 => cases isTask
  case h_3 => cases isTask

theorem selfHandled_finalized (initial : Bool) (id : String) (n : Nat) (sent : Sent)
    (message : DkgStepMessage)
    : (selfHandled initial id n sent message effect).2.finalized = effect.finalized := by
  unfold selfHandled
  split
  · rfl
  · rfl
  · split <;> rfl

end Pieces

end PerpDex.Dkg
