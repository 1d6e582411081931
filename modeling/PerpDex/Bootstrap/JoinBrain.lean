import PerpDex.Lib.Run
import PerpDex.Membership.Ceremony

/-! The task by which a node joins a cluster and helps others to join.
A node that has sealed a membership answers requests of newcomers: the first of the
authority set at once, the others after a delay that grows with their place in it, unless
they see somebody else answer. A node that has none asks for it and imports what it is sent.
-/

namespace PerpDex

namespace Bootstrap

open PerpDex.Membership (MembershipSignerWire)

-----------------------------------------------------------------------------------------
-- Epochs of the peers
-----------------------------------------------------------------------------------------

/-- A second, in the unit of the clock. -/
def second : Nat := 1000000000

/-- What verified peers last advertised, by key: the epoch and the time it was seen. -/
abbrev ObservedPeerEpochs := AList (fun _ : String => Nat × Nat)

def recordEpoch (observed : ObservedPeerEpochs) (peerPubkey : String) (authorityEpoch now : Nat)
    : ObservedPeerEpochs :=
  observed.insert peerPubkey (authorityEpoch, now)

/-- The epochs that were seen within some time. -/
def freshEpochs (observed : ObservedPeerEpochs) (now within : Nat) : List Nat :=
  (observed.entries.filter (fun entry => now - entry.2.2 ≤ within)).map (fun entry => entry.2.1)

def maxFresh (observed : ObservedPeerEpochs) (now within : Nat) : Option Nat :=
  (freshEpochs observed now within).max?

def freshPeerCount (observed : ObservedPeerEpochs) (now within : Nat) : Nat :=
  (freshEpochs observed now within).length

-----------------------------------------------------------------------------------------
-- Decisions
-----------------------------------------------------------------------------------------

/-- The place of an account in the authority set, in ascending order of ids and without
repetitions. Both sides are taken in lower case; ids are hexadecimal, which no letter beyond
ASCII turns into.
-/
def electionRank (myAccountIdHex : String) (authority : List MembershipSignerWire)
    : Option Nat :=
  let me := Hex.toAsciiLowercase myAccountIdHex
  let ids := (authority.map (fun signer => Hex.toAsciiLowercase signer.accountIdHex)).insertionSort
    (fun left right => left ≤ right)
  (ids.destutter (fun left right => left ≠ right)).findIdx? (fun id => id = me)

inductive EpochGate where
  | accept
  | reject (deliver reference : Nat)
  | noReference
deriving DecidableEq

def epochGate (deliverEpoch : Nat) : Option Nat → EpochGate
  | none => .noReference
  | some reference =>
      if deliverEpoch = reference then .accept else .reject deliverEpoch reference

-----------------------------------------------------------------------------------------
-- Messages, configuration, state
-----------------------------------------------------------------------------------------

structure BootstrapEnvelope where
  ceremonyNonce : String
  iv : String
  ct : String
  tag : String
  senderPk : String
deriving DecidableEq

/-- `BootstrapMessage::Deliver`. -/
structure Deliver where
  recipientPubkey : String
  shardId : Nat
  groupId : String
  escrowAccountId : String
  authoritySigners : String
  authoritySignerCount : Nat
  authorityQuorum : Nat
  authorityEpoch : Nat
  confirmedEpoch : Nat
  prevEpochHash : String
  attestingSigners : String
  attestingSignerCount : Nat
  attestingQuorum : Nat
  envelope : BootstrapEnvelope
deriving DecidableEq

inductive BootstrapMessage where
  | request (requesterPubkey : String) (shardId : Nat) (groupId : String)
  | deliver (bundle : Deliver)
deriving DecidableEq

/-- The tuple that a source retains for the current epoch. -/
structure CurrentMembershipBundle where
  escrowHex : String
  authorityEpoch : Nat
  confirmedEpoch : Nat
  prevEpochHashHex : String
  authoritySignersHex : String
  authoritySignerCount : Nat
  authorityQuorum : Nat
  attestingSignersHex : String
  attestingSignerCount : Nat
  attestingQuorum : Nat
  quorumBundleHex : String

structure MembershipSyncState where
  authorityEpoch : Nat
  projectionConfirmedEpoch : Nat
  inSync : Bool

structure BootstrapExportInput where
  newcomerPkHex : String
  shardId : Nat
  groupIdHex : String
  escrowHex : String
  prevEpochHashHex : String
  quorumBundleHex : String
  nowTs : Nat
  authoritySigners : List MembershipSignerWire
  authorityQuorum : Nat
  authorityEpoch : Nat

structure BootstrapImportInput where
  senderPkHex : String
  shardId : Nat
  groupIdHex : String
  escrowHex : String
  prevEpochHashHex : String
  nowTs : Nat
  authoritySigners : List MembershipSignerWire
  authorityQuorum : Nat
  authorityEpoch : Nat
  confirmedEpoch : Nat
  attestingSigners : List MembershipSignerWire
  attestingQuorum : Nat
  envelope : BootstrapEnvelope

/-- The configuration of the task. Without a retention store it serves nobody. -/
structure JoinBrain where
  hasDb : Bool
  escrowHex : String
  shardId : Nat
  groupIdHex : String
  myEcdhPk : String
  myAccountIdHex : String

/-- What the store and the enclave say when a source prepares. -/
structure SourceView where
  syncState : Except String (Option MembershipSyncState)
  bundle : Option CurrentMembershipBundle

/-- What the surroundings answer while one event is handled. A source prepares anew for each
requester; the enclave's epoch is asked for twice in a tick.
-/
structure Answers where
  nowUnix : Nat
  source : String → SourceView
  exported : BootstrapExportInput → Except String BootstrapEnvelope
  imported : BootstrapImportInput → Except String Nat
  queriedEpoch : Option Nat
  sealedEpoch : Option Nat

/-- The variables of the loop, and the epochs that another task records. -/
structure JoinState where
  observed : ObservedPeerEpochs
  bootstrapped : Bool
  lastRequest : Option Nat
  requestRetries : Nat
  halted : Bool
  served : Finset String
  pendingServes : AList (fun _ : String => Nat)
  lastDriftCheck : Option Nat
  driftSince : Option Nat
  driftFlagged : Bool

def JoinState.start (bootstrapped : Bool) : JoinState where
  observed := ∅
  bootstrapped := bootstrapped
  lastRequest := none
  requestRetries := 0
  halted := false
  served := ∅
  pendingServes := ∅
  lastDriftCheck := none
  driftSince := none
  driftFlagged := false

/-- The requesters that are served in a step, and the messages that are published. -/
structure Output where
  serves : List String := []
  published : List BootstrapMessage := []

def peerEpochTtl : Nat := 300 * second

def requestInterval : Nat := 30 * second

def electionJitter : Nat := 3 * second

def maxRequestRetries : Nat := 20

def driftCheckInterval : Nat := 30 * second

def driftHaltAfter : Nat := 120 * second

-----------------------------------------------------------------------------------------
-- The source role
-----------------------------------------------------------------------------------------

def beU32 (bytes : List UInt8) : UInt32 :=
  UInt32.ofNat (bytes.foldl (fun value byte => 256 * value + byte.toNat) 0)

/-- Records of 24 bytes: an account id and a weight. A partial record at the end is dropped. -/
def unpackMembershipSigners (packedHex : String) : List MembershipSignerWire :=
  match Hex.decode packedHex with
  | none => []
  | some bytes =>
      (List.range (bytes.length / 24)).map (fun index =>
        let chunk := (bytes.drop (24 * index)).take 24
        ⟨Hex.encode (chunk.take 20), beU32 (chunk.drop 20)⟩)

/-- The retained tuple and the node's rank, if the node is in sync, holds the tuple of the
current epoch and is a member of its authority set.
-/
def sourcePrepare (brain : JoinBrain) (view : SourceView)
    : Option (CurrentMembershipBundle × Nat) :=
  if brain.hasDb = false then none
  else match view.syncState, view.bundle with
    | .ok (some sync), some tuple =>
        if sync.inSync = false then none
        else if tuple.authorityEpoch ≠ sync.authorityEpoch then none
        else
          (electionRank brain.myAccountIdHex
            (unpackMembershipSigners tuple.authoritySignersHex)).map
            (fun rank => (tuple, rank))
    | _, _ => none

/-- What is published for a requester: the bundle, if the enclave wraps it. -/
def sourceServe (brain : JoinBrain) (answers : Answers) (requesterPk : String)
    (tuple : CurrentMembershipBundle) : List BootstrapMessage :=
  let input : BootstrapExportInput := {
    newcomerPkHex := requesterPk
    shardId := brain.shardId
    groupIdHex := brain.groupIdHex
    escrowHex := tuple.escrowHex
    prevEpochHashHex := tuple.prevEpochHashHex
    quorumBundleHex := tuple.quorumBundleHex
    nowTs := answers.nowUnix
    authoritySigners := unpackMembershipSigners tuple.authoritySignersHex
    authorityQuorum := tuple.authorityQuorum
    authorityEpoch := tuple.authorityEpoch
  }
  match answers.exported input with
  | .ok envelope => [.deliver {
      recipientPubkey := requesterPk
      shardId := brain.shardId
      groupId := brain.groupIdHex
      escrowAccountId := tuple.escrowHex
      authoritySigners := tuple.authoritySignersHex
      authoritySignerCount := tuple.authoritySignerCount
      authorityQuorum := tuple.authorityQuorum
      authorityEpoch := tuple.authorityEpoch
      confirmedEpoch := tuple.confirmedEpoch
      prevEpochHash := tuple.prevEpochHashHex
      attestingSigners := tuple.attestingSignersHex
      attestingSignerCount := tuple.attestingSignerCount
      attestingQuorum := tuple.attestingQuorum
      envelope
    }]
  | .error _ => []

/-- A request that is passed over: of another cluster, or of the node itself. -/
def passedOver (brain : JoinBrain) (requesterPubkey : String) (shardId : Nat) (groupId : String)
    : Bool :=
  shardId ≠ brain.shardId || !Hex.eqIgnoreAsciiCase groupId brain.groupIdHex
    || Hex.eqIgnoreAsciiCase requesterPubkey brain.myEcdhPk

/-- The primary serves at once; the others note when their turn comes, unless it is noted
already. A rank counts the records of one database row, so it fits the factor of the delay.
-/
def handleRequest (brain : JoinBrain) (state : JoinState) (now : Nat) (answers : Answers)
    (requesterPubkey : String) (shardId : Nat) (groupId : String) : JoinState × Output :=
  if passedOver brain requesterPubkey shardId groupId then (state, {})
  else if state.driftFlagged then (state, {})
  else match sourcePrepare brain (answers.source requesterPubkey) with
    | some (tuple, 0) =>
        ({ state with served := insert requesterPubkey state.served },
          { serves := [requesterPubkey]
            published := sourceServe brain answers requesterPubkey tuple })
    | some (_, rank) =>
        ({ state with
            pendingServes :=
              if requesterPubkey ∈ state.pendingServes then state.pendingServes
              else state.pendingServes.insert requesterPubkey (now + electionJitter * rank) },
          {})
    | none => (state, {})

-----------------------------------------------------------------------------------------
-- The newcomer role
-----------------------------------------------------------------------------------------

/-- Whether the node has sealed the membership it was sent: one of its own cluster and of the
epoch that its peers advertise.
-/
def newcomerHandleDeliver (brain : JoinBrain) (observed : ObservedPeerEpochs) (now : Nat)
    (answers : Answers) (bundle : Deliver) : Bool :=
  if bundle.shardId ≠ brain.shardId ∨ !Hex.eqIgnoreAsciiCase bundle.groupId brain.groupIdHex then
    false
  else if !Hex.eqIgnoreAsciiCase bundle.escrowAccountId brain.escrowHex then false
  else
    let reference := maxFresh observed now peerEpochTtl
    match epochGate bundle.authorityEpoch reference with
    | .noReference => false
    | .reject _ _ => false
    | .accept =>
        let input : BootstrapImportInput := {
          senderPkHex := bundle.envelope.senderPk
          shardId := brain.shardId
          groupIdHex := brain.groupIdHex
          escrowHex := bundle.escrowAccountId
          prevEpochHashHex := bundle.prevEpochHash
          nowTs := answers.nowUnix
          authoritySigners := unpackMembershipSigners bundle.authoritySigners
          authorityQuorum := bundle.authorityQuorum
          authorityEpoch := bundle.authorityEpoch
          confirmedEpoch := bundle.confirmedEpoch
          attestingSigners := unpackMembershipSigners bundle.attestingSigners
          attestingQuorum := bundle.attestingQuorum
          envelope := bundle.envelope
        }
        match answers.imported input with
        | .ok sealedEpoch => reference.all (fun epoch => sealedEpoch = epoch)
        | .error _ => false

/-- Any delivery counts as an answer to its recipient, and cancels what is noted for it. -/
def handleDeliver (brain : JoinBrain) (state : JoinState) (now : Nat) (answers : Answers)
    (bundle : Deliver) : JoinState :=
  { state with
    served := insert bundle.recipientPubkey state.served
    pendingServes := state.pendingServes.erase bundle.recipientPubkey
    bootstrapped :=
      if Hex.eqIgnoreAsciiCase bundle.recipientPubkey brain.myEcdhPk
          && !state.bootstrapped then
        newcomerHandleDeliver brain state.observed now answers bundle
      else state.bootstrapped }

/-- A node without a membership asks for one, every while, until it gives up. -/
def newcomerTrigger (brain : JoinBrain) (now : Nat) (answers : Answers) (state : JoinState)
    : JoinState × List BootstrapMessage :=
  if state.bootstrapped || state.halted then (state, [])
  else if answers.queriedEpoch.isSome then ({ state with bootstrapped := true }, [])
  else if 1 ≤ freshPeerCount state.observed now peerEpochTtl
      ∧ state.lastRequest.all (fun last => requestInterval ≤ now - last) = true then
    ({ state with
        lastRequest := some now
        requestRetries := state.requestRetries + 1
        halted := decide (maxRequestRetries ≤ state.requestRetries + 1) },
      [.request brain.myEcdhPk brain.shardId brain.groupIdHex])
  else (state, [])

-----------------------------------------------------------------------------------------
-- Housekeeping
-----------------------------------------------------------------------------------------

/-- The requesters whose turn has come and whom nobody is known to have answered. -/
def dueServes (state : JoinState) (now : Nat) : List String :=
  (state.pendingServes.entries.filter
    (fun entry => entry.2 ≤ now ∧ entry.1 ∉ state.served)).map Sigma.fst

/-- One round of the loop over the requesters that are due. -/
def serveDue (brain : JoinBrain) (answers : Answers) (reached : JoinState × Output)
    (requester : String) : JoinState × Output :=
  let state := { reached.1 with pendingServes := reached.1.pendingServes.erase requester }
  if requester ∈ state.served then (state, reached.2)
  else if state.driftFlagged then (state, reached.2)
  else match sourcePrepare brain (answers.source requester) with
    | some (tuple, _) =>
        ({ state with served := insert requester state.served },
          { serves := reached.2.serves ++ [requester]
            published := reached.2.published ++ sourceServe brain answers requester tuple })
    | none => (state, reached.2)

/-- A sealed node compares its epoch with its peers', and flags itself once it has been
behind for too long.
-/
def driftCheck (now : Nat) (answers : Answers) (state : JoinState) : JoinState :=
  if state.bootstrapped
      && state.lastDriftCheck.all (fun last => decide (driftCheckInterval ≤ now - last)) then
    match maxFresh state.observed now peerEpochTtl, answers.sealedEpoch with
    | some reference, some mine =>
        if mine < reference then
          let since := state.driftSince.getD now
          { state with
            lastDriftCheck := some now
            driftSince := some since
            driftFlagged := state.driftFlagged || decide (driftHaltAfter ≤ now - since) }
        else
          { state with lastDriftCheck := some now, driftSince := none, driftFlagged := false }
    | _, _ => { state with lastDriftCheck := some now }
  else state

def housekeeping (brain : JoinBrain) (state : JoinState) (now : Nat) (answers : Answers)
    : JoinState × Output :=
  let reached := (dueServes state now).foldl (serveDue brain answers) (state, {})
  let triggered := newcomerTrigger brain now answers reached.1
  (driftCheck now answers triggered.1,
    { serves := reached.2.serves, published := reached.2.published ++ triggered.2 })

-----------------------------------------------------------------------------------------
-- The loop
-----------------------------------------------------------------------------------------

/-- An event with the time it is handled at: a peer's epoch that is recorded, a message, or a
tick.
-/
inductive JoinEvent where
  | observe (peerPubkey : String) (authorityEpoch now : Nat)
  | receive (message : BootstrapMessage) (now : Nat) (answers : Answers)
  | tick (now : Nat) (answers : Answers)

def runJoinBrain (brain : JoinBrain) (state : JoinState) : JoinEvent → JoinState × Output
  | .observe peerPubkey authorityEpoch now =>
      ({ state with observed := recordEpoch state.observed peerPubkey authorityEpoch now }, {})
  | .receive (.request requesterPubkey shardId groupId) now answers =>
      handleRequest brain state now answers requesterPubkey shardId groupId
  | .receive (.deliver bundle) now answers => (handleDeliver brain state now answers bundle, {})
  | .tick now answers => housekeeping brain state now answers

def JoinState.step (brain : JoinBrain) (state : JoinState) (event : JoinEvent) : JoinState :=
  (runJoinBrain brain state event).1

end Bootstrap

end PerpDex
