import PerpDex.Dkg.Node
import PerpDex.Lib.Separated
import PerpDex.P2p.Guards
import PerpDex.P2p.SigningPolicy

/-! How a node takes in what other nodes publish on the three guarded topics, and the requests
of its own withdrawals.
Every kind of request on the signing topic shares one rate limit and one replay guard; a
request for the node's own signer that it makes itself meets neither.
-/

namespace PerpDex

namespace Relay

open PerpDex.Membership

/-- Whether an operation on the list of trusted builds or a reproduced build is signed. -/
inductive MrenclaveSignKind where
  | governance
  | repro
deriving DecidableEq

/-- The requests of the signing topic, as far as the dispatch reads them or passes them on. -/
inductive InboundRequest where
  | transaction (request : SigningRequest)
  | pathADelegation (requestId mrenclaveNewHex ceremonyNonceHex : String)
  | membershipEpoch (requestId escrowHex : String) (proposedEpoch : UInt64)
      (prevEpochHashHex : String) (newSigners : List MembershipSignerWire) (newQuorum : UInt32)
      (op : UInt8) (newMemberMrenclaveHex descriptorSigsHex : String)
  | mrenclaveGovernance (requestId : String) (kind : MrenclaveSignKind) (mrenclaveHex : String)
      (op : UInt8) (proposedEpoch : UInt64) (prevAllowlistHashHex : String)
  | unlPolicy (requestId : String) (proposedEpoch : UInt64) (prevUnlHashHex : String)
      (pinnedLedgerSeq : UInt64) (quorumNum quorumDen : UInt32)
  | unlStatus (requestId : String)
  | spvBaseline (requestId proofBlobHex : String) (excludedHex : List String)
  | membershipApply (requestId : String) (payload : Json)
  | spvBaselineApply (requestId proofBlobHex bundleHex : String)
      (fingerprints excludedHex : List String)

def InboundRequest.requestId : InboundRequest → String
  | .transaction request => request.requestId
  | .pathADelegation requestId .. => requestId
  | .membershipEpoch requestId .. => requestId
  | .mrenclaveGovernance requestId .. => requestId
  | .unlPolicy requestId .. => requestId
  | .unlStatus requestId => requestId
  | .spvBaseline requestId .. => requestId
  | .membershipApply requestId _ => requestId
  | .spvBaselineApply requestId .. => requestId

inductive GossipMessage where
  | signing (request : InboundRequest)
  | dkgStep (message : Dkg.DkgStepMessage)
  | shareV2 (message : Dkg.ShareMessage)

inductive Topic where
  | signing
  | dkgStep
  | shareV2
deriving DecidableEq

def Topic.limits : Topic → GuardLimits
  | .signing => signingLimits
  | .dkgStep => dkgStepLimits
  | .shareV2 => shareV2Limits

/-- How many rate windows cover the time to live of a topic. -/
def Topic.windows : Topic → Nat
  | .signing => 10
  | .dkgStep => 30
  | .shareV2 => 30

theorem Topic.lives (topic : Topic) : 0 < topic.limits.replayTtl := by
  cases topic <;> decide

theorem Topic.opens (topic : Topic) : 0 < topic.limits.rateWindow := by
  cases topic <;> decide

theorem Topic.covered (topic : Topic)
    : topic.limits.replayTtl ≤ topic.windows * topic.limits.rateWindow := by
  cases topic <;> decide

def GossipMessage.topic : GossipMessage → Topic
  | .signing _ => .signing
  | .dkgStep _ => .dkgStep
  | .shareV2 _ => .shareV2

/-- What a step of a ceremony does, and for which participant. -/
def stepTag : Dkg.DkgStepMessage → String × Option Nat
  | .round1Start .. => ("R1Start", none)
  | .round1Done _ pid _ => ("R1Done", some pid)
  | .round15Start _ => ("R15Start", none)
  | .round15Done _ pid => ("R15Done", some pid)
  | .round2Start .. => ("R2Start", none)
  | .round2Done _ pid => ("R2Done", some pid)
  | .finalizeStart _ => ("FinStart", none)
  | .finalizeDone _ pid _ => ("FinDone", some pid)
  | .abort _ pid _ => ("Abort", some pid)

def stepCeremony : Dkg.DkgStepMessage → String
  | .round1Start ceremonyId .. => ceremonyId
  | .round1Done ceremonyId .. => ceremonyId
  | .round15Start ceremonyId => ceremonyId
  | .round15Done ceremonyId _ => ceremonyId
  | .round2Start ceremonyId _ => ceremonyId
  | .round2Done ceremonyId _ => ceremonyId
  | .finalizeStart ceremonyId => ceremonyId
  | .finalizeDone ceremonyId .. => ceremonyId
  | .abort ceremonyId .. => ceremonyId

/-- `<ceremony_id>:<type_tag>[:<pid>]`. -/
def stepKey (message : Dkg.DkgStepMessage) : String :=
  match stepTag message with
  | (tag, none) => stepCeremony message ++ ":" ++ tag
  | (tag, some pid) => stepCeremony message ++ ":" ++ tag ++ ":" ++ toString pid

def shareKey (message : Dkg.ShareMessage) : String :=
  message.groupId ++ ":" ++ toString message.signerId ++ ":" ++ message.envelope.ceremonyNonce

/-- What the replay guard of its topic knows a message by. -/
def GossipMessage.key : GossipMessage → String
  | .signing request => request.requestId
  | .dkgStep message => stepKey message
  | .shareV2 message => shareKey message

/-- `NodeCosignerConfig`. -/
structure NodeCosignerConfig where
  escrowR : String
  xrplEndpoint : String

/-- What a node is set up with before it runs. -/
structure NodeConfig where
  localSigner : Option LocalSigner
  escrowXrplAddress : Option String
  allowedSigningPeers : Option (List String)
  cosignerConfig : Option NodeCosignerConfig
  localEcdhPubkey : Option String
  dkgStepInbound : Bool
  shareV2Inbound : Bool

/-- A message, the peer that passed it on, and the two readings of the clock. -/
structure Delivery where
  propagationSource : String
  message : GossipMessage
  checkedAt : Nat
  markedAt : Nat

/-- What is handed to a handler or to the task that waits for it. -/
inductive Job where
  | transaction (signer : LocalSigner) (request : SigningRequest)
  | pathADelegation (requestId : String) (mrenclaveNew ceremonyNonce : Digest)
  | membershipEpoch (requestId : String) (escrow : AccountId) (proposedEpoch : UInt64)
      (prevEpochHash : Digest) (signers : List SignerEntry) (newQuorum : UInt32) (op : UInt8)
      (newMemberMrenclave : Digest) (descriptorSigs : List UInt8)
  | mrenclaveGovernance (requestId : String) (kind : MrenclaveSignKind) (mrenclave : Digest)
      (op : UInt8) (proposedEpoch : UInt64) (prevAllowlistHash : Digest)
  | unlPolicy (requestId : String) (proposedEpoch : UInt64) (prevUnlHash : Digest)
      (pinnedLedgerSeq : UInt64) (quorumNum quorumDen : UInt32)
  | unlStatus (requestId : String)
  | spvBaseline (requestId proofBlobHex : String) (excludedHex : List String)
  | membershipApply (requestId : String) (payload : Json)
  | spvBaselineApply (requestId proofBlobHex bundleHex : String)
      (fingerprints excludedHex : List String)
  | dkgStep (message : Dkg.DkgStepMessage)
  | shareV2 (message : Dkg.ShareMessage)

namespace NodeConfig

variable (config : NodeConfig)

/-- The local signer, if a request is one it should answer. -/
def addressee : InboundRequest → Option LocalSigner
  | .transaction request =>
      config.localSigner.filter (fun signer => signer.xrplAddress = request.signerXrplAddress)
  | .unlPolicy .. => if config.cosignerConfig.isSome then config.localSigner else none
  | _ => config.localSigner

def allowsPeer (peer : String) : Bool :=
  match config.allowedSigningPeers with
  | some allow => allow.contains peer
  | none => true

/-- A delivery as the guards of its topic see it. Keys of nodes are hexadecimal texts, for which
lower case is that of ASCII.
-/
def arrival (delivery : Delivery) : Arrival where
  peer := delivery.propagationSource
  key := delivery.message.key
  invited :=
    match delivery.message with
    | .signing request =>
        (config.addressee request).isSome && config.allowsPeer delivery.propagationSource
    | _ => true
  addressed :=
    match delivery.message with
    | .shareV2 message =>
        match config.localEcdhPubkey with
        | some localPk => decide (Hex.toAsciiLowercase message.recipientPubkey = localPk)
        | none => true
    | _ => true
  checkedAt := delivery.checkedAt
  markedAt := delivery.markedAt

/-- What becomes of a message that got past the guards; one that cannot be decoded is dropped. -/
def job : GossipMessage → Option Job
  | .signing (.transaction request) =>
      (config.addressee (.transaction request)).map (fun signer => .transaction signer request)
  | .signing (.pathADelegation requestId mrenclaveNewHex ceremonyNonceHex) => do
      some (.pathADelegation requestId (← decode32 mrenclaveNewHex) (← decode32 ceremonyNonceHex))
  | .signing (.membershipEpoch requestId escrowHex proposedEpoch prevEpochHashHex newSigners
      newQuorum op newMemberMrenclaveHex descriptorSigsHex) => do
      let escrow ← decode20 escrowHex
      let prevEpochHash ← decode32 prevEpochHashHex
      let signers ← decodeSigners newSigners
      some
        (.membershipEpoch requestId escrow proposedEpoch prevEpochHash signers newQuorum op
          ((decode32 newMemberMrenclaveHex).getD (List.Vector.replicate 32 0))
          ((Hex.decode descriptorSigsHex).getD []))
  | .signing (.mrenclaveGovernance requestId kind mrenclaveHex op proposedEpoch
      prevAllowlistHashHex) => do
      let mrenclave ← decode32 mrenclaveHex
      let prevAllowlistHash ← decode32 prevAllowlistHashHex
      some (.mrenclaveGovernance requestId kind mrenclave op proposedEpoch prevAllowlistHash)
  | .signing (.unlPolicy requestId proposedEpoch prevUnlHashHex pinnedLedgerSeq quorumNum
      quorumDen) => do
      let prev ← decode32 prevUnlHashHex
      some (.unlPolicy requestId proposedEpoch prev pinnedLedgerSeq quorumNum quorumDen)
  | .signing (.unlStatus requestId) => some (.unlStatus requestId)
  | .signing (.spvBaseline requestId proofBlobHex excludedHex) =>
      some (.spvBaseline requestId proofBlobHex excludedHex)
  | .signing (.membershipApply requestId payload) => some (.membershipApply requestId payload)
  | .signing (.spvBaselineApply requestId proofBlobHex bundleHex fingerprints excludedHex) =>
      some (.spvBaselineApply requestId proofBlobHex bundleHex fingerprints excludedHex)
  | .dkgStep message => if config.dkgStepInbound then some (.dkgStep message) else none
  | .shareV2 message => if config.shareV2Inbound then some (.shareV2 message) else none

end NodeConfig

/-- The guards of each topic. -/
structure P2PNode where
  guards : Topic → TopicGuards

def P2PNode.fresh : P2PNode where
  guards := fun topic => .new topic.limits

inductive NodeEvent where
  | deliver (delivery : Delivery)
  | relay (request : SigningRequest)

inductive Output where
  | job (job : Job)
  | publish (request : SigningRequest)

/-- Whether a delivery gets past the guards of its topic, and the node after it. -/
def P2PNode.receive (config : NodeConfig) (node : P2PNode) (delivery : Delivery)
    : Bool × P2PNode :=
  let topic := delivery.message.topic
  let (admitted, guards) := (node.guards topic).takeIn (config.arrival delivery)
  (admitted, { guards := Function.update node.guards topic guards })

/-- One turn of the event loop. -/
def P2PNode.step (config : NodeConfig) (node : P2PNode) : NodeEvent → Option Output × P2PNode
  | .deliver delivery =>
      let (admitted, node) := node.receive config delivery
      (if admitted then (config.job delivery.message).map .job else none, node)
  | .relay request =>
      match config.localSigner with
      | some signer =>
          if signer.xrplAddress = request.signerXrplAddress then
            (some (.job (.transaction signer request)), node)
          else (some (.publish request), node)
      | none => (some (.publish request), node)

/-- A node after some events, with the deliveries that got past its guards and its outputs. -/
structure Trace where
  node : P2PNode
  admitted : List Delivery
  outputs : List Output

def Trace.step (config : NodeConfig) (trace : Trace) (event : NodeEvent) : Trace where
  node := (trace.node.step config event).2
  admitted :=
    match event with
    | .deliver delivery =>
        if (trace.node.receive config delivery).1 then trace.admitted ++ [delivery]
        else trace.admitted
    | .relay _ => trace.admitted
  outputs := trace.outputs ++ (trace.node.step config event).1.toList

def runNode (config : NodeConfig) (events : List NodeEvent) : Trace :=
  events.foldl (Trace.step config) ⟨.fresh, [], []⟩

def NodeEvent.delivery? : NodeEvent → Option Delivery
  | .deliver delivery => some delivery
  | .relay _ => none

/-- The clock never runs backwards over the deliveries of a run. -/
def TimelyRun (config : NodeConfig) (events : List NodeEvent) : Prop :=
  Timely ((events.filterMap NodeEvent.delivery?).map config.arrival)

/-- What the guards of a topic see of a run. -/
def arrivalsOn (config : NodeConfig) (topic : Topic) (events : List NodeEvent) : List Arrival :=
  ((events.filterMap NodeEvent.delivery?).filter
    (fun delivery => delivery.message.topic = topic)).map config.arrival

/-- What the guards of a topic have let through in a run. -/
def history (config : NodeConfig) (topic : Topic) (events : List NodeEvent) : Watched :=
  watch topic.limits (arrivalsOn config topic events)

-----------------------------------------------------------------------------------------
-- A run and the guards of its topics
-----------------------------------------------------------------------------------------

section Runs

variable (config : NodeConfig)

theorem runNode_snoc (events : List NodeEvent) (event : NodeEvent)
    : runNode config (events ++ [event]) = (runNode config events).step config event := by
  simp only [runNode, List.foldl_append, List.foldl_cons, List.foldl_nil]

theorem arrivalsOn_deliver (topic : Topic) (events : List NodeEvent) (delivery : Delivery)
    : arrivalsOn config topic (events ++ [.deliver delivery])
      = arrivalsOn config topic events
        ++ if delivery.message.topic = topic then [config.arrival delivery] else [] := by
  by_cases same : delivery.message.topic = topic <;>
    simp [arrivalsOn, NodeEvent.delivery?, same]

theorem arrivalsOn_relay (topic : Topic) (events : List NodeEvent) (request : SigningRequest)
    : arrivalsOn config topic (events ++ [.relay request]) = arrivalsOn config topic events := by
  simp [arrivalsOn, NodeEvent.delivery?]

/-- A turn of the loop changes the guards of the topic it received something on, if any. -/
theorem step_guards (node : P2PNode) (event : NodeEvent) (topic : Topic)
    : (node.step config event).2.guards topic
      = match event with
        | .deliver delivery =>
            if delivery.message.topic = topic then
              ((node.guards topic).takeIn (config.arrival delivery)).2
            else node.guards topic
        | .relay _ => node.guards topic := by
  cases event with
  | deliver delivery =>
      simp only [P2PNode.step, P2PNode.receive]
      by_cases same : delivery.message.topic = topic
      · rw [if_pos same, ← same, Function.update_self]
      · rw [if_neg same, Function.update_of_ne (Ne.symm same)]
  | relay request =>
      simp only [P2PNode.step]
      cases config.localSigner with
      | none => rfl
      | some signer =>
          dsimp only
          split_ifs <;> rfl

/-- The guards of a topic are those of its history, whatever came in on the other topics. -/
theorem runNode_guards (topic : Topic) (events : List NodeEvent)
    : (runNode config events).node.guards topic = (history config topic events).guards := by
  induction events using List.reverseRecOn with
  | nil => rfl
  | append_singleton events event ih =>
      rw [runNode_snoc]
      show ((runNode config events).node.step config event).2.guards topic = _
      rw [step_guards]
      cases event with
      | relay request =>
          rw [history, arrivalsOn_relay]
          exact ih
      | deliver delivery =>
          simp only [history, arrivalsOn_deliver]
          split_ifs with same
          · rw [watch_snoc, ih]
            rfl
          · rw [List.append_nil]
            exact ih

/-- What got past the guards of a topic is what its history has let through. -/
theorem runNode_admitted (topic : Topic) (events : List NodeEvent)
    : ((runNode config events).admitted.filter
          (fun delivery => delivery.message.topic = topic)).map config.arrival
      = (history config topic events).passed := by
  induction events using List.reverseRecOn with
  | nil => rfl
  | append_singleton events event ih =>
      rw [runNode_snoc]
      cases event with
      | relay request =>
          rw [history, arrivalsOn_relay]
          exact ih
      | deliver delivery =>
          simp only [Trace.step, history, arrivalsOn_deliver]
          by_cases same : delivery.message.topic = topic
          · have answer : ((runNode config events).node.receive config delivery).1
                = ((history config topic events).guards.takeIn (config.arrival delivery)).1 := by
              rw [← runNode_guards, ← same]
              rfl
            rw [if_pos same, watch_snoc, answer]
            show _ = if ((history config topic events).guards.takeIn (config.arrival delivery)).1
              then (history config topic events).passed ++ [config.arrival delivery]
              else (history config topic events).passed
            split_ifs with admitted
            · simp [same, ← ih]
            · exact ih
          · rw [if_neg same, List.append_nil]
            split_ifs with admitted
            · simpa [same, history] using ih
            · exact ih

theorem Timely.sublist {arrivals fewer : List Arrival} (timely : Timely arrivals)
    (sub : fewer.Sublist arrivals)
    : Timely fewer where
  within := fun arrival member => timely.within arrival (sub.subset member)
  between := timely.between.sublist sub

theorem arrivalsOn_sublist (topic : Topic) (events : List NodeEvent)
    : (arrivalsOn config topic events).Sublist
        ((events.filterMap NodeEvent.delivery?).map config.arrival) :=
  List.filter_sublist.map _

variable {config}

theorem TimelyRun.on {events : List NodeEvent} (timely : TimelyRun config events) (topic : Topic)
    : Timely (arrivalsOn config topic events) :=
  Timely.sublist timely (arrivalsOn_sublist config topic events)

theorem TimelyRun.front {front events : List NodeEvent} (timely : TimelyRun config events)
    (isFront : front <+: events)
    : TimelyRun config front :=
  Timely.sublist timely ((isFront.sublist.filterMap _).map _)

/-- A delivery gets past the guards exactly if the history of its topic leaves room for it. -/
theorem receive_iff {front : List NodeEvent} {delivery : Delivery}
    (timely : TimelyRun config (front ++ [.deliver delivery]))
    : ((runNode config front).node.receive config delivery).1 = true
      ↔ Admissible delivery.message.topic.limits
          (history config delivery.message.topic front) (config.arrival delivery) := by
  have onTopic := timely.on delivery.message.topic
  rw [arrivalsOn_deliver, if_pos rfl] at onTopic
  rw [history, ← takeIn_iff delivery.message.topic.lives onTopic, ← history.eq_1, ← runNode_guards]
  rfl

end Runs

-----------------------------------------------------------------------------------------
-- What gets past the guards
-----------------------------------------------------------------------------------------

/-- How many deliveries of a peer on a topic got past the guards in the window that ends with
`last`.
-/
def deliveredIn (topic : Topic) (peer : String) (last : Nat) (admitted : List Delivery) : Nat :=
  (admitted.filter (fun delivery => delivery.message.topic = topic)).countP
    (fun delivery => delivery.propagationSource = peer
      && RateLimiter.inWindow topic.limits.rateWindow last delivery.checkedAt)

theorem deliveredIn_eq (config : NodeConfig) (topic : Topic) (peer : String) (last : Nat)
    (events : List NodeEvent)
    : deliveredIn topic peer last (runNode config events).admitted
      = passedIn topic.limits.rateWindow peer last (history config topic events).passed := by
  rw [← runNode_admitted, passedIn, List.countP_map]
  rfl

/-- The guards over every run of a node, whatever comes in on the three topics and in which
order. A delivery is handed on exactly if it may come in, its peer has room in the last minute,
and no message of its key got past the guards within the time to live. So no minute holds more
than the limit of a peer, messages of one key are a time to live apart, and the replay guard
stores a bounded number of keys for each relaying peer.
-/
theorem dispatch_guards_exact (config : NodeConfig) {events : List NodeEvent}
    (timely : TimelyRun config events)
    : (∀ front delivery, front ++ [.deliver delivery] <+: events → ∀ job,
          ((runNode config front).node.step config (.deliver delivery)).1 = some (.job job)
            ↔ Admissible delivery.message.topic.limits
                  (history config delivery.message.topic front) (config.arrival delivery)
                ∧ config.job delivery.message = some job)
      ∧ (∀ topic peer last,
          deliveredIn topic peer last (runNode config events).admitted
            ≤ topic.limits.rateMaxPerWindow)
      ∧ (∀ topic : Topic,
          ((runNode config events).admitted.filter
              (fun delivery => delivery.message.topic = topic)).Pairwise
            (fun earlier later => earlier.message.key = later.message.key
              → earlier.markedAt + topic.limits.replayTtl ≤ later.markedAt))
      ∧ ∀ (topic : Topic) (peers : List String),
          (∀ delivery ∈ (runNode config events).admitted,
            delivery.message.topic = topic → delivery.propagationSource ∈ peers)
          → ((runNode config events).node.guards topic).recent.seen.entries.length
            ≤ peers.length * topic.windows * topic.limits.rateMaxPerWindow + 1 := by
  refine ⟨?_, ?_, ?_, ?_⟩
  · intro front delivery isFront job
    have admitted := receive_iff (timely.front isFront)
    simp only [P2PNode.step]
    rw [← admitted]
    cases ((runNode config front).node.receive config delivery).1 with
    | false => simp
    | true => simp
  · intro topic peer last
    rw [deliveredIn_eq]
    exact passedIn_le (timely.on topic) peer last
  · intro topic
    have spaced := passed_spaced topic.lives (timely.on topic)
    rw [← history.eq_1, ← runNode_admitted] at spaced
    exact List.pairwise_map.mp spaced
  · intro topic peers known
    rw [runNode_guards]
    refine recent_length_le topic.lives topic.opens (timely.on topic) ?_ topic.covered
    intro arrival member
    rw [← history.eq_1, ← runNode_admitted] at member
    obtain ⟨delivery, isAdmitted, rfl⟩ := List.mem_map.mp member
    obtain ⟨isDelivery, onTopic⟩ := List.mem_filter.mp isAdmitted
    exact known delivery isDelivery (of_decide_eq_true onTopic)

def sampleAccount : AccountId := accountOf 0x33b94b70bbd434f0ad01925669bedf3469832b58

def sampleSigner : LocalSigner where
  compressedPubkey := "02ab"
  xrplAddress := accountIdToRAddress membershipCrypto sampleAccount
  enclaveUrl := "https://localhost:9088/v1"
  address := "0xab"
  sessionKey := "0x01"

def sampleConfig : NodeConfig where
  localSigner := some sampleSigner
  escrowXrplAddress := some "rEscrow"
  allowedSigningPeers := none
  cosignerConfig := none
  localEcdhPubkey := none
  dkgStepInbound := true
  shareV2Inbound := true

/-- The same step of a ceremony, passed on twice by one peer. -/
def repeatedStep : List NodeEvent :=
  [.deliver ⟨"peer", .dkgStep (.abort "ceremony" 1 "late"), 1, 2⟩,
    .deliver ⟨"peer", .dkgStep (.abort "ceremony" 1 "late"), 3, 4⟩]

theorem repeatedStep_timely : TimelyRun sampleConfig repeatedStep where
  within := by decide
  between := by decide

/-- Witness: `dispatch_guards_exact` for two deliveries of one message. -/
theorem dispatch_guards_exact_repeated
    : TimelyRun sampleConfig repeatedStep
      ∧ deliveredIn .dkgStep "peer" 4 (runNode sampleConfig repeatedStep).admitted ≤ 60 :=
  ⟨repeatedStep_timely,
    (dispatch_guards_exact sampleConfig repeatedStep_timely).2.1 .dkgStep "peer" 4⟩

-----------------------------------------------------------------------------------------
-- The steps of a ceremony
-----------------------------------------------------------------------------------------

def stepTags : List String :=
  ["R1Start", "R1Done", "R15Start", "R15Done", "R2Start", "R2Done", "FinStart", "FinDone",
    "Abort"]

theorem stepTag_mem (message : Dkg.DkgStepMessage) : (stepTag message).1 ∈ stepTags := by
  cases message <;> simp [stepTag, stepTags]

/-- The tag of a step holds no separator and is no number. -/
theorem stepTag_shape (message : Dkg.DkgStepMessage)
    : ':' ∉ (stepTag message).1.toList
      ∧ ∃ char ∈ (stepTag message).1.toList, char.isDigit = false := by
  have member := stepTag_mem message
  generalize (stepTag message).1 = tag at member ⊢
  fin_cases member <;> exact ⟨by decide, by simp⟩

theorem colon_notMem_toDigits (number : Nat) : ':' ∉ Nat.toDigits 10 number := by
  intro member
  have digit := Nat.isDigit_of_mem_toDigits (by decide) (by decide) member
  revert digit
  decide

theorem toDigits_injective {left right : Nat}
    (same : Nat.toDigits 10 left = Nat.toDigits 10 right)
    : left = right := by
  have values := congrArg (fun digits => Nat.ofDigitChars 10 digits 0) same
  simpa only [Nat.ofDigitChars_toDigits (by decide : 1 < 10) (by decide : 10 ≤ 10)] using values

/-- A key in characters: the parts with a separator between them. -/
theorem toList_stepKey (message : Dkg.DkgStepMessage)
    : (stepKey message).toList
      = match (stepTag message).2 with
        | none => (stepCeremony message).toList ++ ':' :: (stepTag message).1.toList
        | some pid =>
            ((stepCeremony message).toList ++ ':' :: (stepTag message).1.toList)
              ++ ':' :: Nat.toDigits 10 pid := by
  rw [stepKey]
  obtain ⟨tag, pid⟩ := stepTag message
  cases pid with
  | none => simp
  | some pid => simp [Nat.toList_repr]

/-- A key tells the ceremony of a step, what the step does and for which participant. -/
theorem stepKey_eq_iff {left right : Dkg.DkgStepMessage}
    : stepKey left = stepKey right
      ↔ stepCeremony left = stepCeremony right ∧ stepTag left = stepTag right := by
  constructor
  · intro same
    have chars := congrArg String.toList same
    rw [toList_stepKey, toList_stepKey] at chars
    obtain ⟨leftFree, leftLetter, leftMember, leftNoDigit⟩ := stepTag_shape left
    obtain ⟨rightFree, rightLetter, rightMember, rightNoDigit⟩ := stepTag_shape right
    generalize stepTag left = leftTag at *
    generalize stepTag right = rightTag at *
    obtain ⟨leftTag, leftPid⟩ := leftTag
    obtain ⟨rightTag, rightPid⟩ := rightTag
    have noDigits : ∀ {tag : List Char} {char : Char} {pid : Nat}, char ∈ tag
        → char.isDigit = false → tag ≠ Nat.toDigits 10 pid := by
      rintro tag char pid member notDigit rfl
      rw [Nat.isDigit_of_mem_toDigits (by decide) (by decide) member] at notDigit
      cases notDigit
    match leftPid, rightPid with
    | none, none =>
        obtain ⟨front, back⟩ := Separated.back_unique leftFree rightFree chars
        exact ⟨String.toList_injective front, Prod.ext (String.toList_injective back) rfl⟩
    | none, some pid =>
        obtain ⟨_, back⟩ := Separated.back_unique leftFree (colon_notMem_toDigits pid) chars
        exact absurd back (noDigits leftMember leftNoDigit)
    | some pid, none =>
        obtain ⟨_, back⟩ := Separated.back_unique (colon_notMem_toDigits pid) rightFree chars
        exact absurd back.symm (noDigits rightMember rightNoDigit)
    | some leftPid, some rightPid =>
        obtain ⟨front, back⟩ := Separated.back_unique (colon_notMem_toDigits leftPid)
          (colon_notMem_toDigits rightPid) chars
        obtain ⟨ceremony, tag⟩ := Separated.back_unique leftFree rightFree front
        exact ⟨String.toList_injective ceremony,
          Prod.ext (String.toList_injective tag) (congrArg some (toDigits_injective back))⟩
  · rintro ⟨ceremony, tag⟩
    rw [stepKey, stepKey, ceremony, tag]

/-- The steps of ceremonies over every run. A step is handed on exactly if its peer has room and
half an hour has passed since a step of the same ceremony, of the same kind and for the same
participant was; nothing else is ever taken for a repetition, whoever passed it on.
-/
theorem ceremony_steps_once (config : NodeConfig) (inbound : config.dkgStepInbound = true)
    {events : List NodeEvent} (timely : TimelyRun config events)
    : ∀ front delivery message, front ++ [.deliver delivery] <+: events
        → delivery.message = .dkgStep message
        → (((runNode config front).node.step config (.deliver delivery)).1
              = some (.job (.dkgStep message))
            ↔ RateLimiter.admittedIn (seconds 60) delivery.propagationSource delivery.checkedAt
                  (history config .dkgStep front).counted < 60
              ∧ ∀ earlier ∈ (runNode config front).admitted, ∀ before,
                  earlier.message = .dkgStep before
                  → stepCeremony before = stepCeremony message → stepTag before = stepTag message
                  → earlier.markedAt + seconds 1800 ≤ delivery.markedAt) := by
  intro front delivery message isFront isStep
  have admitted := receive_iff (timely.front isFront)
  have handedOn : ((runNode config front).node.step config (.deliver delivery)).1
      = some (.job (.dkgStep message))
        ↔ ((runNode config front).node.receive config delivery).1 = true := by
    have job : config.job delivery.message = some (.dkgStep message) := by
      rw [isStep, NodeConfig.job, if_pos inbound]
    simp only [P2PNode.step, job]
    cases ((runNode config front).node.receive config delivery).1 <;> simp
  have invited : (config.arrival delivery).invited = true := by
    simp only [NodeConfig.arrival, isStep]
  have addressed : (config.arrival delivery).addressed = true := by
    simp only [NodeConfig.arrival, isStep]
  have key : (config.arrival delivery).key = stepKey message := by
    simp only [NodeConfig.arrival, isStep, GossipMessage.key]
  have topic : delivery.message.topic = .dkgStep := by
    rw [isStep]
    rfl
  rw [handedOn, admitted, Admissible, topic]
  simp only [invited, addressed, true_and]
  refine and_congr Iff.rfl ?_
  rw [← runNode_admitted, key]
  constructor
  · intro apart earlier member before isBefore ceremony tag
    refine apart (config.arrival earlier)
      (List.mem_map_of_mem (List.mem_filter.mpr ⟨member, ?_⟩)) ?_
    · rw [isBefore]
      rfl
    · simp only [NodeConfig.arrival, isBefore, GossipMessage.key]
      exact stepKey_eq_iff.mpr ⟨ceremony, tag⟩
  · intro apart arrival member sameKey
    obtain ⟨earlier, isEarlier, rfl⟩ := List.mem_map.mp member
    obtain ⟨isAdmitted, onTopic⟩ := List.mem_filter.mp isEarlier
    obtain ⟨before, isBefore⟩ : ∃ before, earlier.message = .dkgStep before := by
      have onSteps : earlier.message.topic = .dkgStep := of_decide_eq_true onTopic
      generalize earlier.message = received at onSteps
      cases received with
      | signing request => cases onSteps
      | dkgStep before => exact ⟨before, rfl⟩
      | shareV2 share => cases onSteps
    simp only [NodeConfig.arrival, isBefore, GossipMessage.key] at sameKey
    obtain ⟨ceremony, tag⟩ := stepKey_eq_iff.mp sameKey
    exact apart earlier isAdmitted before isBefore ceremony tag

/-- Witness: `ceremony_steps_once` for the first of two equal steps. -/
theorem ceremony_steps_once_first
    : TimelyRun sampleConfig repeatedStep
      ∧ ((runNode sampleConfig []).node.step sampleConfig
            (.deliver ⟨"peer", .dkgStep (.abort "ceremony" 1 "late"), 1, 2⟩)).1
          = some (.job (.dkgStep (.abort "ceremony" 1 "late"))) := by
  refine ⟨repeatedStep_timely, ?_⟩
  apply (ceremony_steps_once sampleConfig rfl repeatedStep_timely [] _ _ ⟨_, rfl⟩ rfl).mpr
  exact ⟨by decide, fun earlier member => absurd member List.not_mem_nil⟩

-----------------------------------------------------------------------------------------
-- The transactions a node signs
-----------------------------------------------------------------------------------------

section Signing

variable (codec : Codec) (config : NodeConfig)

/-- The call of its enclave that an output of a node leads to. -/
def callOf : Output → Option SignCall
  | .job (.transaction signer request) =>
      (requestedCall codec signer config.escrowXrplAddress request).toOption
  | _ => none

variable {codec config}

end Signing

def sampleCodec : Codec where
  crypto := membershipCrypto
  base58Decode := sampleBase58Decode
  hexError := fun _ => "odd number of digits"
  multiSigningHash := fun _ _ => .ok (List.Vector.replicate 32 0)
  serializeJsonObject := fun _ => .ok [0x12, 0x00, 0x00]

def samplePayment : List (String × Json) :=
  [("Account", .string "rEscrow"), ("Amount", .string "1000000"),
    ("Destination", .string "rUser"), ("SigningPubKey", .string ""),
    ("TransactionType", .string "Payment")]

/-- A payment with its claim, for the local signer. -/
def sampleRequest : SigningRequest where
  requestId := "request"
  unsignedTx := .object samplePayment
  signerAccountIdHex := "33b94b70bbd434f0ad01925669bedf3469832b58"
  signerXrplAddress := sampleSigner.xrplAddress
  quorumBundle := none
  withdrawalUserId := some "user"
  withdrawalAmountFp8 := some "100000000"

theorem sampleSigner_named
    : NamesSigner sampleCodec sampleSigner.xrplAddress sampleRequest.signerAccountIdHex
        sampleAccount := by
  have readBack := threeSigners_readBack ⟨sampleAccount, 1⟩ List.mem_cons_self
  exact ⟨decodeXrplAddress_of_readBack membershipCrypto readBack, by decide +kernel⟩

end Relay

end PerpDex
