import PerpDex.Membership.Acknowledgement
import PerpDex.Membership.Projection

/-! The membership-change endpoint: one request seals the new set across the cluster and then
projects it onto the ledger.
The signers a request starts from are those of the state the process was started with.
-/

namespace PerpDex

namespace Membership

-----------------------------------------------------------------------------------------
-- Requests, responses and what a request publishes
-----------------------------------------------------------------------------------------

/-- What a process serves its requests from. -/
structure MembershipAdminState where
  escrow : AccountId
  escrowRAddress : String
  clusterSize : Nat
  /-- Address and account id in hexadecimal. -/
  currentSigners : List (String × String)
  currentQuorum : UInt32
deriving DecidableEq

structure MembershipChangeRequest where
  newSigners : List String
  quorum : UInt32
  op : UInt8
  newMemberMrenclaveHex : String
  descriptorSigsHex : String
deriving DecidableEq

structure FailedNode where
  node : String
  error : Option String
deriving DecidableEq

structure MembershipChangeResponse where
  status : String
  proposedEpoch : UInt64
  messageHashHex : String
  sealedNodes : Nat
  projectionTxHashHex : Option String
  projectionLedgerIndex : Option UInt64
  confirmedNodes : Nat
  failedNodes : List FailedNode
  message : String
deriving DecidableEq

/-- The `Seal` payload with the outgoing set that it carries along. -/
structure SealBroadcast extends SealPayload where
  attestingSigners : List MembershipSignerWire
  attestingQuorum : UInt32
deriving DecidableEq

/-- `LibP2PProjectionSubmitter`: whom the signatures of a projection are collected from. -/
structure ProjectionSubmitter where
  currentSigners : List (String × String)
  quorum : UInt32
deriving DecidableEq

/-- A transaction and the signatures it is submitted with. -/
structure MultisignedTx where
  unsigned : Json
  signers : List (String × String × String)

structure ProjectionConfirmedTx where
  signedTxBlob : List UInt8
  txHash : Digest
  ledgerIndex : UInt64
deriving DecidableEq

/-- What a request has made the process do, in order. -/
inductive AdminEffect where
  | sealBroadcast (payload : SealBroadcast)
  | collectFrom (submitter : ProjectionSubmitter)
  | confirmBroadcast (escrowHex signedXrplTxBlobHex txHashHex : String) (ledgerIndex : UInt64)
deriving DecidableEq

/-- How the relay answers a question to a signer; `dropped` also stands for a timeout. -/
inductive RelayAnswer where
  | closed
  | dropped
  | message (response : SigningMessage)
deriving DecidableEq

/-- What a request meets while it is served. -/
structure Surroundings where
  epochDigest : Except String (UInt64 × Digest)
  consents : List SigningMessage
  sealAcks : List SigningMessage
  accountSequence : Except String UInt32
  /-- The answers in the order of the questions. -/
  relay : Nat → RelayAnswer
  submitted : MultisignedTx → Except String ProjectionConfirmedTx
  confirmAcks : List SigningMessage

abbrev Serving := ExceptT String (StateM (List AdminEffect))

def publish (effect : AdminEffect) : Serving Unit := modify (fun effects => effects ++ [effect])

-----------------------------------------------------------------------------------------
-- Serving one request
-----------------------------------------------------------------------------------------

section Serve

variable (crypto : Crypto) (base58Decode : String → Option (List UInt8))

/-- `trim_start_matches("0x")`. -/
def trimStart0x : List Char → List Char
  | '0' :: 'x' :: rest => trimStart0x rest
  | text => text

/-- The account ids of addresses; `complaint` is what is said of one that does not decode. -/
def decodeAddresses (complaint : String → String) : List String → Except String (List AccountId)
  | [] => .ok []
  | addr :: rest => do
      let accountId ← (decodeXrplAddress crypto base58Decode addr).mapError
        (fun cause => s!"{complaint addr}: {cause}")
      let accountIds ← decodeAddresses complaint rest
      .ok (accountId :: accountIds)

/-- The new set in sealed form; every weight is one. -/
def decodeNewSigners (newSigners : List String) : Except String (List SignerEntry) := do
  let accountIds ← decodeAddresses crypto base58Decode
    (fun addr => s!"invalid r-address {addr}") newSigners
  .ok (accountIds.map (fun accountId => ⟨accountId, 1⟩))

/-- A measurement that does not decode to 32 bytes is all zero. -/
def decodeMrenclave (text : String) : Digest :=
  (decodeBytes 32 (String.ofList (trimStart0x text.toList))).getD (List.Vector.replicate 32 0)

def decodeDescriptorSigs (text : String) : List UInt8 :=
  (Hex.decode (String.ofList (trimStart0x text.toList))).getD []

/-- `apply_seal`: the payload is published with the attesting set of the applier. -/
def applySealFrom (state : MembershipAdminState) (surroundings : Surroundings)
    (statement : MembershipEpochStatement) (bundle : List UInt8)
    : Serving (List NodeSealResult) := do
  publish
    (.sealBroadcast
      { toSealPayload := sealPayload statement bundle
        attestingSigners := state.currentSigners.map (fun signer => ⟨signer.2, 1⟩)
        attestingQuorum := state.currentQuorum })
  pure (sealResults (expectedNodes state.clusterSize) surroundings.sealAcks)

/-- `collect_and_assemble`: the signers are asked one after the other until enough have
signed.
-/
def collectSignatures (relay : Nat → RelayAnswer) (quorum : Nat)
    (collected : List (String × String × String)) (asked : Nat)
    : List (String × String) → Except String (List (String × String × String))
  | [] => .ok collected
  | signer :: rest =>
      if quorum ≤ collected.length then .ok collected
      else
        match relay asked with
        | .closed => .error "signing relay channel closed — orchestrator shutting down?"
        | .message (.response _ (some der) (some pk) none) =>
            collectSignatures relay quorum (collected ++ [(signer.1, pk, der)]) (asked + 1) rest
        | _ => collectSignatures relay quorum collected (asked + 1) rest

/-- The place of a signer in the canonical order; an address that does not decode is last. -/
def signerRank (addr : String) : List UInt8 :=
  match decodeXrplAddress crypto base58Decode addr with
  | .ok accountId => accountId.toList
  | .error _ => List.replicate 20 255

def collectAndAssemble (submitter : ProjectionSubmitter) (relay : Nat → RelayAnswer)
    (unsigned : Json) : Except String MultisignedTx := do
  let collected ← collectSignatures relay submitter.quorum.toNat [] 0 submitter.currentSigners
  if collected.length < submitter.quorum.toNat then
    .error
      s!"collected {collected.length} of {submitter.quorum.toNat} projection signatures"
  else
    .ok
      { unsigned
        signers := collected.insertionSort
          (fun left right =>
            signerRank crypto base58Decode left.1 ≤ signerRank crypto base58Decode right.1) }

/-- `sign_submit_confirm`. -/
def signSubmitConfirm (submitter : ProjectionSubmitter) (surroundings : Surroundings)
    (unsigned : Json) : Serving ProjectionConfirmedTx := do
  publish (.collectFrom submitter)
  let full ← collectAndAssemble crypto base58Decode submitter surroundings.relay unsigned
  surroundings.submitted full

/-- `run_projection` of a set that was just sealed. -/
def runProjection (state : MembershipAdminState) (surroundings : Surroundings)
    (sequence : UInt32) (signers : List SignerEntry) (quorum : UInt32)
    : Serving ProjectionOutcome := do
  let unsigned := renderSignerlistSet crypto state.escrow sequence 12000 signers quorum
  let tx ← context "sign + submit + confirm the SignerListSet projection"
    (signSubmitConfirm crypto base58Decode
      { currentSigners := state.currentSigners, quorum := state.currentQuorum } surroundings
      unsigned)
  publish
    (.confirmBroadcast (Hex.encode state.escrow.toList) (Hex.encode tx.signedTxBlob)
      (Hex.encode tx.txHash.toList) tx.ledgerIndex)
  pure
    { txHash := tx.txHash
      ledgerIndex := tx.ledgerIndex
      nodeResults := confirmResults (expectedNodes state.clusterSize) surroundings.confirmAcks }

def partialSealResponse (change : MembershipChangeOutcome) : MembershipChangeResponse where
  status := "partial_seal"
  proposedEpoch := change.proposedEpoch
  messageHashHex := Hex.encode change.messageHash.toList
  sealedNodes := (change.nodeResults.filter NodeSealResult.ok).length
  projectionTxHashHex := none
  projectionLedgerIndex := none
  confirmedNodes := 0
  failedNodes :=
    (change.nodeResults.filter (fun result => !result.ok)).map
      (fun result => ⟨result.node, result.error⟩)
  message := "epoch sealed on a subset of nodes; projection NOT attempted — "
    ++ "retry the failed nodes (idempotent) before projecting"

def projectedResponse (change : MembershipChangeOutcome) (proj : ProjectionOutcome)
    : MembershipChangeResponse where
  status := if proj.allRecorded then "ok" else "projection_partial_record"
  proposedEpoch := change.proposedEpoch
  messageHashHex := Hex.encode change.messageHash.toList
  sealedNodes := (change.nodeResults.filter NodeSealResult.ok).length
  projectionTxHashHex := some (Hex.encode proj.txHash.toList)
  projectionLedgerIndex := some proj.ledgerIndex
  confirmedNodes := (proj.nodeResults.filter NodeConfirmResult.ok).length
  failedNodes :=
    (proj.nodeResults.filter (fun result => !result.ok)).map
      (fun result => ⟨result.node, result.error⟩)
  message :=
    if proj.allRecorded then "membership changed + projected + confirmed on all nodes"
    else "projection landed but confirmation not recorded on all nodes — "
      ++ "retry the failed nodes (ERR_ALREADY_CONFIRMED is idempotent)"

/-- `drive_change`. -/
def driveChange (state : MembershipAdminState) (req : MembershipChangeRequest)
    (surroundings : Surroundings) : Serving MembershipChangeResponse :=
  if state.clusterSize = 0 then
    throw "cluster_size is zero — no nodes to apply the membership change to"
  else do
    let newSigners ← decodeNewSigners crypto base58Decode req.newSigners
    if req.op ≠ 1 ∧ req.op ≠ 2 ∧ req.op ≠ 3 then
      throw s!"membership-change: unknown op {req.op} (expected 1=ADD, 2=REMOVE, 3=SET)"
    else
      let change ← context "β1 membership change (collect consent + seal across the cluster)"
        (runMembershipChange crypto
          { escrow := state.escrow
            newSigners
            newQuorum := req.quorum
            op := req.op
            newMemberMrenclave := decodeMrenclave req.newMemberMrenclaveHex
            descriptorSigs := decodeDescriptorSigs req.descriptorSigsHex }
          surroundings.epochDigest (fun _ => collect surroundings.consents)
          (applySealFrom state surroundings))
      if change.allSealed = false then pure (partialSealResponse change)
      else
        let sequence ← context "fetch escrow sequence for the projection"
          surroundings.accountSequence
        let proj ← context "β2 projection (render + submit + confirm across the cluster)"
          (runProjection crypto base58Decode state surroundings sequence newSigners req.quorum)
        pure (projectedResponse change proj)

/-- Of the requests of one process, each with what it meets: the answer and the effects of
each. The state is shared and never written.
-/
def serve (state : MembershipAdminState)
    (requests : List (MembershipChangeRequest × Surroundings))
    : List (Except String MembershipChangeResponse × List AdminEffect) :=
  requests.map
    (fun request => (driveChange crypto base58Decode state request.1 request.2).run.run [])

/-- The signer set of the configuration, as a process is started with it. -/
def configuredSigners (signers : List String) : Except String (List (String × String)) := do
  let accountIds ← decodeAddresses crypto base58Decode
    (fun addr => s!"signers_config signer {addr} invalid r-address") signers
  .ok (signers.zip (accountIds.map (fun accountId => Hex.encode accountId.toList)))

structure SignersConfig where
  signers : List String
  quorum : Nat
deriving DecidableEq

/-- The state of the endpoint at start-up. -/
def startAdmin (config : SignersConfig) (escrowAddress : String) (clusterSize : Nat)
    : Except String MembershipAdminState := do
  let escrow ← (decodeXrplAddress crypto base58Decode escrowAddress).mapError
    (fun cause => s!"--membership-admin-listen: escrow address must decode: {cause}")
  let currentSigners ← configuredSigners crypto base58Decode config.signers
  .ok
    { escrow
      escrowRAddress := escrowAddress
      clusterSize
      currentSigners
      currentQuorum := UInt32.ofNat config.quorum }

end Serve

-----------------------------------------------------------------------------------------
-- What a request starts from
-----------------------------------------------------------------------------------------

/-- A signer set, by account ids in hexadecimal, and its quorum. -/
structure Authority where
  accounts : Finset String
  quorum : UInt32
deriving DecidableEq

/-- The set that addresses stand for. -/
def authorityOf (crypto : Crypto) (base58Decode : String → Option (List UInt8))
    (addresses : List String) (quorum : UInt32) : Authority where
  accounts :=
    (addresses.filterMap
      (fun addr =>
        (decodeXrplAddress crypto base58Decode addr).toOption.map
          (fun accountId => Hex.encode accountId.toList))).toFinset
  quorum

def MembershipAdminState.authority (state : MembershipAdminState) : Authority where
  accounts := (state.currentSigners.map Prod.snd).toFinset
  quorum := state.currentQuorum

def ProjectionSubmitter.authority (submitter : ProjectionSubmitter) : Authority where
  accounts := (submitter.currentSigners.map Prod.snd).toFinset
  quorum := submitter.quorum

/-- The outgoing set a payload carries. -/
def SealBroadcast.attesting (payload : SealBroadcast) : Authority where
  accounts := (payload.attestingSigners.map MembershipSignerWire.accountIdHex).toFinset
  quorum := payload.attestingQuorum

/-- The set a payload seals. -/
def SealBroadcast.proposed (payload : SealBroadcast) : Authority where
  accounts := (payload.newSigners.map MembershipSignerWire.accountIdHex).toFinset
  quorum := payload.newQuorum

/-- The payload a request has broadcast. -/
def sealedBy (effects : List AdminEffect) : Option SealBroadcast :=
  effects.findSome?
    (fun effect =>
      match effect with
      | .sealBroadcast payload => some payload
      | _ => none)

/-- Whom a request has collected signatures from. -/
def collectedFrom (effects : List AdminEffect) : Option ProjectionSubmitter :=
  effects.findSome?
    (fun effect =>
      match effect with
      | .collectFrom submitter => some submitter
      | _ => none)

/-- Every request attests with, and collects from, the set that the one before it sealed. -/
def Chained : Authority → List (List AdminEffect) → Prop
  | _, [] => True
  | current, effects :: rest =>
      ∃ payload submitter, sealedBy effects = some payload
        ∧ collectedFrom effects = some submitter
        ∧ payload.attesting = current ∧ submitter.authority = current
        ∧ Chained payload.proposed rest

/-- The request ends with status `ok`. -/
def EndsOk (answer : Except String MembershipChangeResponse × List AdminEffect) : Prop :=
  answer.1.toOption.map MembershipChangeResponse.status = some "ok"

instance (answer : Except String MembershipChangeResponse × List AdminEffect)
    : Decidable (EndsOk answer) :=
  inferInstanceAs (Decidable (_ = _))

-----------------------------------------------------------------------------------------
-- A request that succeeds
-----------------------------------------------------------------------------------------

/-- A sequence of actions succeeds exactly if each of them does. -/
theorem bind_ran_ok {σ α β : Type} {action : ExceptT String (StateM σ) α}
    {next : α → ExceptT String (StateM σ) β} {before after : σ} {value : β}
    : (action >>= next).run.run before = (.ok value, after)
      ↔ ∃ result middle, action.run.run before = (.ok result, middle)
        ∧ (next result).run.run middle = (.ok value, after) := by
  have unfolded
      : (action >>= next).run.run before
        = ExceptT.bindCont next (action before).1 (action before).2 :=
    rfl
  have ran : action.run.run before = action before := rfl
  rw [unfolded, ran]
  cases outcome : action before with
  | mk result middle =>
      cases result with
      | error reason =>
          constructor
          · intro failed
            cases failed
          · rintro ⟨_, _, same, -⟩
            cases same
      | ok result =>
          constructor
          · intro done
            exact ⟨result, middle, rfl, done⟩
          · rintro ⟨_, _, same, done⟩
            cases same
            exact done

theorem context_ran_ok {σ α : Type} {doing : String} {action : ExceptT String (StateM σ) α}
    {before after : σ} {value : α}
    : (context doing action).run.run before = (.ok value, after)
      ↔ action.run.run before = (.ok value, after) := by
  have unfolded
      : (context doing action).run.run before
        = ((action before).1.mapError (fun cause => s!"{doing}: {cause}"), (action before).2) :=
    rfl
  have ran : action.run.run before = action before := rfl
  rw [unfolded, ran]
  cases outcome : action before with
  | mk result middle =>
      cases result with
      | error reason => constructor <;> intro failed <;> cases failed
      | ok result => exact Iff.rfl

/-- Publishing adds to what was published. -/
theorem publish_ran {effect : AdminEffect} {before after : List AdminEffect} {done : Unit}
    (ran : (publish effect).run.run before = (.ok done, after))
    : after = before ++ [effect] :=
  (congrArg Prod.snd ran).symm

/-- What the payload of a state carries along for a statement. -/
def broadcastOf (state : MembershipAdminState) (statement : MembershipEpochStatement)
    (bundle : List UInt8) : SealBroadcast where
  toSealPayload := sealPayload statement bundle
  attestingSigners := state.currentSigners.map (fun signer => ⟨signer.2, 1⟩)
  attestingQuorum := state.currentQuorum

/-- A change that is carried through has published one payload, for the set asked for. -/
theorem runMembershipChange_ran_ok {crypto : Crypto} {request : ChangeRequest}
    {state : MembershipAdminState} {surroundings : Surroundings}
    {before after : List AdminEffect} {change : MembershipChangeOutcome}
    (ran
      : (runMembershipChange crypto request (liftM surroundings.epochDigest)
            (fun _ => liftM (collect surroundings.consents))
            (applySealFrom state surroundings)).run.run before
        = (.ok change, after))
    : ∃ statement bundle, after = before ++ [.sealBroadcast (broadcastOf state statement bundle)]
      ∧ statement.newSigners = request.newSigners
      ∧ statement.newQuorum = request.newQuorum := by
  obtain ⟨epoch, middle, digested, ran⟩ := bind_ran_ok.mp ran
  obtain rfl : before = middle := congrArg Prod.snd (context_ran_ok.mp digested)
  cases prepared : prepareStatement crypto request.escrow epoch.1 epoch.2 request.newSigners
      request.newQuorum request.op request.newMemberMrenclave request.descriptorSigs with
  | error reason =>
      simp only [prepared] at ran
      cases ran
  | ok statement =>
      simp only [prepared] at ran
      obtain ⟨bundle, second, collected, ran⟩ := bind_ran_ok.mp ran
      obtain rfl : before = second := congrArg Prod.snd (context_ran_ok.mp collected)
      obtain ⟨results, last, applied, ran⟩ := bind_ran_ok.mp ran
      have published := congrArg Prod.snd (context_ran_ok.mp applied)
      have final : last = after := congrArg Prod.snd ran
      obtain ⟨-, rfl⟩ := prepareStatement_ok_iff.mp prepared
      exact ⟨_, bundle, final ▸ published.symm, rfl, rfl⟩

/-- A projection that is carried through was collected from the signers of the state. -/
theorem runProjection_ran_ok {crypto : Crypto} {base58Decode : String → Option (List UInt8)}
    {state : MembershipAdminState} {surroundings : Surroundings} {sequence : UInt32}
    {signers : List SignerEntry} {quorum : UInt32} {before after : List AdminEffect}
    {proj : ProjectionOutcome}
    (ran
      : (runProjection crypto base58Decode state surroundings sequence signers quorum).run.run
            before
        = (.ok proj, after))
    : ∃ confirmation,
        after
          = before
            ++ [.collectFrom
                { currentSigners := state.currentSigners, quorum := state.currentQuorum },
              confirmation] := by
  obtain ⟨tx, middle, signed, ran⟩ := bind_ran_ok.mp ran
  obtain ⟨_, second, asked, signed⟩ := bind_ran_ok.mp (context_ran_ok.mp signed)
  obtain ⟨full, third, assembled, signed⟩ := bind_ran_ok.mp signed
  have noneLeft : second = middle :=
    (congrArg Prod.snd assembled).trans (congrArg Prod.snd signed)
  obtain ⟨_, last, confirmed, ran⟩ := bind_ran_ok.mp ran
  have final : last = after := congrArg Prod.snd ran
  refine ⟨.confirmBroadcast (Hex.encode state.escrow.toList) (Hex.encode tx.signedTxBlob)
    (Hex.encode tx.txHash.toList) tx.ledgerIndex, ?_⟩
  rw [← final, publish_ran confirmed, ← noneLeft, publish_ran asked]
  exact List.append_assoc before _ _

theorem EndsOk.response {answer : Except String MembershipChangeResponse × List AdminEffect}
    (ok : EndsOk answer)
    : ∃ response, answer.1 = .ok response ∧ response.status = "ok" := by
  obtain ⟨response, succeeded, status⟩ := Option.map_eq_some_iff.mp ok
  refine ⟨response, ?_, status⟩
  cases outcome : answer.1 with
  | error reason =>
      rw [outcome] at succeeded
      cases succeeded
  | ok value =>
      rw [outcome] at succeeded
      rw [Option.some_inj.mp succeeded]

/-- What a request that ends with status `ok` has published. -/
theorem driveChange_ran_ok {crypto : Crypto} {base58Decode : String → Option (List UInt8)}
    {state : MembershipAdminState} {req : MembershipChangeRequest}
    {surroundings : Surroundings}
    (ok : EndsOk ((driveChange crypto base58Decode state req surroundings).run.run []))
    : ∃ signers statement bundle confirmation,
        decodeNewSigners crypto base58Decode req.newSigners = .ok signers
        ∧ statement.newSigners = signers ∧ statement.newQuorum = req.quorum
        ∧ ((driveChange crypto base58Decode state req surroundings).run.run []).2
          = [.sealBroadcast (broadcastOf state statement bundle),
            .collectFrom { currentSigners := state.currentSigners, quorum := state.currentQuorum },
            confirmation] := by
  obtain ⟨response, succeeded, status⟩ := ok.response
  generalize effects
    : ((driveChange crypto base58Decode state req surroundings).run.run []).2 = after
  have ran : (driveChange crypto base58Decode state req surroundings).run.run []
      = (.ok response, after) :=
    Prod.ext succeeded effects
  rw [driveChange] at ran
  by_cases empty : state.clusterSize = 0
  · rw [if_pos empty] at ran
    cases ran
  rw [if_neg empty] at ran
  obtain ⟨signers, first, decoded, ran⟩ := bind_ran_ok.mp ran
  obtain rfl : [] = first := congrArg Prod.snd decoded
  by_cases unknown : req.op ≠ 1 ∧ req.op ≠ 2 ∧ req.op ≠ 3
  · rw [if_pos unknown] at ran
    cases ran
  rw [if_neg unknown] at ran
  obtain ⟨change, second, changed, ran⟩ := bind_ran_ok.mp ran
  obtain ⟨statement, bundle, rfl, newSigners, newQuorum⟩ :=
    runMembershipChange_ran_ok (context_ran_ok.mp changed)
  by_cases short : change.allSealed = false
  · rw [if_pos short] at ran
    obtain rfl : partialSealResponse change = response := Except.ok.inj (congrArg Prod.fst ran)
    exact absurd status (by simp [partialSealResponse])
  rw [if_neg short] at ran
  obtain ⟨sequence, third, fetched, ran⟩ := bind_ran_ok.mp ran
  obtain rfl := congrArg Prod.snd (context_ran_ok.mp fetched)
  obtain ⟨proj, last, projected, ran⟩ := bind_ran_ok.mp ran
  obtain ⟨confirmation, collected⟩ := runProjection_ran_ok (context_ran_ok.mp projected)
  have final : last = after := congrArg Prod.snd ran
  exact ⟨signers, statement, bundle, confirmation, congrArg Prod.fst decoded, newSigners,
    newQuorum, final ▸ collected⟩

-----------------------------------------------------------------------------------------
-- A run of requests
-----------------------------------------------------------------------------------------

section Chain

variable {crypto : Crypto} {base58Decode : String → Option (List UInt8)}

/-- Addresses that all decode stand for their account ids. -/
theorem decodeAddresses_accounts {complaint : String → String} {addresses : List String}
    {accountIds : List AccountId}
    (decoded : decodeAddresses crypto base58Decode complaint addresses = .ok accountIds)
    : accountIds.length = addresses.length
      ∧ accountIds.map (fun accountId => Hex.encode accountId.toList)
        = addresses.filterMap
          (fun addr =>
            (decodeXrplAddress crypto base58Decode addr).toOption.map
              (fun accountId => Hex.encode accountId.toList)) := by
  induction addresses generalizing accountIds with
  | nil =>
      obtain rfl := Except.ok.inj decoded
      exact ⟨rfl, rfl⟩
  | cons addr rest ih =>
      rw [decodeAddresses] at decoded
      obtain ⟨accountId, first, decoded⟩ := Except.bind_eq_ok_iff.mp decoded
      obtain ⟨others, later, decoded⟩ := Except.bind_eq_ok_iff.mp decoded
      obtain rfl := Except.ok.inj decoded
      obtain ⟨sameLength, sameAccounts⟩ := ih later
      cases read : decodeXrplAddress crypto base58Decode addr with
      | error reason =>
          rw [read] at first
          cases first
      | ok found =>
          rw [read] at first
          obtain rfl : found = accountId := Except.ok.inj first
          refine ⟨congrArg (fun length => length + 1) sameLength, ?_⟩
          rw [List.map_cons, sameAccounts, List.filterMap_cons, read]
          rfl

/-- The accounts a request asks for. -/
theorem decodeNewSigners_accounts {addresses : List String} {signers : List SignerEntry}
    (decoded : decodeNewSigners crypto base58Decode addresses = .ok signers)
    : signers.map (fun signer => Hex.encode signer.accountId.toList)
      = addresses.filterMap
        (fun addr =>
          (decodeXrplAddress crypto base58Decode addr).toOption.map
            (fun accountId => Hex.encode accountId.toList)) := by
  obtain ⟨accountIds, read, decoded⟩ := Except.bind_eq_ok_iff.mp decoded
  obtain rfl := Except.ok.inj decoded
  rw [List.map_map]
  exact (decodeAddresses_accounts read).2

theorem startAdmin_authority {config : SignersConfig} {escrowAddress : String}
    {clusterSize : Nat} {state : MembershipAdminState}
    (started
      : startAdmin crypto base58Decode config escrowAddress clusterSize = .ok state)
    : state.authority
      = authorityOf crypto base58Decode config.signers (UInt32.ofNat config.quorum) := by
  obtain ⟨escrow, -, started⟩ := Except.bind_eq_ok_iff.mp started
  obtain ⟨signers, configured, started⟩ := Except.bind_eq_ok_iff.mp started
  obtain rfl := Except.ok.inj started
  obtain ⟨accountIds, read, configured⟩ := Except.bind_eq_ok_iff.mp configured
  obtain rfl := Except.ok.inj configured
  obtain ⟨sameLength, sameAccounts⟩ := decodeAddresses_accounts read
  have seconds : (config.signers.zip
        (accountIds.map (fun accountId => Hex.encode accountId.toList))).map Prod.snd
      = accountIds.map (fun accountId => Hex.encode accountId.toList) := by
    apply List.map_snd_zip
    rw [List.length_map]
    exact sameLength.le
  exact congrArg
    (fun accounts : List String => Authority.mk accounts.toFinset (UInt32.ofNat config.quorum))
    (seconds.trans sameAccounts)

/-- A request that ends with status `ok` starts from the set of the state, whatever was
sealed before, and hands on the set it asks for.
-/
theorem chained_cons_iff {state : MembershipAdminState} {req : MembershipChangeRequest}
    {surroundings : Surroundings}
    (ok : EndsOk ((driveChange crypto base58Decode state req surroundings).run.run []))
    (current : Authority) (rest : List (List AdminEffect))
    : Chained current
        (((driveChange crypto base58Decode state req surroundings).run.run []).2 :: rest)
      ↔ current = state.authority
        ∧ Chained (authorityOf crypto base58Decode req.newSigners req.quorum) rest := by
  obtain ⟨signers, statement, bundle, confirmation, decoded, newSigners, newQuorum, effects⟩ :=
    driveChange_ran_ok ok
  have attesting : (broadcastOf state statement bundle).attesting = state.authority := by
    simp [SealBroadcast.attesting, broadcastOf, MembershipAdminState.authority,
      Function.comp_def]
  have collecting : ProjectionSubmitter.authority
      { currentSigners := state.currentSigners, quorum := state.currentQuorum }
      = state.authority := rfl
  have proposed : (broadcastOf state statement bundle).proposed
      = authorityOf crypto base58Decode req.newSigners req.quorum := by
    simp only [SealBroadcast.proposed, broadcastOf, sealPayload, authorityOf, List.map_map,
      Function.comp_def, newSigners, newQuorum, ← decodeNewSigners_accounts decoded]
  rw [effects]
  constructor
  · rintro ⟨payload, submitter, isSealed, isCollected, attests, -, chained⟩
    obtain rfl : broadcastOf state statement bundle = payload := Option.some_inj.mp isSealed
    exact ⟨attests.symm.trans attesting, proposed ▸ chained⟩
  · rintro ⟨rfl, chained⟩
    exact ⟨_, _, rfl, rfl, attesting, collecting, proposed ▸ chained⟩

/-- Over a run that starts anywhere, the set of the state is what every request starts from. -/
theorem chained_serve_iff {state : MembershipAdminState}
    {requests : List (MembershipChangeRequest × Surroundings)}
    (allOk : ∀ answer ∈ serve crypto base58Decode state requests, EndsOk answer)
    (current : Authority)
    : Chained current ((serve crypto base58Decode state requests).map Prod.snd)
      ↔ (requests ≠ [] → current = state.authority)
        ∧ ∀ request ∈ requests.dropLast,
          authorityOf crypto base58Decode request.1.newSigners request.1.quorum
            = state.authority := by
  induction requests generalizing current with
  | nil => simp [serve, Chained]
  | cons request rest ih =>
      have first := allOk _ List.mem_cons_self
      have later : ∀ answer ∈ serve crypto base58Decode state rest, EndsOk answer :=
        fun answer member => allOk answer (List.mem_cons_of_mem _ member)
      have step := chained_cons_iff first current
        ((serve crypto base58Decode state rest).map Prod.snd)
      refine step.trans ?_
      rw [ih later]
      cases rest with
      | nil => simp
      | cons next others => simp [List.dropLast]

end Chain

/-- Consecutive changes chain on the current set exactly if every request but the last one
asks for the configured set and quorum.
-/
theorem changes_chain_iff (crypto : Crypto) (base58Decode : String → Option (List UInt8))
    (config : SignersConfig) (escrowAddress : String) (clusterSize : Nat)
    (state : MembershipAdminState)
    (started : startAdmin crypto base58Decode config escrowAddress clusterSize = .ok state)
    (requests : List (MembershipChangeRequest × Surroundings))
    (allOk : ∀ answer ∈ serve crypto base58Decode state requests, EndsOk answer)
    : Chained (authorityOf crypto base58Decode config.signers (UInt32.ofNat config.quorum))
        ((serve crypto base58Decode state requests).map Prod.snd)
      ↔ ∀ request ∈ requests.dropLast,
          authorityOf crypto base58Decode request.1.newSigners request.1.quorum
            = authorityOf crypto base58Decode config.signers (UInt32.ofNat config.quorum) := by
  rw [chained_serve_iff allOk, startAdmin_authority started]
  simp

/-- What a request meets when everything goes well. -/
def wellServed : Surroundings where
  epochDigest := .ok (1, List.Vector.replicate 32 0)
  consents :=
    [.response makerAddress (some (Hex.encode (List.replicate 8 48)))
      (some (Hex.encode (List.replicate 33 2))) none]
  sealAcks := [successAs makerAddress, successAs takerAddress]
  accountSequence := .ok 7
  relay := fun _ => .message (.response "" (some "30") (some "02") none)
  submitted := fun _ =>
    .ok { signedTxBlob := [], txHash := List.Vector.replicate 32 0, ledgerIndex := 9 }
  confirmAcks := [successAs makerAddress, successAs takerAddress]

/-- Two signers who both have to sign. -/
def pairConfig : SignersConfig := ⟨[makerAddress, takerAddress], 2⟩

def pairState : MembershipAdminState where
  escrow := accountOf 0
  escrowRAddress := "rrrrrrrrrrrrrrrrrrrrrhoLvTp"
  clusterSize := 2
  currentSigners :=
    [(makerAddress, "33b94b70bbd434f0ad01925669bedf3469832b58"),
      (takerAddress, "7c8aa0f9f7cf2cf41457213f8089e95b8f96d2d0")]
  currentQuorum := 2

/-- A third signer is added to the two; two signatures stay enough. -/
def addThird : MembershipChangeRequest where
  newSigners := [makerAddress, takerAddress, "rrrrrrrrrrrrrrrrrrrrBZbvji"]
  quorum := 2
  op := 1
  newMemberMrenclaveHex := ""
  descriptorSigsHex := ""

theorem pairState_started
    : startAdmin membershipCrypto sampleBase58Decode pairConfig "rrrrrrrrrrrrrrrrrrrrrhoLvTp" 2
      = .ok pairState := by
  rfl

theorem addThird_endsOk
    : EndsOk ((driveChange membershipCrypto sampleBase58Decode pairState addThird
        wellServed).run.run []) := by
  decide +kernel

/-- Three signers of whom two have to sign. -/
def trioConfig : SignersConfig :=
  ⟨[makerAddress, takerAddress, "rrrrrrrrrrrrrrrrrrrrBZbvji"], 2⟩

def trioState : MembershipAdminState where
  escrow := accountOf 0
  escrowRAddress := "rrrrrrrrrrrrrrrrrrrrrhoLvTp"
  clusterSize := 3
  currentSigners :=
    [(makerAddress, "33b94b70bbd434f0ad01925669bedf3469832b58"),
      (takerAddress, "7c8aa0f9f7cf2cf41457213f8089e95b8f96d2d0"),
      ("rrrrrrrrrrrrrrrrrrrrBZbvji", "0000000000000000000000000000000000000001")]
  currentQuorum := 2

/-- What a request meets among the three: two of them consent and all of them acknowledge. -/
def trioServed : Surroundings :=
  { wellServed with
    consents := wellServed.consents
      ++ [.response takerAddress (some (Hex.encode (List.replicate 9 49)))
        (some (Hex.encode (List.replicate 33 3))) none]
    sealAcks := trioConfig.signers.map successAs
    confirmAcks := trioConfig.signers.map successAs }

/-- The configured set once more, or with another quorum. -/
def trioRequest (quorum : UInt32) : MembershipChangeRequest :=
  { addThird with quorum }

theorem trioState_started
    : startAdmin membershipCrypto sampleBase58Decode trioConfig "rrrrrrrrrrrrrrrrrrrrrhoLvTp" 3
      = .ok trioState := by
  rfl

/-- The configured set is sealed and projected twice before the quorum is raised. -/
def trioRequests : List (MembershipChangeRequest × Surroundings) :=
  [(trioRequest 2, trioServed), (trioRequest 2, trioServed), (trioRequest 3, trioServed)]

theorem trioRequest_endsOk
    : EndsOk ((driveChange membershipCrypto sampleBase58Decode trioState (trioRequest 2)
        trioServed).run.run []) := by
  decide +kernel

theorem trioRaised_endsOk
    : EndsOk ((driveChange membershipCrypto sampleBase58Decode trioState (trioRequest 3)
        trioServed).run.run []) := by
  decide +kernel

theorem trioRequests_allOk
    : ∀ answer ∈ serve membershipCrypto sampleBase58Decode trioState trioRequests,
        EndsOk answer := by
  refine List.forall_mem_cons.mpr ⟨trioRequest_endsOk, ?_⟩
  refine List.forall_mem_cons.mpr ⟨trioRequest_endsOk, ?_⟩
  exact List.forall_mem_cons.mpr ⟨trioRaised_endsOk, fun _ member => absurd member List.not_mem_nil⟩

/-- Requests for the configured set chain, also with a request for another quorum after them. -/
theorem changes_chain_until_raised
    : Chained (authorityOf membershipCrypto sampleBase58Decode trioConfig.signers 2)
        ((serve membershipCrypto sampleBase58Decode trioState trioRequests).map Prod.snd) := by
  refine (changes_chain_iff membershipCrypto sampleBase58Decode trioConfig
    "rrrrrrrrrrrrrrrrrrrrrhoLvTp" 3 trioState trioState_started trioRequests
    trioRequests_allOk).mpr ?_
  intro request member
  obtain rfl : request = (trioRequest 2, trioServed) := by
    simpa [trioRequests] using member
  rfl

/-- However often the request is served, it succeeds. -/
theorem addThird_allOk (times : Nat)
    : ∀ answer ∈ serve membershipCrypto sampleBase58Decode pairState
        (List.replicate times (addThird, wellServed)), EndsOk answer := by
  intro answer member
  obtain ⟨request, served, rfl⟩ := List.mem_map.mp member
  rw [(List.mem_replicate.mp served).2]
  exact addThird_endsOk

/-- After a third signer has been sealed and projected, the next request still attests with,
and collects from, the two it was configured with.
-/
theorem changes_do_not_chain
    : startAdmin membershipCrypto sampleBase58Decode pairConfig "rrrrrrrrrrrrrrrrrrrrrhoLvTp" 2
        = .ok pairState
      ∧ (∀ answer ∈ serve membershipCrypto sampleBase58Decode pairState
          (List.replicate 2 (addThird, wellServed)), EndsOk answer)
      ∧ ¬ Chained (authorityOf membershipCrypto sampleBase58Decode pairConfig.signers 2)
        ((serve membershipCrypto sampleBase58Decode pairState
          (List.replicate 2 (addThird, wellServed))).map Prod.snd) := by
  refine ⟨pairState_started, addThird_allOk 2, ?_⟩
  intro chained
  have same := ((chained_serve_iff (addThird_allOk 2) _).mp chained).2 (addThird, wellServed)
    (by simp)
  exact absurd same (by decide +kernel)

end Membership

end PerpDex
