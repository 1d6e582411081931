import PerpDex.Lib.Except
import PerpDex.Membership.Statement

/-! One membership change: read the epoch of the driving node, prepare the statement,
collect the consent of the quorum, and have every node seal.
The enclaves of the cluster are the state a change runs over; which messages of it get
through is given with each run.
-/

namespace PerpDex

namespace Membership

-----------------------------------------------------------------------------------------
-- The consent bundle
-----------------------------------------------------------------------------------------

/-- Messages on the signing topic. Only answers are read by a collector. -/
inductive SigningMessage where
  | response (signerXrplAddress : String) (derSignature compressedPubkey error : Option String)
  | other
deriving DecidableEq

structure QuorumEntry where
  pk : List UInt8
  sig : List UInt8
deriving DecidableEq

/-- A malformed answer is no entry; whether the signature is valid is left to the enclave. -/
def parseSigningResponse : SigningMessage → Option QuorumEntry
  | .other => none
  | .response _ derSignature compressedPubkey error => do
      if error.isSome then none
      let sig ← Hex.decode (← derSignature)
      let pk ← Hex.decode (← compressedPubkey)
      if pk.length ≠ 33 ∨ sig.length < 8 ∨ 72 < sig.length then none
      some { pk, sig }

def buildQuorumBundle (entries : List QuorumEntry) : List UInt8 :=
  leBytes 4 1 ++ leBytes 4 (entries.length % 2 ^ 32)
    ++ entries.flatMap
      (fun entry => entry.pk ++ UInt8.ofNat entry.sig.length :: entry.sig)

/-- One entry a public key, in the order of arrival. -/
def gatherEntries (entries : List QuorumEntry) : List SigningMessage → List QuorumEntry
  | [] => entries
  | message :: rest =>
      match parseSigningResponse message with
      | some entry =>
          if entries.any (fun known => known.pk = entry.pk) then gatherEntries entries rest
          else gatherEntries (entries ++ [entry]) rest
      | none => gatherEntries entries rest

/-- `LibP2PMembershipCollector::collect` over the answers of its window. -/
def collect (window : List SigningMessage) : Except String (List UInt8) :=
  let entries := gatherEntries [] window
  if entries.isEmpty then
    .error
      ("collected zero membership-epoch consents within 30s; "
        ++ "check the operator quorum is online + gossipsub mesh is healthy")
  else .ok (buildQuorumBundle entries)

/-- Some answer of the window carries a consent. -/
def Consented (window : List SigningMessage) : Prop :=
  ∃ message ∈ window, (parseSigningResponse message).isSome

/-- A key and a signature of the right sizes are read. -/
theorem parseSigningResponse_encode (signerXrplAddress : String) {sig pk : List UInt8}
    (keySized : pk.length = 33) (sigSized : 8 ≤ sig.length ∧ sig.length ≤ 72)
    : parseSigningResponse
        (.response signerXrplAddress (some (Hex.encode sig)) (some (Hex.encode pk)) none)
      = some { pk, sig } := by
  have sized : ¬ (pk.length ≠ 33 ∨ sig.length < 8 ∨ 72 < sig.length) := by omega
  simp [parseSigningResponse, Hex.decode_encode, sized]

/-- No entry is dropped again. -/
theorem gatherEntries_isEmpty {entries : List QuorumEntry} (held : entries ≠ [])
    (window : List SigningMessage)
    : gatherEntries entries window ≠ [] := by
  induction window generalizing entries with
  | nil => exact held
  | cons message rest ih =>
      rw [gatherEntries]
      split
      · split
        · exact ih held
        · exact ih (by simp)
      · exact ih held

/-- A bundle is collected exactly if somebody consented. -/
theorem collect_ok_iff (window : List SigningMessage)
    : (∃ bundle, collect window = .ok bundle) ↔ Consented window := by
  have gathered : gatherEntries [] window ≠ [] ↔ Consented window := by
    induction window with
    | nil => simp [gatherEntries, Consented]
    | cons message rest ih =>
        simp only [Consented, List.mem_cons, exists_eq_or_imp] at ih ⊢
        rw [gatherEntries]
        cases read : parseSigningResponse message with
        | none => simpa using ih
        | some entry => simpa using gatherEntries_isEmpty (by simp) rest
  rw [← gathered, collect]
  split
  case isTrue empty => simp [List.isEmpty_iff.mp empty]
  case isFalse nonempty =>
    exact ⟨fun _ same => nonempty (List.isEmpty_iff.mpr same), fun _ => ⟨_, rfl⟩⟩

-----------------------------------------------------------------------------------------
-- Sealing on one node
-----------------------------------------------------------------------------------------

/-- What an enclave has sealed. -/
structure EnclaveRecord where
  epoch : UInt64
  digest : Digest
  signers : List SignerEntry
  quorum : UInt32
deriving DecidableEq

/-- `ecall_seal_membership_epoch`: only the direct successor of the sealed epoch is
accepted.
-/
def EnclaveRecord.seal (crypto : Crypto) (record : EnclaveRecord)
    (statement : MembershipEpochStatement) : Option EnclaveRecord :=
  if statement.proposedEpoch = record.epoch + 1 ∧ statement.prevEpochHash = record.digest then
    some
      { epoch := statement.proposedEpoch
        digest :=
          computeEpochAuthorityDigest crypto statement.escrow statement.proposedEpoch
            statement.prevEpochHash statement.newSigners statement.newQuorum
        signers := statement.newSigners
        quorum := statement.newQuorum }
  else none

structure MembershipSignerWire where
  accountIdHex : String
  weight : UInt32
deriving DecidableEq

/-- The `Seal` payload. The attesting set it also carries is not read when it is applied. -/
structure SealPayload where
  escrowHex : String
  proposedEpoch : UInt64
  prevEpochHashHex : String
  newSigners : List MembershipSignerWire
  newQuorum : UInt32
  quorumBundleHex : String
deriving DecidableEq

def sealPayload (statement : MembershipEpochStatement) (bundle : List UInt8) : SealPayload where
  escrowHex := Hex.encode statement.escrow.toList
  proposedEpoch := statement.proposedEpoch
  prevEpochHashHex := Hex.encode statement.prevEpochHash.toList
  newSigners :=
    statement.newSigners.map
      (fun signer => ⟨Hex.encode signer.accountId.toList, signer.weight⟩)
  newQuorum := statement.newQuorum
  quorumBundleHex := Hex.encode bundle

/-- Exactly `size` bytes in hexadecimal. -/
def decodeBytes (size : Nat) (text : String) : Option (Bytes size) :=
  match Hex.decode text with
  | some bytes => if exact : bytes.length = size then some ⟨bytes, exact⟩ else none
  | none => none

def decode20 (text : String) : Option AccountId := decodeBytes 20 text

def decode32 (text : String) : Option Digest := decodeBytes 32 text

/-- `MEMBERSHIP_DESC_OP_SET`. -/
def membershipDescOpSet : UInt8 := 3

def decodeSigners : List MembershipSignerWire → Option (List SignerEntry)
  | [] => some []
  | signer :: rest => do
      let accountId ← decode20 signer.accountIdHex
      let signers ← decodeSigners rest
      some (⟨accountId, signer.weight⟩ :: signers)

def saturatingSub (left right : UInt64) : UInt64 :=
  if left ≤ right then 0 else left - right

/-- The `Seal` arm of `handle_membership_apply`: the statement is rebuilt from the payload
and given to the enclave of this node. `refusal` is what the enclave answers when it refuses.
-/
def handleSeal (crypto : Crypto) (refusal : String) (payload : SealPayload)
    (record : EnclaveRecord) : Except String EnclaveRecord := do
  let escrow ← okOr (decode20 payload.escrowHex) "apply.seal: bad escrow_hex"
  let prev ← okOr (decode32 payload.prevEpochHashHex) "apply.seal: bad prev_epoch_hash_hex"
  let signers ← okOr (decodeSigners payload.newSigners)
    "apply.seal: bad signer account_id_hex"
  let _ ← okOr (Hex.decode payload.quorumBundleHex) "apply.seal: bad quorum_bundle_hex"
  match prepareStatement crypto escrow (saturatingSub payload.proposedEpoch 1) prev signers
      payload.newQuorum membershipDescOpSet (List.Vector.replicate 32 0) [] with
  | .error reason => .error s!"apply.seal: prepare {reason.debug}"
  | .ok statement => okOr (record.seal crypto statement) s!"apply: {refusal}"

theorem decodeBytes_encode {size : Nat} (bytes : Bytes size)
    : decodeBytes size (Hex.encode bytes.toList) = some bytes := by
  simp only [decodeBytes, Hex.decode_encode]
  rw [dif_pos bytes.toList_length]
  rfl

theorem decodeSigners_encode (signers : List SignerEntry)
    : decodeSigners
        (signers.map (fun signer => ⟨Hex.encode signer.accountId.toList, signer.weight⟩))
      = some signers := by
  induction signers with
  | nil => rfl
  | cons signer rest ih =>
      simp only [List.map_cons, decodeSigners, decode20, decodeBytes_encode, ih,
        Option.bind_eq_bind, Option.bind_some]

/-- The epoch a node rebuilds from the one it is sent. -/
def rebuiltEpoch (proposedEpoch : UInt64) : UInt64 := saturatingSub proposedEpoch 1 + 1

/-- Only an epoch that wrapped around to zero is rebuilt as another. -/
theorem rebuiltEpoch_eq (proposedEpoch : UInt64)
    : rebuiltEpoch proposedEpoch = if proposedEpoch = 0 then 1 else proposedEpoch := by
  rw [rebuiltEpoch, saturatingSub]
  by_cases zero : proposedEpoch = 0
  · simp [zero]
  · by_cases one : proposedEpoch = 1
    · simp [one]
    · have above : ¬ proposedEpoch ≤ 1 := by
        rw [UInt64.le_iff_toNat_le]
        intro below
        have below : proposedEpoch.toNat ≤ 1 := below
        interval_cases value : proposedEpoch.toNat
        · exact zero (UInt64.toNat_inj.mp value)
        · exact one (UInt64.toNat_inj.mp value)
      rw [if_neg above, if_neg zero, UInt64.sub_add_cancel]

/-- A node that is sent a statement decides on that statement, but for its epoch. -/
theorem handleSeal_sealPayload (crypto : Crypto) (refusal : String)
    {statement : MembershipEpochStatement}
    (admissible : Admissible statement.newSigners statement.newQuorum) (bundle : List UInt8)
    (record : EnclaveRecord)
    : handleSeal crypto refusal (sealPayload statement bundle) record
      = okOr
          (record.seal crypto
            { statement with proposedEpoch := rebuiltEpoch statement.proposedEpoch })
          s!"apply: {refusal}" := by
  simp only [handleSeal, sealPayload, decode20, decode32, decodeBytes_encode,
    decodeSigners_encode, Hex.decode_encode, okOr, Except.bind, bind]
  rw [prepareStatement_ok_iff.mpr ⟨admissible, rfl⟩]
  rfl

-----------------------------------------------------------------------------------------
-- The broadcast and its acknowledgements
-----------------------------------------------------------------------------------------

structure NodeSealResult where
  node : String
  ok : Bool
  error : Option String
deriving DecidableEq

/-- The name a node is listed under. -/
def ackName (signerXrplAddress : String) : String :=
  if signerXrplAddress.isEmpty then "<unknown>" else signerXrplAddress

/-- `broadcast_and_collect`: one entry a node, until enough nodes have succeeded. -/
def collectAcks (expectedNodes : Nat) (acks : List NodeSealResult)
    : List SigningMessage → List NodeSealResult
  | [] => acks
  | message :: rest =>
      if expectedNodes ≤ (acks.filter NodeSealResult.ok).length then acks
      else
        match message with
        | .other => collectAcks expectedNodes acks rest
        | .response signerXrplAddress _ _ error =>
            let node := ackName signerXrplAddress
            if acks.any (fun ack => ack.node = node) then collectAcks expectedNodes acks rest
            else collectAcks expectedNodes (acks ++ [⟨node, error.isNone, error⟩]) rest

def shortfallError (expectedNodes okCount : Nat) : Option String :=
  if okCount < expectedNodes then
    some
      (s!"only {okCount} of {expectedNodes} nodes acked within 45s; retry the change "
        ++ "(the enclave monotonic/idempotent guards make a retry safe)")
  else none

/-- The results of a broadcast: the acknowledgements, and one entry for a shortfall. -/
def sealResults (expectedNodes : Nat) (window : List SigningMessage) : List NodeSealResult :=
  let acks := collectAcks expectedNodes [] window
  match shortfallError expectedNodes (acks.filter NodeSealResult.ok).length with
  | some text => acks ++ [⟨"<cluster>", false, some text⟩]
  | none => acks

/-- No node is listed twice. -/
theorem collectAcks_nodup (expectedNodes : Nat) (acks : List NodeSealResult)
    (distinct : (acks.map NodeSealResult.node).Nodup) (window : List SigningMessage)
    : ((collectAcks expectedNodes acks window).map NodeSealResult.node).Nodup := by
  induction window generalizing acks with
  | nil => exact distinct
  | cons message rest ih =>
      cases message with
      | other =>
          rw [collectAcks]
          split
          · exact distinct
          · exact ih _ distinct
      | response signerXrplAddress derSignature compressedPubkey error =>
          rw [collectAcks]
          split
          · exact distinct
          · dsimp only
            split
            · exact ih _ distinct
            · rename_i unlisted
              apply ih
              rw [List.map_append, List.nodup_append]
              refine ⟨distinct, List.nodup_singleton _, ?_⟩
              intro listed member name same clash
              obtain ⟨ack, ackMember, rfl⟩ := List.mem_map.mp member
              obtain rfl := List.mem_singleton.mp same
              exact unlisted (List.any_eq_true.mpr ⟨ack, ackMember, decide_eq_true clash⟩)

/-- A listed node has answered. -/
theorem mem_collectAcks {expectedNodes : Nat} {acks : List NodeSealResult}
    {window : List SigningMessage} {ack : NodeSealResult}
    (member : ack ∈ collectAcks expectedNodes acks window)
    : ack ∈ acks
      ∨ ∃ signerXrplAddress derSignature compressedPubkey error,
          .response signerXrplAddress derSignature compressedPubkey error ∈ window
          ∧ ack = ⟨ackName signerXrplAddress, error.isNone, error⟩ := by
  induction window generalizing acks with
  | nil => exact .inl member
  | cons message rest ih =>
      have later
          : ∀ {known : List NodeSealResult},
              ack ∈ collectAcks expectedNodes known rest
              → ack ∈ known
                ∨ ∃ signerXrplAddress derSignature compressedPubkey error,
                    .response signerXrplAddress derSignature compressedPubkey error
                      ∈ message :: rest
                    ∧ ack = ⟨ackName signerXrplAddress, error.isNone, error⟩ := by
        intro known found
        rcases ih found with old | ⟨address, sig, key, error, heard, same⟩
        · exact .inl old
        · exact .inr ⟨address, sig, key, error, List.mem_cons_of_mem _ heard, same⟩
      cases message with
      | other =>
          rw [collectAcks] at member
          split at member
          · exact .inl member
          · exact later member
      | response signerXrplAddress derSignature compressedPubkey error =>
          rw [collectAcks] at member
          split at member
          · exact .inl member
          · dsimp only at member
            split at member
            · exact later member
            · rcases later member with old | answered
              · rcases List.mem_append.mp old with known | new
                · exact .inl known
                · exact .inr ⟨signerXrplAddress, derSignature, compressedPubkey, error,
                    List.mem_cons_self, List.mem_singleton.mp new⟩
              · exact .inr answered

/-- Without a failed entry there is no shortfall: enough nodes are listed. -/
theorem sealResults_all_ok {expectedNodes : Nat} {window : List SigningMessage}
    (allOk : (sealResults expectedNodes window).all NodeSealResult.ok = true)
    : sealResults expectedNodes window = collectAcks expectedNodes [] window
      ∧ expectedNodes ≤ (collectAcks expectedNodes [] window).length := by
  rw [sealResults] at allOk ⊢
  by_cases short
      : ((collectAcks expectedNodes [] window).filter NodeSealResult.ok).length < expectedNodes
  · simp [shortfallError, short] at allOk
  · simp only [shortfallError, short, if_false]
    exact ⟨trivial, (Nat.not_lt.mp short).trans (List.length_filter_le _ _)⟩

structure MembershipChangeOutcome where
  proposedEpoch : UInt64
  messageHash : Digest
  nodeResults : List NodeSealResult
  quorumBundleHex : String
deriving DecidableEq

/-- Every node is reported to have sealed. -/
def MembershipChangeOutcome.allSealed (outcome : MembershipChangeOutcome) : Bool :=
  !outcome.nodeResults.isEmpty && outcome.nodeResults.all NodeSealResult.ok

-----------------------------------------------------------------------------------------
-- One change
-----------------------------------------------------------------------------------------

structure ChangeRequest where
  escrow : AccountId
  newSigners : List SignerEntry
  newQuorum : UInt32
  op : UInt8
  newMemberMrenclave : Digest
  descriptorSigs : List UInt8
deriving DecidableEq

/-- An error of `action` is reported under what was being done. -/
def context {m : Type → Type} [Monad m] {α : Type} (doing : String)
    (action : ExceptT String m α) : ExceptT String m α :=
  action.adapt (fun cause => s!"{doing}: {cause}")

/-- A reported action that succeeds is followed by the next one. -/
theorem context_bind_ok {σ α β : Type} {doing : String} {action : ExceptT String (StateM σ) α}
    {next : α → ExceptT String (StateM σ) β} {before after : σ} {value : α}
    (ran : action.run.run before = (.ok value, after))
    : (context doing action >>= next).run.run before = (next value).run.run after := by
  have ran : action before = (.ok value, after) := ran
  have unfolded
      : (context doing action >>= next).run.run before
        = ExceptT.bindCont next ((action before).1.mapError (fun cause => s!"{doing}: {cause}"))
          (action before).2 :=
    rfl
  rw [unfolded, ran]
  rfl

/-- One change end to end, over any way to read the epoch, to collect and to apply. -/
def runMembershipChange {m : Type → Type} [Monad m] (crypto : Crypto) (request : ChangeRequest)
    (digestSrc : ExceptT String m (UInt64 × Digest))
    (collector : MembershipEpochStatement → ExceptT String m (List UInt8))
    (applier : MembershipEpochStatement → List UInt8 → ExceptT String m (List NodeSealResult))
    : ExceptT String m MembershipChangeOutcome := do
  let (currentEpoch, currentDigest) ←
    context "read current epoch digest from local enclave" digestSrc
  match prepareStatement crypto request.escrow currentEpoch currentDigest request.newSigners
      request.newQuorum request.op request.newMemberMrenclave request.descriptorSigs with
  | .error reason => throw s!"prepare membership statement: {reason.debug}"
  | .ok statement =>
      let bundle ← context "collect off-chain quorum consent" (collector statement)
      let nodeResults ← context "apply sealed epoch across the cluster"
        (applier statement bundle)
      pure
        { proposedEpoch := statement.proposedEpoch
          messageHash := statement.messageHash
          nodeResults
          quorumBundleHex := Hex.encode bundle }

/-- What the network does during one run: the answers of the consent window, the nodes the
broadcast reaches, and the nodes whose acknowledgements arrive, in order.
-/
structure Delivery where
  consents : List SigningMessage
  reached : Nat → Bool
  acked : List Nat

/-- The cluster and what does not change about it. -/
structure Cluster where
  crypto : Crypto
  xrplAddress : Nat → String
  refusal : Nat → String

namespace Cluster

variable (cluster : Cluster)

/-- The node seals if the broadcast reaches it and its enclave accepts. -/
def sealNode (delivery : Delivery) (payload : SealPayload) (node : Nat) (record : EnclaveRecord)
    : EnclaveRecord :=
  if delivery.reached node then
    (handleSeal cluster.crypto (cluster.refusal node) payload record).toOption.getD record
  else record

/-- The acknowledgement of a node, none if the broadcast did not reach it. -/
def ackOf (delivery : Delivery) (payload : SealPayload) (nodes : List EnclaveRecord)
    (node : Nat) : SigningMessage :=
  match nodes[node]? with
  | none => .other
  | some record =>
      if delivery.reached node then
        match handleSeal cluster.crypto (cluster.refusal node) payload record with
        | .ok _ => .response (cluster.xrplAddress node) none none none
        | .error reason => .response (cluster.xrplAddress node) none none (some reason)
      else .other

/-- `LibP2PMembershipApplier::apply_seal` and the sealing it causes on the nodes. -/
def applySeal (delivery : Delivery) (statement : MembershipEpochStatement)
    (bundle : List UInt8)
    : ExceptT String (StateM (List EnclaveRecord)) (List NodeSealResult) := do
  let nodes ← get
  let payload := sealPayload statement bundle
  set (nodes.mapIdx (cluster.sealNode delivery payload))
  pure
    (sealResults (max nodes.length 1)
      (delivery.acked.map (cluster.ackOf delivery payload nodes)))

/-- The node is reached and its enclave accepts. -/
def SealsOn (delivery : Delivery) (payload : SealPayload) (nodes : List EnclaveRecord)
    (node : Nat) : Prop :=
  delivery.reached node = true
  ∧ ∃ record next,
      nodes[node]? = some record
      ∧ handleSeal cluster.crypto (cluster.refusal node) payload record = .ok next

/-- Only a node that sealed acknowledges without an error. -/
theorem sealsOn_of_ackOf {delivery : Delivery} {payload : SealPayload}
    {nodes : List EnclaveRecord} {node : Nat} {signerXrplAddress : String}
    {derSignature compressedPubkey : Option String}
    (acked
      : cluster.ackOf delivery payload nodes node
        = .response signerXrplAddress derSignature compressedPubkey none)
    : node < nodes.length
      ∧ cluster.xrplAddress node = signerXrplAddress
      ∧ cluster.SealsOn delivery payload nodes node := by
  rw [ackOf] at acked
  split at acked
  · cases acked
  · rename_i record holds
    split at acked
    · rename_i reached
      split at acked
      · rename_i next accepted
        refine ⟨(List.getElem?_eq_some_iff.mp holds).1, ?_, reached, record, next, holds, accepted⟩
        injection acked
      · cases acked
    · cases acked

/-- If every listed result is a success, every node sealed.
Witness: the listed names are distinct and belong to nodes that sealed, so there are no fewer
of these than there are nodes.
-/
theorem sealsOn_of_all_ok {delivery : Delivery} {payload : SealPayload}
    {nodes : List EnclaveRecord}
    (allOk
      : (sealResults (max nodes.length 1)
            (delivery.acked.map (cluster.ackOf delivery payload nodes))).all NodeSealResult.ok
        = true)
    {node : Nat} (inCluster : node < nodes.length)
    : cluster.SealsOn delivery payload nodes node := by
  classical
  obtain ⟨same, enough⟩ := sealResults_all_ok allOk
  rw [same] at allOk
  let window := delivery.acked.map (cluster.ackOf delivery payload nodes)
  let acks := collectAcks (max nodes.length 1) [] window
  let sealedNodes :=
    (List.range nodes.length).filter (fun node => cluster.SealsOn delivery payload nodes node)
  have listed
      : (acks.map NodeSealResult.node).Subset
          (sealedNodes.map (fun node => ackName (cluster.xrplAddress node))) := by
    intro name member
    obtain ⟨ack, ackMember, rfl⟩ := List.mem_map.mp member
    rcases mem_collectAcks ackMember with none | ⟨address, sig, key, error, heard, rfl⟩
    · cases none
    · obtain ⟨other, -, acked⟩ := List.mem_map.mp heard
      have succeeded : error = none :=
        Option.isNone_iff_eq_none.mp (List.all_eq_true.mp allOk _ ackMember)
      rw [succeeded] at acked
      obtain ⟨bound, named, sealsOther⟩ := cluster.sealsOn_of_ackOf acked
      refine List.mem_map.mpr ⟨other, List.mem_filter.mpr ⟨List.mem_range.mpr bound, ?_⟩, ?_⟩
      · exact decide_eq_true sealsOther
      · rw [named]
  have distinct : (acks.map NodeSealResult.node).Nodup :=
    collectAcks_nodup _ [] List.nodup_nil window
  have count := distinct.length_le_of_subset listed
  rw [List.length_map, List.length_map] at count
  have all : nodes.length ≤ sealedNodes.length :=
    (Nat.le_max_left _ _).trans (enough.trans count)
  have complete : sealedNodes = List.range nodes.length := by
    apply List.filter_sublist.eq_of_length_le
    rw [List.length_range]
    exact all
  have member : node ∈ sealedNodes := by
    rw [complete]
    exact List.mem_range.mpr inCluster
  exact of_decide_eq_true (List.mem_filter.mp member).2

/-- The answer of an enclave that is asked for its epoch. -/
def epochDigest
    : Option EnclaveRecord → ExceptT String (StateM (List EnclaveRecord)) (UInt64 × Digest)
  | some record => pure (record.epoch, record.digest)
  | none =>
      throw
        ("enclave has no sealed membership epoch yet "
          ++ "(genesis bootstrap required before a transition)")

/-- The epoch and digest of the driving node. -/
def currentEpoch (driver : Nat)
    : ExceptT String (StateM (List EnclaveRecord)) (UInt64 × Digest) := do
  epochDigest (← get)[driver]?

/-- A request driven from one node. -/
def change (request : ChangeRequest) (driver : Nat) (delivery : Delivery)
    : ExceptT String (StateM (List EnclaveRecord)) MembershipChangeOutcome :=
  runMembershipChange cluster.crypto request (currentEpoch driver)
    (fun _ => ExceptT.mk (pure (collect delivery.consents)))
    (cluster.applySeal delivery)

/-- The enclaves after a request was driven from one node. -/
def nodesAfter (request : ChangeRequest) (driver : Nat) (delivery : Delivery)
    (nodes : List EnclaveRecord) : List EnclaveRecord :=
  ((cluster.change request driver delivery).run.run nodes).2

end Cluster

end Membership

end PerpDex
