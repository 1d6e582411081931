import PerpDex.Lib.Run
import PerpDex.Membership.Ceremony

/-! What driving a membership change again does to a cluster that sealed it in part.
The driving node proposes the successor of its own epoch. Nodes that fell behind it are never
offered the epoch they lack.
-/

namespace PerpDex

namespace Membership

/-- All enclaves hold the same epoch, digest and set. -/
def Agreed (nodes : List EnclaveRecord) : Prop :=
  ∀ left ∈ nodes, ∀ right ∈ nodes, left = right

theorem agreed_of_getElem? {nodes : List EnclaveRecord} (record : EnclaveRecord)
    (all : ∀ node < nodes.length, nodes[node]? = some record)
    : Agreed nodes := by
  have each : ∀ held ∈ nodes, held = record := by
    intro held member
    obtain ⟨node, inCluster, found⟩ := List.getElem_of_mem member
    have holds := all node inCluster
    rw [List.getElem?_eq_getElem inCluster, found] at holds
    exact Option.some.inj holds
  intro left leftMember right rightMember
  rw [each left leftMember, each right rightMember]

theorem agreed_replicate (size : Nat) (record : EnclaveRecord)
    : Agreed (List.replicate size record) := by
  intro left leftMember right rightMember
  rw [List.eq_of_mem_replicate leftMember, List.eq_of_mem_replicate rightMember]

theorem Agreed.getElem? {nodes : List EnclaveRecord} (agreed : Agreed nodes) {driver node : Nat}
    {record : EnclaveRecord} (drives : nodes[driver]? = some record)
    (inCluster : node < nodes.length)
    : nodes[node]? = some record := by
  rw [List.getElem?_eq_getElem inCluster]
  exact congrArg some
    (agreed _ (List.getElem_mem inCluster) _ (List.mem_of_getElem? drives))

/-- What an enclave holds once it has sealed the request on top of a record. -/
def successor (crypto : Crypto) (request : ChangeRequest) (record : EnclaveRecord)
    : EnclaveRecord where
  epoch := record.epoch + 1
  digest :=
    computeEpochAuthorityDigest crypto request.escrow (record.epoch + 1) record.digest
      request.newSigners request.newQuorum
  signers := request.newSigners
  quorum := request.newQuorum

/-- A run from this epoch has the node seal: the set is admissible, the epoch has a successor,
somebody consents and the broadcast reaches the node.
-/
structure Delivery.Seals (delivery : Delivery) (request : ChangeRequest) (epoch : UInt64)
    (node : Nat) : Prop where
  admissible : Admissible request.newSigners request.newQuorum
  succeeded : epoch + 1 ≠ 0
  consented : Consented delivery.consents
  reached : delivery.reached node = true

/-- Every node is reachable: consents are heard and the broadcast arrives everywhere. -/
structure Delivery.ReachesAll (delivery : Delivery) (size : Nat) : Prop where
  consented : Consented delivery.consents
  reached : ∀ node < size, delivery.reached node = true

theorem epoch_succ_ne (epoch : UInt64) : epoch + 1 ≠ epoch := by
  intro same
  have step := congrArg UInt64.toNat same
  have bound := epoch.toNat_lt
  rw [UInt64.toNat_add] at step
  simp only [UInt64.reduceToNat] at step
  omega

theorem epoch_succ_succ_ne (epoch : UInt64) : epoch + 1 + 1 ≠ epoch := by
  intro same
  have step := congrArg UInt64.toNat same
  have bound := epoch.toNat_lt
  rw [UInt64.toNat_add, UInt64.toNat_add] at step
  simp only [UInt64.reduceToNat] at step
  omega

/-- The last epoch is not the first. -/
theorem epoch_ne_zero {epoch : UInt64} (last : epoch + 1 = 0) : epoch ≠ 0 := by
  intro zero
  rw [zero] at last
  exact absurd last (by decide)

namespace Cluster

variable (cluster : Cluster) (request : ChangeRequest)

theorem currentEpoch_run {nodes : List EnclaveRecord} {driver : Nat} {record : EnclaveRecord}
    (drives : nodes[driver]? = some record)
    : (currentEpoch driver).run.run nodes = (.ok (record.epoch, record.digest), nodes) := by
  have read
      : (currentEpoch driver).run.run nodes = (epochDigest nodes[driver]?).run.run nodes :=
    rfl
  rw [read, drives]
  rfl

/-- A run fails and leaves the nodes alone unless a statement is prepared and consented to;
then it offers that statement to every node it reaches.
-/
theorem change_run {nodes : List EnclaveRecord} {driver : Nat} {record : EnclaveRecord}
    (drives : nodes[driver]? = some record) (delivery : Delivery)
    : (cluster.change request driver delivery).run.run nodes
      = match prepareStatement cluster.crypto request.escrow record.epoch record.digest
            request.newSigners request.newQuorum request.op request.newMemberMrenclave
            request.descriptorSigs with
        | .error reason => (.error s!"prepare membership statement: {reason.debug}", nodes)
        | .ok statement =>
            match collect delivery.consents with
            | .error cause => (.error s!"collect off-chain quorum consent: {cause}", nodes)
            | .ok bundle =>
                let payload := sealPayload statement bundle
                (.ok
                  { proposedEpoch := statement.proposedEpoch
                    messageHash := statement.messageHash
                    nodeResults :=
                      sealResults (max nodes.length 1)
                        (delivery.acked.map (cluster.ackOf delivery payload nodes))
                    quorumBundleHex := Hex.encode bundle },
                  nodes.mapIdx (cluster.sealNode delivery payload)) := by
  rw [change, runMembershipChange, context_bind_ok (currentEpoch_run drives)]
  dsimp only
  cases prepareStatement cluster.crypto request.escrow record.epoch record.digest
      request.newSigners request.newQuorum request.op request.newMemberMrenclave
      request.descriptorSigs with
  | error reason => rfl
  | ok statement =>
      cases collect delivery.consents with
      | error reason => rfl
      | ok bundle => rfl

/-- An enclave seals the statement it rebuilds exactly if it stands where the driver does.
An epoch that wrapped around is only accepted at the first epoch.
-/
theorem seal_rebuilt {record held : EnclaveRecord} {statement : MembershipEpochStatement}
    (prepared
      : prepareStatement cluster.crypto request.escrow record.epoch record.digest
            request.newSigners request.newQuorum request.op request.newMemberMrenclave
            request.descriptorSigs
          = .ok statement)
    (started : record.epoch + 1 = 0 → held.epoch ≠ 0)
    : held.seal cluster.crypto
          { statement with proposedEpoch := rebuiltEpoch statement.proposedEpoch }
      = if record.epoch + 1 ≠ 0 ∧ held.epoch = record.epoch ∧ held.digest = record.digest then
          some (successor cluster.crypto request record)
        else none := by
  obtain ⟨-, fields⟩ := prepareStatement_ok_iff.mp prepared
  subst fields
  simp only [EnclaveRecord.seal, rebuiltEpoch_eq]
  by_cases wrapped : record.epoch + 1 = 0
  · have refused : (1 : UInt64) ≠ held.epoch + 1 := by
      intro same
      have first : 0 + 1 = held.epoch + 1 := same
      exact started wrapped (UInt64.add_left_inj 1 |>.mp first).symm
    rw [if_pos wrapped, if_neg (fun given => refused given.1),
      if_neg (fun given => given.1 wrapped)]
  · rw [if_neg wrapped]
    by_cases stands : held.epoch = record.epoch ∧ held.digest = record.digest
    · rw [if_pos ⟨congrArg (· + 1) stands.1.symm, stands.2.symm⟩, if_pos ⟨wrapped, stands⟩]
      rfl
    · rw [if_neg, if_neg (fun given => stands given.2)]
      intro accepted
      exact stands ⟨(UInt64.add_left_inj 1 |>.mp accepted.1).symm, accepted.2.symm⟩

open Classical in
/-- Where a run takes each node: to the successor of the driver's record if it seals and
stood where the driver stood, and nowhere otherwise.
-/
theorem nodesAfter_getElem? {nodes : List EnclaveRecord} {driver : Nat}
    {record : EnclaveRecord} (drives : nodes[driver]? = some record) (delivery : Delivery)
    {node : Nat} {held : EnclaveRecord} (holds : nodes[node]? = some held)
    (started : record.epoch + 1 = 0 → held.epoch ≠ 0)
    : (cluster.nodesAfter request driver delivery nodes)[node]?
      = some
          (if delivery.Seals request record.epoch node
              ∧ held.epoch = record.epoch ∧ held.digest = record.digest then
            successor cluster.crypto request record
          else held) := by
  rw [nodesAfter, cluster.change_run request drives delivery]
  cases prepared : prepareStatement cluster.crypto request.escrow record.epoch record.digest
      request.newSigners request.newQuorum request.op request.newMemberMrenclave
      request.descriptorSigs with
  | error reason =>
      have refused : ¬ Admissible request.newSigners request.newQuorum := by
        intro admissible
        rw [prepareStatement_ok_iff.mpr ⟨admissible, rfl⟩] at prepared
        cases prepared
      rw [if_neg (fun given => refused given.1.admissible)]
      exact holds
  | ok statement =>
      obtain ⟨admissible, fields⟩ := prepareStatement_ok_iff.mp prepared
      cases collected : collect delivery.consents with
      | error reason =>
          have silent : ¬ Consented delivery.consents := by
            intro consented
            obtain ⟨bundle, found⟩ := (collect_ok_iff _).mpr consented
            rw [found] at collected
            cases collected
          rw [if_neg (fun given => silent given.1.consented)]
          exact holds
      | ok bundle =>
          have consented := (collect_ok_iff _).mp ⟨bundle, collected⟩
          have offered : Admissible statement.newSigners statement.newQuorum := by
            rw [fields]
            exact admissible
          rw [List.getElem?_mapIdx, holds, Option.map_some, sealNode,
            handleSeal_sealPayload cluster.crypto _ offered,
            cluster.seal_rebuilt request prepared started]
          congr 1
          by_cases reached : delivery.reached node = true
          · rw [if_pos reached]
            by_cases stands
                : record.epoch + 1 ≠ 0 ∧ held.epoch = record.epoch ∧ held.digest = record.digest
            · rw [if_pos stands, if_pos ⟨⟨admissible, stands.1, consented, reached⟩, stands.2⟩]
              rfl
            · rw [if_neg stands, if_neg (fun given => stands ⟨given.1.succeeded, given.2⟩)]
              rfl
          · rw [if_neg reached, if_neg (fun given => reached given.1.reached)]

/-- A run keeps the number of nodes. -/
theorem nodesAfter_length {nodes : List EnclaveRecord} {driver : Nat} {record : EnclaveRecord}
    (drives : nodes[driver]? = some record) (delivery : Delivery)
    : (cluster.nodesAfter request driver delivery nodes).length = nodes.length := by
  rw [nodesAfter, cluster.change_run request drives delivery]
  split
  · rfl
  · split
    · rfl
    · exact List.length_mapIdx

section Rerun

variable {nodes : List EnclaveRecord} {driver : Nat} {record : EnclaveRecord}

open Classical in
/-- From agreement, a node ends with the successor exactly if the run has it seal. -/
theorem nodesAfter_of_agreed (agreed : Agreed nodes) (drives : nodes[driver]? = some record)
    (delivery : Delivery) {node : Nat} (inCluster : node < nodes.length)
    : (cluster.nodesAfter request driver delivery nodes)[node]?
      = some
          (if delivery.Seals request record.epoch node then
            successor cluster.crypto request record
          else record) := by
  have holds := agreed.getElem? drives inCluster
  rw [cluster.nodesAfter_getElem? request drives delivery holds epoch_ne_zero]
  simp only [and_true]

/-- From agreement, a change that is reported as complete was sealed by every node. -/
theorem seals_of_allSealed (agreed : Agreed nodes) (drives : nodes[driver]? = some record)
    {delivery : Delivery} {outcome : MembershipChangeOutcome}
    (ran : ((cluster.change request driver delivery).run.run nodes).1 = .ok outcome)
    (reported : outcome.allSealed = true) {node : Nat} (inCluster : node < nodes.length)
    : delivery.Seals request record.epoch node := by
  rw [cluster.change_run request drives delivery] at ran
  split at ran
  · cases ran
  · rename_i statement prepared
    split at ran
    · cases ran
    · rename_i bundle collected
      rw [← Except.ok.inj ran, MembershipChangeOutcome.allSealed, Bool.and_eq_true] at reported
      obtain ⟨reached, held, next, holds, accepted⟩ :=
        cluster.sealsOn_of_all_ok reported.2 inCluster
      obtain rfl : record = held :=
        Option.some.inj ((agreed.getElem? drives inCluster).symm.trans holds)
      obtain ⟨admissible, fields⟩ := prepareStatement_ok_iff.mp prepared
      have offered : Admissible statement.newSigners statement.newQuorum := by
        rw [fields]
        exact admissible
      rw [handleSeal_sealPayload cluster.crypto _ offered,
        cluster.seal_rebuilt request prepared epoch_ne_zero] at accepted
      split at accepted
      · rename_i stands
        exact ⟨admissible, stands.1, (collect_ok_iff _).mp ⟨bundle, collected⟩, reached⟩
      · cases accepted

/-- A change that every node seals takes all of them to the successor. -/
theorem nodesAfter_of_all_seal (agreed : Agreed nodes) (drives : nodes[driver]? = some record)
    {delivery : Delivery}
    (all : ∀ node < nodes.length, delivery.Seals request record.epoch node)
    : cluster.nodesAfter request driver delivery nodes
      = List.replicate nodes.length (successor cluster.crypto request record) := by
  have kept := cluster.nodesAfter_length request drives delivery
  refine List.ext_getElem? (fun node => ?_)
  by_cases inCluster : node < nodes.length
  · rw [cluster.nodesAfter_of_agreed request agreed drives delivery inCluster,
      if_pos (all node inCluster), List.getElem?_replicate_of_lt inCluster]
  · rw [List.getElem?_eq_none (by omega), List.getElem?_eq_none (by simpa using inCluster)]

/-- A change that every node seals keeps agreement. -/
theorem agreed_of_all_seal (agreed : Agreed nodes) (drives : nodes[driver]? = some record)
    {delivery : Delivery}
    (all : ∀ node < nodes.length, delivery.Seals request record.epoch node)
    : Agreed (cluster.nodesAfter request driver delivery nodes) := by
  rw [cluster.nodesAfter_of_all_seal request agreed drives all]
  exact agreed_replicate _ _

/-- A change that no node seals keeps agreement. -/
theorem agreed_of_none_seals (agreed : Agreed nodes) (drives : nodes[driver]? = some record)
    {delivery : Delivery}
    (none : ∀ node < nodes.length, ¬ delivery.Seals request record.epoch node)
    : Agreed (cluster.nodesAfter request driver delivery nodes) := by
  apply agreed_of_getElem? record
  intro node inCluster
  rw [cluster.nodesAfter_length request drives] at inCluster
  rw [cluster.nodesAfter_of_agreed request agreed drives delivery inCluster,
    if_neg (none node inCluster)]

/-- A change that is reported as complete leaves the cluster in agreement. -/
theorem agreed_of_allSealed (agreed : Agreed nodes) (drives : nodes[driver]? = some record)
    {delivery : Delivery} {outcome : MembershipChangeOutcome}
    (ran : ((cluster.change request driver delivery).run.run nodes).1 = .ok outcome)
    (reported : outcome.allSealed = true)
    : Agreed (cluster.nodesAfter request driver delivery nodes) :=
  cluster.agreed_of_all_seal request agreed drives
    (fun _ inCluster => cluster.seals_of_allSealed request agreed drives ran reported inCluster)

/-- A run that reaches everybody keeps agreement. -/
theorem agreed_nodesAfter (agreed : Agreed nodes) (drives : nodes[driver]? = some record)
    {delivery : Delivery} (reachable : delivery.ReachesAll nodes.length)
    : Agreed (cluster.nodesAfter request driver delivery nodes) := by
  by_cases able : Admissible request.newSigners request.newQuorum ∧ record.epoch + 1 ≠ 0
  · exact cluster.agreed_of_all_seal request agreed drives
      (fun node inCluster =>
        ⟨able.1, able.2, reachable.consented, reachable.reached node inCluster⟩)
  · exact cluster.agreed_of_none_seals request agreed drives
      (fun _ _ seals => able ⟨seals.admissible, seals.succeeded⟩)

variable (agreed : Agreed nodes) (drives : nodes[driver]? = some record) {first second : Delivery}

include agreed drives

/-- A driver that did not seal offers the same epoch again, and the nodes that lack it are
the ones that accept it.
-/
theorem rerun_of_unsealed_driver (reachable : second.ReachesAll nodes.length)
    (unsealed : ¬ first.Seals request record.epoch driver)
    : Agreed
        (cluster.nodesAfter request driver second
          (cluster.nodesAfter request driver first nodes)) := by
  have member := (List.getElem?_eq_some_iff.mp drives).1
  have size := cluster.nodesAfter_length request drives first
  have drivesAgain : (cluster.nodesAfter request driver first nodes)[driver]? = some record := by
    rw [cluster.nodesAfter_of_agreed request agreed drives first member, if_neg unsealed]
  rw [← size] at reachable
  by_cases able : Admissible request.newSigners request.newQuorum ∧ record.epoch + 1 ≠ 0
  · apply agreed_of_getElem? (successor cluster.crypto request record)
    intro node inCluster
    rw [cluster.nodesAfter_length request drivesAgain] at inCluster
    have seals : second.Seals request record.epoch node :=
      ⟨able.1, able.2, reachable.consented, reachable.reached node inCluster⟩
    rw [size] at inCluster
    have holds := cluster.nodesAfter_of_agreed request agreed drives first inCluster
    rw [cluster.nodesAfter_getElem? request drivesAgain second holds
      (fun wrapped => absurd wrapped able.2)]
    by_cases sealedFirst : first.Seals request record.epoch node
    · -- the node is one epoch ahead of the driver and stays there
      have ahead : (successor cluster.crypto request record).epoch ≠ record.epoch :=
        epoch_succ_ne record.epoch
      rw [if_pos sealedFirst, if_neg (fun given => ahead given.2.1)]
    · rw [if_neg sealedFirst, if_pos ⟨seals, rfl, rfl⟩]
  · have unchanged : Agreed (cluster.nodesAfter request driver first nodes) :=
      cluster.agreed_of_none_seals request agreed drives
        (fun _ _ seals => able ⟨seals.admissible, seals.succeeded⟩)
    exact cluster.agreed_nodesAfter request unchanged drivesAgain reachable

/-- A change that was complete leaves nothing to repair. -/
theorem rerun_of_all_sealed (reachable : second.ReachesAll nodes.length)
    (all : ∀ node < nodes.length, first.Seals request record.epoch node)
    : Agreed
        (cluster.nodesAfter request driver second
          (cluster.nodesAfter request driver first nodes)) := by
  have member := (List.getElem?_eq_some_iff.mp drives).1
  have drivesAgain := cluster.nodesAfter_of_agreed request agreed drives first member
  have complete := cluster.agreed_of_all_seal request agreed drives all
  rw [← cluster.nodesAfter_length request drives first] at reachable
  exact cluster.agreed_nodesAfter request complete drivesAgain reachable

/-- A driver that sealed proposes the epoch after next to the nodes it left behind. They
refuse it, and the driver does not come back.
-/
theorem rerun_leaves_behind (sealedDriver : first.Seals request record.epoch driver)
    {node : Nat} (inCluster : node < nodes.length)
    (behind : ¬ first.Seals request record.epoch node)
    : ¬ Agreed
        (cluster.nodesAfter request driver second
          (cluster.nodesAfter request driver first nodes)) := by
  intro healed
  have member := (List.getElem?_eq_some_iff.mp drives).1
  have drivesAgain := cluster.nodesAfter_of_agreed request agreed drives first member
  rw [if_pos sealedDriver] at drivesAgain
  have stays := cluster.nodesAfter_of_agreed request agreed drives first inCluster
  rw [if_neg behind] at stays
  have lateNotFirst : record.epoch + 1 + 1 = 0 → record.epoch ≠ 0 := by
    intro wrapped zero
    rw [zero] at wrapped
    exact absurd wrapped (by decide)
  have left := cluster.nodesAfter_getElem? request drivesAgain second stays lateNotFirst
  have offered : record.epoch ≠ (successor cluster.crypto request record).epoch :=
    (epoch_succ_ne record.epoch).symm
  rw [if_neg (fun given => offered given.2.1)] at left
  have ended := cluster.nodesAfter_getElem? request drivesAgain second drivesAgain epoch_ne_zero
  have same := healed _ (List.mem_of_getElem? ended) _ (List.mem_of_getElem? left)
  split at same
  · exact epoch_succ_succ_ne record.epoch (congrArg EnclaveRecord.epoch same)
  · exact epoch_succ_ne record.epoch (congrArg EnclaveRecord.epoch same)

end Rerun

/-- Driving a partly sealed change again brings the cluster back into agreement exactly if the
driving node was not among the nodes that sealed, or all nodes were.
Witness: the driver's own record decides which epoch it offers the second time.
-/
theorem rerun_heals_iff {nodes : List EnclaveRecord} (agreed : Agreed nodes) {driver : Nat}
    {record : EnclaveRecord} (drives : nodes[driver]? = some record) (first : Delivery)
    {second : Delivery} (reachable : second.ReachesAll nodes.length)
    : Agreed
        (cluster.nodesAfter request driver second
          (cluster.nodesAfter request driver first nodes))
      ↔ ¬ first.Seals request record.epoch driver
        ∨ ∀ node < nodes.length, first.Seals request record.epoch node := by
  constructor
  · intro healed
    by_contra split
    obtain ⟨sealedDriver, partly⟩ := not_or.mp split
    obtain ⟨node, behind⟩ := not_forall.mp partly
    obtain ⟨inCluster, behind⟩ := Classical.not_imp.mp behind
    exact cluster.rerun_leaves_behind request agreed drives (not_not.mp sealedDriver) inCluster
      behind healed
  · intro given
    rcases given with unsealed | all
    · exact cluster.rerun_of_unsealed_driver request agreed drives reachable unsealed
    · exact cluster.rerun_of_all_sealed request agreed drives reachable all

-----------------------------------------------------------------------------------------
-- Changes one after the other
-----------------------------------------------------------------------------------------

/-- A change as it is driven: what is asked for, from which node, and what gets through. -/
structure Drive where
  request : ChangeRequest
  driver : Nat
  delivery : Delivery

/-- The enclaves after a change. -/
def after (nodes : List EnclaveRecord) (drive : Drive) : List EnclaveRecord :=
  cluster.nodesAfter drive.request drive.driver drive.delivery nodes

/-- The change failed before it was broadcast, or it is reported as complete. -/
def settled : Except String MembershipChangeOutcome → Bool
  | .error _ => true
  | .ok outcome => outcome.allSealed

/-- A node of the cluster drives the change to its end. -/
def Complete (nodes : List EnclaveRecord) (drive : Drive) : Prop :=
  drive.driver < nodes.length
    ∧ settled ((cluster.change drive.request drive.driver drive.delivery).run.run nodes).1 = true

instance (nodes : List EnclaveRecord) (drive : Drive) : Decidable (cluster.Complete nodes drive) :=
  inferInstanceAs (Decidable (_ ∧ _ = true))

/-- A change that fails before it is broadcast changes no enclave. -/
theorem nodesAfter_of_error {nodes : List EnclaveRecord} {driver : Nat} {record : EnclaveRecord}
    (drives : nodes[driver]? = some record) {delivery : Delivery} {reason : String}
    (failed : ((cluster.change request driver delivery).run.run nodes).1 = .error reason)
    : cluster.nodesAfter request driver delivery nodes = nodes := by
  rw [nodesAfter]
  rw [cluster.change_run request drives delivery] at failed ⊢
  split
  · rfl
  · rename_i statement prepared
    rw [prepared] at failed
    cases collected : collect delivery.consents with
    | error cause => rfl
    | ok bundle =>
        rw [collected] at failed
        cases failed

/-- One change that is driven to its end keeps agreement. -/
theorem Complete.agreed {nodes : List EnclaveRecord} {drive : Drive}
    (complete : cluster.Complete nodes drive) (agreed : Agreed nodes)
    : Agreed (cluster.after nodes drive) := by
  have drives := List.getElem?_eq_getElem complete.1
  cases ended : ((cluster.change drive.request drive.driver drive.delivery).run.run nodes).1 with
  | error reason =>
      rw [after, cluster.nodesAfter_of_error drive.request drives ended]
      exact agreed
  | ok outcome =>
      have reported := complete.2
      rw [ended] at reported
      exact cluster.agreed_of_allSealed drive.request agreed drives ended reported

end Cluster

-----------------------------------------------------------------------------------------
-- Three nodes, two of which seal
-----------------------------------------------------------------------------------------

def foundingRecord : EnclaveRecord where
  epoch := 1
  digest := List.Vector.replicate 32 0
  signers := threeSigners
  quorum := 2

/-- The third signer is removed. -/
def removeRequest : ChangeRequest where
  escrow := accountOf 0
  newSigners := twoSigners
  newQuorum := 2
  op := 2
  newMemberMrenclave := List.Vector.replicate 32 0
  descriptorSigs := []

def consentMessage : SigningMessage :=
  .response makerAddress (some (Hex.encode (List.replicate 70 48)))
    (some (Hex.encode (List.replicate 33 2))) none

def deliveredTo (reached : Nat → Bool) : Delivery where
  consents := [consentMessage]
  reached := reached
  acked := [0, 1, 2]

def threeNodes : Cluster where
  crypto := membershipCrypto
  xrplAddress := fun node => s!"r{node}"
  refusal := fun _ => "seal-epoch rejected: code=? message=?"

theorem consentMessage_consents (reached : Nat → Bool)
    : Consented (deliveredTo reached).consents := by
  refine ⟨consentMessage, List.mem_singleton.mpr rfl, ?_⟩
  rw [consentMessage, parseSigningResponse_encode makerAddress (by decide) (by decide)]
  rfl

theorem deliveredTo_seals_iff (reached : Nat → Bool) (node : Nat)
    : (deliveredTo reached).Seals removeRequest foundingRecord.epoch node
      ↔ reached node = true :=
  ⟨fun seals => seals.reached, fun arrived =>
    ⟨twoSigners_admissible, by decide, consentMessage_consents reached, arrived⟩⟩

theorem deliveredTo_reachesAll (size : Nat) : (deliveredTo (fun _ => true)).ReachesAll size :=
  ⟨consentMessage_consents _, fun _ _ => rfl⟩

theorem foundingRecord_agreed : Agreed (List.replicate 3 foundingRecord) :=
  agreed_replicate 3 foundingRecord

/-- Driven from the node that was missed, the second run brings the cluster together. -/
theorem rerun_heals_missed_driver
    : Agreed
        (threeNodes.nodesAfter removeRequest 2 (deliveredTo (fun _ => true))
          (threeNodes.nodesAfter removeRequest 2 (deliveredTo (fun node => node < 2))
            (List.replicate 3 foundingRecord))) := by
  apply (threeNodes.rerun_heals_iff removeRequest foundingRecord_agreed rfl _
    (deliveredTo_reachesAll 3)).mpr
  exact .inl (fun seals => absurd ((deliveredTo_seals_iff _ 2).mp seals) (by decide))

/-- Driven from a node that sealed, the second run leaves the third node behind. -/
theorem rerun_leaves_third_behind
    : Agreed (List.replicate 3 foundingRecord)
      ∧ (deliveredTo (fun _ => true)).ReachesAll 3
      ∧ ¬ Agreed
          (threeNodes.nodesAfter removeRequest 0 (deliveredTo (fun _ => true))
            (threeNodes.nodesAfter removeRequest 0 (deliveredTo (fun node => node < 2))
              (List.replicate 3 foundingRecord))) := by
  refine ⟨foundingRecord_agreed, deliveredTo_reachesAll 3, ?_⟩
  have sealedDriver := (deliveredTo_seals_iff (fun node => node < 2) 0).mpr (by decide)
  have behind : ¬ (deliveredTo (fun node => node < 2)).Seals removeRequest
      foundingRecord.epoch 2 :=
    fun seals => absurd ((deliveredTo_seals_iff _ 2).mp seals) (by decide)
  exact threeNodes.rerun_leaves_behind removeRequest foundingRecord_agreed rfl sealedDriver
    (by decide) behind

end Membership

end PerpDex
