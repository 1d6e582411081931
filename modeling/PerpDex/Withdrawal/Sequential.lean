import PerpDex.Withdrawal.Multisig

/-! A withdrawal as one course of the node it runs on.
What the whole function does is what the node does when it takes the steps of this withdrawal,
whatever else the node has in hand.
-/

namespace PerpDex

namespace Withdrawal

open PerpDex.Membership Relay

section Course

variable (codec : Codec) (uppercase : String → String) (dropsOf : String → UInt64)

/-- The steps of one withdrawal on its node, where it is the run of an index and the enclave
takes its margin check in some way.
-/
def courseEvents (config : SignersConfig) (escrow : String) (request : WithdrawRequest)
    (relayed : Bool) (surroundings : Surroundings) (index : Nat) (answer : EnclaveAnswer)
    : List Event :=
  .request escrow request surroundings.accountInfo surroundings.serverInfo ::
    match planWithdrawal escrow request (dropsOf request.amount) surroundings.accountInfo
      surroundings.serverInfo with
    | .error _ => []
    | .ok plan =>
        let txObj := unsignedPayment plan config.quorum
        match config.local? with
        | none =>
            [.giveUp index "no signers configured (need local_signer or at least one signer)"]
        | some _ =>
            match codec.serializeJsonObject txObj with
            | .error e => [.giveUp index s!"serialise for signing failed: {e}"]
            | .ok blob =>
                .withdraw index answer ::
                  match marginRefusal surroundings.margin with
                  | some _ => []
                  | none =>
                      [.record index surroundings.nowMs,
                        .submit index
                          (multisign codec uppercase config plan txObj blob relayed
                            surroundings).2,
                        .refresh index surroundings.laterMs]

def Effect.record? : Effect → Option PendingWithdrawal
  | .record entry => some entry
  | _ => none

variable (crypto : Crypto)
  (buildDepositProof : Json → Nat → List (List UInt8) → Except String (List UInt8))
  (subject : List UInt8 → Slot)

/-- The node behind some steps. -/
def Node.after (node : Node) (events : List Event) : Node :=
  events.foldl (Node.step crypto dropsOf buildDepositProof subject) node

/-- The run a step is one of. -/
def Event.run? : Event → Option Nat
  | .giveUp run _ | .withdraw run _ | .record run _ | .submit run _ | .refresh run _ => some run
  | _ => none

/-- The node has one more run, at some stage, and is otherwise as given. -/
def Node.withRun (node : Node) (journal : Journal) (enclave : Enclave) (plan : Plan)
    (stage : Stage) : Node :=
  { node with
    journal := journal
    enclave := enclave
    runs := node.runs ++ [⟨plan, stage⟩] }

variable {codec uppercase dropsOf crypto buildDepositProof subject}

section Steps

variable {node : Node} {journal : Journal} {enclave : Enclave} {plan : Plan} {stage : Stage}

/-- A step of the last run is taken by that run. -/
theorem Node.step_withRun {event : Event} (own : event.run? = some node.runs.length)
    : (node.withRun journal enclave plan stage).step crypto dropsOf buildDepositProof subject event
      = (node.withRun journal enclave plan stage).stepRun node.runs.length ⟨plan, stage⟩ event := by
  have last : (node.runs ++ [(⟨plan, stage⟩ : Run)])[node.runs.length]? = some ⟨plan, stage⟩ := by
    rw [List.getElem?_append_right (le_refl _), Nat.sub_self]
    rfl
  cases event with
  | request | snapshot | look | call | settle => cases own
  | giveUp run _ | withdraw run _ | record run _ | submit run _ | refresh run _ =>
      obtain rfl := Option.some.inj own
      simp only [Node.step, Node.withRun, last]

theorem set_last (next : Stage)
    : (node.runs ++ [(⟨plan, stage⟩ : Run)]).set node.runs.length ⟨plan, next⟩
      = node.runs ++ [⟨plan, next⟩] := by
  rw [List.set_append_right _ _ (le_refl _), Nat.sub_self]
  rfl

theorem Node.withRun_giveUp (error : String)
    : (node.withRun journal enclave plan .planned).step crypto dropsOf buildDepositProof subject
        (.giveUp node.runs.length error)
      = node.withRun journal enclave plan (.returned (.error error)) := by
  rw [Node.step_withRun rfl]
  simp only [Node.stepRun, Node.withRun, set_last]

theorem Node.withRun_withdraw (answer : EnclaveAnswer)
    : (node.withRun journal enclave plan .planned).step crypto dropsOf buildDepositProof subject
        (.withdraw node.runs.length answer)
      = node.withRun journal
          (if (answer.within (enclave.accepts plan.slot)).effective then
            enclave.reserve plan.slot node.runs.length
          else enclave)
          plan (afterMargin plan (answer.within (enclave.accepts plan.slot)).withdrawReply) := by
  rw [Node.step_withRun rfl]
  simp only [Node.stepRun, Node.withRun, set_last]
  rfl

theorem Node.withRun_record (nowMs : UInt64)
    : (node.withRun journal enclave plan .reserved).step crypto dropsOf buildDepositProof subject
        (.record node.runs.length nowMs)
      = node.withRun (journal.upsert (mkJournalEntry plan none nowMs)) enclave plan
          .journaled := by
  rw [Node.step_withRun rfl]
  simp only [Node.stepRun, Node.withRun, set_last]

theorem Node.withRun_submit (outcome : MultisigOutcome)
    : (node.withRun journal enclave plan .journaled).step crypto dropsOf buildDepositProof subject
        (.submit node.runs.length outcome)
      = node.withRun journal enclave plan (afterMultisig plan outcome) := by
  rw [Node.step_withRun rfl]
  simp only [Node.stepRun, Node.withRun, set_last]

theorem Node.withRun_refresh (nowMs : UInt64) (hash : String)
    : (node.withRun journal enclave plan (.submitted hash)).step crypto dropsOf buildDepositProof
        subject (.refresh node.runs.length nowMs)
      = node.withRun (journal.upsert (mkJournalEntry plan (some hash) nowMs)) enclave plan
          (withdrawResult plan "success" "multisig withdrawal submitted to XRPL" (some hash)) := by
  rw [Node.step_withRun rfl]
  simp only [Node.stepRun, Node.withRun, set_last]

/-- There is nothing to refresh once the run has returned. -/
theorem Node.withRun_refresh_returned (nowMs : UInt64) (result : Except String WithdrawResult)
    : (node.withRun journal enclave plan (.returned result)).step crypto dropsOf buildDepositProof
        subject (.refresh node.runs.length nowMs)
      = node.withRun journal enclave plan (.returned result) := by
  rw [Node.step_withRun rfl]
  simp only [Node.stepRun]

theorem Node.step_request {escrow : String} {request : WithdrawRequest}
    {accountInfo serverInfo : Except String Json}
    (planned : planWithdrawal escrow request (dropsOf request.amount) accountInfo serverInfo
      = .ok plan)
    : node.step crypto dropsOf buildDepositProof subject
        (.request escrow request accountInfo serverInfo)
      = node.withRun node.journal node.enclave plan .planned := by
  rw [Node.step, planned]
  rfl

end Steps

-----------------------------------------------------------------------------------------
-- The whole course
-----------------------------------------------------------------------------------------

theorem afterMargin_refused {plan : Plan} {reply : EnclaveReply} {message : String}
    (refused : marginRefusal reply = some message)
    : afterMargin plan reply
      = .returned (.ok (unsubmitted plan.request "error" message)) := by
  cases reply with
  | error e =>
      obtain rfl := Option.some.inj refused
      rfl
  | ok resp =>
      rw [marginRefusal] at refused
      split_ifs at refused with success
      obtain rfl := Option.some.inj refused
      rw [afterMargin, if_neg success]
      rfl

theorem afterMargin_passed {plan : Plan} {reply : EnclaveReply}
    (passed : marginRefusal reply = none)
    : afterMargin plan reply = .reserved := by
  cases reply with
  | error e => cases passed
  | ok resp =>
      rw [marginRefusal] at passed
      split_ifs at passed with success
      rw [afterMargin, if_pos success]

/-- Collecting and submitting notes nothing in the journal. -/
theorem records_multisign {config : SignersConfig} {plan : Plan} {blob : List UInt8}
    {relayed : Bool} {surroundings : Surroundings}
    : (multisign codec uppercase config plan (unsignedPayment plan config.quorum) blob relayed
        surroundings).1.filterMap Effect.record?
      = [] := by
  refine List.filterMap_eq_nil_iff.mpr (fun effect isIn => ?_)
  have spends := spends_of_mem_multisign isIn
  cases effect with
  | withdraw body => rfl
  | record entry => cases spends
  | ask question => rfl
  | submit tx => rfl

/-- The entries a withdrawal that has passed the margin check records. -/
theorem records_effectsFrom {config : SignersConfig} {surroundings : Surroundings} {plan : Plan}
    {signer : SignerConfig} {blob : List UInt8} {relayed : Bool}
    : (effectsFrom true surroundings plan signer blob
        (multisign codec uppercase config plan (unsignedPayment plan config.quorum) blob relayed
          surroundings)).filterMap Effect.record?
      = mkJournalEntry plan none surroundings.nowMs
        :: (((submittedHash (multisign codec uppercase config plan
              (unsignedPayment plan config.quorum) blob relayed surroundings).2).map
            (fun hash => mkJournalEntry plan (some hash) surroundings.laterMs)).toList) := by
  have first : ∀ body entry rest,
      (Effect.withdraw body :: ([Effect.record entry] ++ rest)).filterMap Effect.record?
        = entry :: rest.filterMap Effect.record? :=
    fun _ _ _ => rfl
  rw [effectsFrom, List.cons_append, List.cons_append, List.append_assoc]
  show (Effect.withdraw _ :: ([Effect.record _] ++ _)).filterMap Effect.record? = _
  rw [first, List.filterMap_append, records_multisign]
  cases (multisign codec uppercase config plan (unsignedPayment plan config.quorum) blob relayed
    surroundings).2 <;> rfl

/-- The answer of a withdrawal that has passed the margin check. -/
theorem result_of_reserves {config : SignersConfig} {escrow : String} {request : WithdrawRequest}
    {relayed journaled : Bool} {surroundings : Surroundings} {plan : Plan}
    {signer : SignerConfig} {blob : List UInt8}
    (reserves : Reserves codec dropsOf config escrow request surroundings plan signer blob)
    : (processWithdrawal codec uppercase dropsOf config escrow request relayed journaled
        surroundings).2
      = match (multisign codec uppercase config plan (unsignedPayment plan config.quorum) blob
          relayed surroundings).2 with
        | .noClient e => .error e
        | .insufficient collected quorum =>
            .ok (unsubmitted request "error"
              s!"only {collected} of {quorum} required signatures collected")
        | .failed e =>
            .ok (unsubmitted request "signed_but_not_submitted"
              s!"Signatures collected but XRPL submission failed: {e}. Balance already deducted.")
        | .submitted hash =>
            .ok
              { status := "success"
                amount := request.amount
                destination := request.destination
                xrplTxHash := some hash
                message := "multisig withdrawal submitted to XRPL" } := by
  rw [processWithdrawal, reserves.planned]
  dsimp only
  rw [reserves.configured, reserves.written]
  dsimp only
  rw [reserves.passed]
  dsimp only
  obtain ⟨signing, outcome⟩ := multisign codec uppercase config plan
    (unsignedPayment plan config.quorum) blob relayed surroundings
  cases outcome <;> rfl

/-- What a margin check leaves behind, under the answer the client has of it: a success is the
reservation of a slot above the high-water, a refusal reserves nothing, and of a call without an
answer either may be the case.
-/
structure MarginTaken (accepts : Bool) (reply : EnclaveReply) (taken : Bool) : Prop where
  free : taken = true → accepts = true
  success : marginRefusal reply = none → taken = true
  refusal : ∀ resp, reply = .ok resp → marginRefusal reply ≠ none → taken = false

/-- How a call went of which the answer and the effect are known. -/
def answerOf (reply : EnclaveReply) (taken : Bool) : EnclaveAnswer :=
  match reply with
  | .ok resp =>
      if (resp.index "status").asStr = some "success" then .accepted
      else .refused ((resp.index "message").asStr.getD "margin check failed")
  | .error e => if taken then .lost e else .failed e

namespace MarginTaken

variable {accepts taken : Bool} {reply : EnclaveReply}

/-- The call took effect in the model exactly if it did in the enclave, by cases on the answer. -/
theorem effective (check : MarginTaken accepts reply taken)
    : (answerOf reply taken).effective = taken := by
  cases reply with
  | error e => cases taken <;> rfl
  | ok resp =>
      by_cases success : (resp.index "status").asStr = some "success"
      · rw [answerOf, if_pos success, check.success (by rw [marginRefusal, if_pos success])]
        rfl
      · have refused : marginRefusal (.ok resp) ≠ none := by
          rw [marginRefusal, if_neg success]
          exact Option.some_ne_none _
        rw [answerOf, if_neg success, check.refusal resp rfl refused]
        rfl

/-- The high-water stands against no call that took effect. -/
theorem within (check : MarginTaken accepts reply taken)
    : (answerOf reply taken).within accepts = answerOf reply taken := by
  rw [EnclaveAnswer.within, check.effective]
  cases isTaken : taken with
  | false => rfl
  | true => rw [check.free isTaken]; rfl

end MarginTaken

/-- A withdrawal goes on from the modelled answer as from the one it has, since it reads no more
than the status and the message.
-/
theorem afterMargin_answerOf (plan : Plan) (reply : EnclaveReply) (taken : Bool)
    : afterMargin plan (answerOf reply taken).withdrawReply = afterMargin plan reply := by
  cases reply with
  | error e => cases taken <;> rfl
  | ok resp =>
      by_cases success : (resp.index "status").asStr = some "success"
      · rw [answerOf, if_pos success, afterMargin, if_pos success]
        rfl
      · rw [answerOf, if_neg success, afterMargin, if_neg success]
        rfl

def Effect.isWithdraw : Effect → Bool
  | .withdraw _ => true
  | _ => false

/-- The enclave behind some effects: the slot is held if the margin check was among them and took
effect.
-/
def Node.enclaveBehind (node : Node) (plan : Plan) (effects : List Effect) (taken : Bool)
    : Enclave :=
  if effects.any Effect.isWithdraw && taken then
    node.enclave.reserve plan.slot node.runs.length
  else node.enclave

/-- The node behind a withdrawal: its run has returned what the function returns, the journal has
the entries the function records, the enclave holds the slot if the margin check was asked for
and took effect, and the rest is as before.
-/
structure Followed (codec : Codec) (uppercase : String → String) (dropsOf : String → UInt64)
    (config : SignersConfig) (escrow : String) (request : WithdrawRequest) (relayed : Bool)
    (surroundings : Surroundings) (taken : Bool) (before after : Node) : Prop where
  unplanned
    : ∀ error,
        planWithdrawal escrow request (dropsOf request.amount) surroundings.accountInfo
            surroundings.serverInfo
          = .error error →
        after = before
          ∧ (processWithdrawal codec uppercase dropsOf config escrow request relayed true
              surroundings).2
            = .error error
  planned
    : ∀ plan,
        planWithdrawal escrow request (dropsOf request.amount) surroundings.accountInfo
            surroundings.serverInfo
          = .ok plan →
        after
          = before.withRun
              (((processWithdrawal codec uppercase dropsOf config escrow request relayed true
                  surroundings).1.filterMap Effect.record?).foldl Journal.upsert before.journal)
              (before.enclaveBehind plan
                (processWithdrawal codec uppercase dropsOf config escrow request relayed true
                  surroundings).1
                taken)
              plan
              (.returned
                (processWithdrawal codec uppercase dropsOf config escrow request relayed true
                  surroundings).2)

/-- A node that takes the steps of a withdrawal one after the other follows the function,
whatever the margin check answers and whether or not an answer that was lost left a slot held.
-/
theorem withdrawal_followed (codec : Codec) (uppercase : String → String)
    (dropsOf : String → UInt64) (crypto : Crypto)
    (buildDepositProof : Json → Nat → List (List UInt8) → Except String (List UInt8))
    (subject : List UInt8 → Slot) (config : SignersConfig) (escrow : String)
    (request : WithdrawRequest) (relayed : Bool) (surroundings : Surroundings) (taken : Bool)
    (node : Node)
    (check : ∀ plan,
      planWithdrawal escrow request (dropsOf request.amount) surroundings.accountInfo
          surroundings.serverInfo
        = .ok plan →
      MarginTaken (node.enclave.accepts plan.slot) surroundings.margin taken)
    : Followed codec uppercase dropsOf config escrow request relayed surroundings taken node
        (node.after dropsOf crypto buildDepositProof subject
          (courseEvents codec uppercase dropsOf config escrow request relayed surroundings
            node.runs.length (answerOf surroundings.margin taken))) := by
  constructor
  · intro error failed
    refine ⟨?_, by rw [processWithdrawal, failed]⟩
    rw [courseEvents, failed, Node.after, List.foldl_cons, Node.step, failed]
    rfl
  · intro plan planned
    have margin := check plan planned
    obtain ⟨rfl, rfl, -⟩ := planWithdrawal_ok planned
    rw [courseEvents, planned, Node.after, List.foldl_cons, Node.step_request planned]
    dsimp only
    cases configured : config.local? with
    | none =>
        rw [processWithdrawal, planned]
        dsimp only
        rw [configured, List.foldl_cons, Node.withRun_giveUp]
        rfl
    | some signer =>
        dsimp only
        cases written : codec.serializeJsonObject (unsignedPayment plan config.quorum) with
        | error e =>
            rw [processWithdrawal, planned]
            dsimp only
            rw [configured]
            dsimp only
            rw [written, List.foldl_cons, Node.withRun_giveUp]
            rfl
        | ok blob =>
            dsimp only
            rw [List.foldl_cons, Node.withRun_withdraw, margin.within, margin.effective,
              afterMargin_answerOf]
            cases passed : marginRefusal surroundings.margin with
            | some message =>
                rw [afterMargin_refused passed, processWithdrawal, planned]
                dsimp only
                rw [configured]
                dsimp only
                rw [written]
                dsimp only
                rw [passed]
                rfl
            | none =>
                have reserves : Reserves codec dropsOf config plan.escrow plan.request surroundings
                    plan signer blob :=
                  ⟨planned, configured, written, passed⟩
                rw [afterMargin_passed passed]
                dsimp only
                rw [List.foldl_cons, Node.withRun_record, List.foldl_cons, Node.withRun_submit,
                  effects_of_reserves reserves, records_effectsFrom, result_of_reserves reserves]
                cases (multisign codec uppercase config plan (unsignedPayment plan config.quorum)
                  blob relayed surroundings).2 with
                | submitted hash =>
                    rw [afterMultisig, List.foldl_cons, Node.withRun_refresh]
                    rfl
                | noClient =>
                    rw [afterMultisig, List.foldl_cons, Node.withRun_refresh_returned]
                    rfl
                | insufficient | failed =>
                    rw [afterMultisig, withdrawResult, List.foldl_cons,
                      Node.withRun_refresh_returned]
                    rfl

end Course

/-- The enclave reserves and hands back its own signature, the operator answers with another, and
the ledger takes the payment.
-/
def signedSurroundings : Surroundings :=
  { silentSurroundings with
    margin :=
      .ok
        (.object
          [("status", .string "success"),
            ("signature", .object [("r", .string "01"), ("s", .string "02")])])
    relay := fun _ => .message (.response "request" (some "3006") (some "02AB") none)
    submitted := fun _ =>
      .ok
        (.object
          [("result",
            .object
              [("engine_result", .string "tesSUCCESS"),
                ("tx_json", .object [("hash", .string "CAFE")])])]) }

/-- Witness: `withdrawal_followed` on a fresh node, where the operator signs. -/
theorem withdrawal_followed_signed
    : MarginTaken true signedSurroundings.margin true
      ∧ Followed sampleCodec id (fun _ => 1000000) ⟨[sampleOperator], 1, none⟩ "rEscrow"
          sampleRequested true signedSurroundings true Node.fresh
          (Node.fresh.after (fun _ => 1000000) membershipCrypto (fun _ _ _ => .error "")
            (fun _ => samplePlan.slot)
            (courseEvents sampleCodec id (fun _ => 1000000) ⟨[sampleOperator], 1, none⟩ "rEscrow"
              sampleRequested true signedSurroundings 0 .accepted)) := by
  have check : MarginTaken true signedSurroundings.margin true :=
    ⟨fun _ => rfl, fun _ => rfl, fun resp isReply refused => absurd rfl refused⟩
  exact ⟨check,
    withdrawal_followed sampleCodec id (fun _ => 1000000) membershipCrypto
      (fun _ _ _ => .error "") (fun _ => samplePlan.slot) ⟨[sampleOperator], 1, none⟩ "rEscrow"
      sampleRequested true signedSurroundings true Node.fresh (fun _ _ => check)⟩

end Withdrawal

end PerpDex
