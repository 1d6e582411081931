import PerpDex.Lib.Gather
import PerpDex.Lib.StableSort
import PerpDex.Membership.Admin
import PerpDex.P2p.Dispatch
import PerpDex.Withdrawal.Lifecycle

/-! One withdrawal from its request to the submitted payment.
The margin check comes first and is handed the payment itself; the signers are then asked for
signatures over the same payment, in the order of the configuration, until the quorum has
signed.
-/

namespace PerpDex

namespace Withdrawal

open PerpDex.Membership Relay Gather

-----------------------------------------------------------------------------------------
-- The configuration and what is sent
-----------------------------------------------------------------------------------------

/-- The credentials of one operator. -/
structure SignerConfig where
  name : String
  enclaveUrl : String
  address : String
  sessionKey : String
  compressedPubkey : String
  xrplAddress : String

structure SignersConfig where
  signers : List SignerConfig
  quorum : UInt64
  localSigner : Option SignerConfig

/-- The signer whose enclave checks the margin. -/
def SignersConfig.local? (config : SignersConfig) : Option SignerConfig :=
  config.localSigner.or config.signers.head?

/-- The payment that is signed and submitted, as it is before its signatures. -/
def unsignedPayment (plan : Plan) (quorum : UInt64) : List (String × Json) :=
  [("TransactionType", .string "Payment"),
    ("Account", .string plan.escrow),
    ("Destination", .string plan.request.destination),
    ("Amount", .string (toString plan.amountDrops)),
    ("Fee", .string (toString (12 * (1 + quorum)))),
    ("Sequence", .number (.posInt plan.sequence.toUInt64)),
    ("LastLedgerSequence", .number (.posInt plan.lastLedgerSequence.toUInt64)),
    ("SigningPubKey", .string "")]
  ++ (plan.request.destinationTag.map
      (fun tag => ("DestinationTag", Json.number (.posInt tag.toUInt64)))).toList

/-- `saturating_mul` of the drops by 100. -/
def amountFp8 (amountDrops : UInt64) : UInt64 :=
  UInt64.ofNat (min (amountDrops.toNat * 100) (2 ^ 64 - 1))

/-- The claim each co-signer checks the payment against. -/
def Plan.claim (plan : Plan) : Cosigning.WithdrawalClaim where
  userId := plan.request.userId
  amountFp8 := toString (amountFp8 plan.amountDrops)

/-- `PerpClient::withdraw`: the body posted for the margin check. -/
def withdrawBody (plan : Plan) (signer : SignerConfig) (blob : List UInt8) : Json :=
  .object
    [("user_id", .string plan.request.userId),
      ("amount", .string plan.request.amount),
      ("escrow_account_id", .string signer.address),
      ("session_key", .string (String.ofList (Hex.trimStart0x signer.sessionKey.toList))),
      ("tx_blob", .string (Hex.encode blob))]

/-- What a signer is asked: a question on the relay, or a post to its enclave. -/
inductive SignQuestion where
  | relayed (request : SigningRequest)
  | posted (call : SignCall)

/-- `sign_via_p2p`: the whole transaction, for an account, with the claim. -/
def relayQuestion (plan : Plan) (txObj : List (String × Json)) (requestId : String)
    (signer : SignerConfig) (accountId : AccountId) : SigningRequest where
  requestId := requestId
  unsignedTx := .object txObj
  signerAccountIdHex := Hex.encode accountId.toList
  signerXrplAddress := signer.xrplAddress
  quorumBundle := none
  withdrawalUserId := some plan.claim.userId
  withdrawalAmountFp8 := some plan.claim.amountFp8

/-- `sign_with_enclave`: the key of the session is sent as it is configured. -/
def enclaveQuestion (plan : Plan) (signer : SignerConfig) (blob : List UInt8) : SignCall where
  url := signer.enclaveUrl ++ "/pool/sign/withdrawal-payment"
  body :=
    .object
      [("from", .string signer.address), ("session_key", .string signer.sessionKey),
        ("user_id", .string plan.claim.userId), ("amount_fp8", .string plan.claim.amountFp8),
        ("tx_blob", .string (Hex.encode blob))]

-----------------------------------------------------------------------------------------
-- What comes back
-----------------------------------------------------------------------------------------

/-- The signature and the key of an answer on the relay, where it has both and no error. -/
def relayedSignature : RelayAnswer → Option (String × String)
  | .message (.response _ (some der) (some pubkey) none) => some (der, pubkey)
  | _ => none

/-- The signature of an enclave, under the key of the configuration. -/
def postedSignature (uppercase : String → String) (signer : SignerConfig)
    : Cosigning.EnclaveCall → Option (String × String)
  | .replied body => do
      if (body.index "status").asStr ≠ some "success" then none
      let r ← Hex.decode (← ((body.index "signature").index "r").asStr)
      let s ← Hex.decode (← ((body.index "signature").index "s").asStr)
      some
        (Hex.encodeUpper (Cosigning.derEncodeSignature r s), uppercase signer.compressedPubkey)
  | _ => none

/-- An element of `Signers`. -/
structure Signature where
  account : String
  signingPubKey : String
  txnSignature : String
deriving DecidableEq

def Signature.toJson (signature : Signature) : Json :=
  .object
    [("Signer",
      .object
        [("Account", .string signature.account),
          ("SigningPubKey", .string signature.signingPubKey),
          ("TxnSignature", .string signature.txnSignature)])]

/-- `submit_multisigned`: the hash of an accepted transaction. -/
def submitMultisigned (answer : Except String Json) : Except String String := do
  let resp ← answer
  let result := resp.index "result"
  let engineResult := (result.index "engine_result").asStr.getD "unknown"
  if "tes".toList <+: engineResult.toList then
    .ok
      ((((result.index "tx_json").index "hash").asStr.or (result.index "hash").asStr).getD
        "unknown")
  else
    let message := (result.index "engine_result_message").asStr.getD ""
    .error s!"XRPL: {engineResult} — {message}"

/-- What a withdrawal meets; answers to questions are given by the place of the signer. -/
structure Surroundings where
  accountInfo : Except String Json
  serverInfo : Except String Json
  margin : EnclaveReply
  nowMs : UInt64
  client : Except String Unit
  requestId : Nat → String
  relay : Nat → RelayAnswer
  enclave : Nat → Cosigning.EnclaveCall
  submitted : Json → Except String Json
  laterMs : UInt64

/-- What a withdrawal has made the process do, in order. -/
inductive Effect where
  | withdraw (body : Json)
  | record (entry : PendingWithdrawal)
  | ask (question : SignQuestion)
  | submit (tx : Json)

-----------------------------------------------------------------------------------------
-- The withdrawal
-----------------------------------------------------------------------------------------

section Withdraw

variable (codec : Codec) (uppercase : String → String) (dropsOf : String → UInt64)

/-- One signer at its place: one whose address does not decode is passed over. -/
def askSigner (plan : Plan) (txObj : List (String × Json)) (blob : List UInt8)
    (relayed : Bool) (surroundings : Surroundings) (item : SignerConfig × Nat)
    : Attempt SignQuestion Signature :=
  match decodeXrplAddress codec.crypto codec.base58Decode item.1.xrplAddress with
  | .error _ => .skipped
  | .ok accountId =>
      let question : SignQuestion :=
        if relayed then
          .relayed (relayQuestion plan txObj (surroundings.requestId item.2) item.1 accountId)
        else .posted (enclaveQuestion plan item.1 blob)
      let signature :=
        if relayed then relayedSignature (surroundings.relay item.2)
        else postedSignature uppercase item.1 (surroundings.enclave item.2)
      match signature with
      | none => .refused question
      | some (der, pubkey) => .granted question ⟨item.1.xrplAddress, pubkey, der⟩

/-- The transaction with its signatures, ascending by account id. -/
def withSigners (txObj : List (String × Json)) (collected : List Signature) : Json :=
  .object
    (JsonTree.setMember txObj "Signers"
      (.array
        ((StableSort.sortBy
            (fun signature : Signature =>
              signerRank codec.crypto codec.base58Decode signature.account)
            collected).map Signature.toJson)))

/-- Collecting the signatures and submitting. -/
def multisign (config : SignersConfig) (plan : Plan) (txObj : List (String × Json))
    (blob : List UInt8) (relayed : Bool) (surroundings : Surroundings)
    : List Effect × MultisigOutcome :=
  match surroundings.client with
  | .error _ => ([], .noClient "failed to build HTTP client")
  | .ok _ =>
      let gathered :=
        gather (askSigner codec uppercase plan txObj blob relayed surroundings)
          config.quorum.toNat ⟨[], []⟩ config.signers.zipIdx
      let asks := gathered.asked.map Effect.ask
      if gathered.held.length < config.quorum.toNat then
        (asks, .insufficient gathered.held.length config.quorum.toNat)
      else
        let full := withSigners codec txObj gathered.held
        match submitMultisigned (surroundings.submitted full) with
        | .error e => (asks ++ [.submit full], .failed e)
        | .ok hash => (asks ++ [.submit full], .submitted hash)

/-- Why the margin check stops a withdrawal, if it does. -/
def marginRefusal : EnclaveReply → Option String
  | .ok resp =>
      if (resp.index "status").asStr = some "success" then none
      else some ((resp.index "message").asStr.getD "margin check failed")
  | .error e => some s!"Enclave error: {e}"

/-- The answer to a request without a hash. -/
def unsubmitted (request : WithdrawRequest) (status message : String) : WithdrawResult where
  status := status
  amount := request.amount
  destination := request.destination
  xrplTxHash := none
  message := message

/-- The entry a withdrawal leaves in the journal, if it was given one. -/
def journalEntry (journaled : Bool) (plan : Plan) (submittedHash : Option String)
    (nowMs : UInt64) : List Effect :=
  if journaled then [.record (mkJournalEntry plan submittedHash nowMs)] else []

/-- `process_withdrawal`, with the effects it has; `relayed` is whether it was given the relay
and `journaled` whether it was given the journal.
-/
def processWithdrawal (config : SignersConfig) (escrow : String) (request : WithdrawRequest)
    (relayed journaled : Bool) (surroundings : Surroundings)
    : List Effect × Except String WithdrawResult :=
  match planWithdrawal escrow request (dropsOf request.amount) surroundings.accountInfo
    surroundings.serverInfo with
  | .error e => ([], .error e)
  | .ok plan =>
      let txObj := unsignedPayment plan config.quorum
      match config.local? with
      | none => ([], .error "no signers configured (need local_signer or at least one signer)")
      | some signer =>
          match codec.serializeJsonObject txObj with
          | .error e => ([], .error s!"serialise for signing failed: {e}")
          | .ok blob =>
              let checked := Effect.withdraw (withdrawBody plan signer blob)
              match marginRefusal surroundings.margin with
              | some message => ([checked], .ok (unsubmitted request "error" message))
              | none =>
                  let (signing, outcome) :=
                    multisign codec uppercase config plan txObj blob relayed surroundings
                  let effects :=
                    checked :: journalEntry journaled plan none surroundings.nowMs ++ signing
                  match outcome with
                  | .noClient e => (effects, .error e)
                  | .insufficient collected quorum =>
                      (effects, .ok (unsubmitted request "error"
                        s!"only {collected} of {quorum} required signatures collected"))
                  | .failed e =>
                      (effects, .ok (unsubmitted request "signed_but_not_submitted"
                        s!"Signatures collected but XRPL submission failed: {e}. Balance already deducted."))
                  | .submitted hash =>
                      (effects
                          ++ journalEntry journaled plan (some hash) surroundings.laterMs,
                        .ok
                          { status := "success"
                            amount := request.amount
                            destination := request.destination
                            xrplTxHash := some hash
                            message := "multisig withdrawal submitted to XRPL" })

-----------------------------------------------------------------------------------------
-- What is submitted
-----------------------------------------------------------------------------------------

/-- The signatures a withdrawal would collect if all signers were asked. -/
def signatures (config : SignersConfig) (plan : Plan) (blob : List UInt8) (relayed : Bool)
    (surroundings : Surroundings) : List Signature :=
  answers (askSigner codec uppercase plan (unsignedPayment plan config.quorum) blob relayed
    surroundings) config.signers.zipIdx

/-- The questions a withdrawal asks: up to the signer whose signature completes the quorum. -/
def questions (config : SignersConfig) (plan : Plan) (blob : List UInt8) (relayed : Bool)
    (surroundings : Surroundings) : List SignQuestion :=
  let ask :=
    askSigner codec uppercase plan (unsignedPayment plan config.quorum) blob relayed surroundings
  requests ask (tried ask config.quorum.toNat config.signers.zipIdx)

/-- The payment is planned and written, and the margin check has let it pass. -/
structure Reserves (config : SignersConfig) (escrow : String) (request : WithdrawRequest)
    (surroundings : Surroundings) (plan : Plan) (signer : SignerConfig) (blob : List UInt8)
    : Prop where
  planned
    : planWithdrawal escrow request (dropsOf request.amount) surroundings.accountInfo
        surroundings.serverInfo
      = .ok plan
  configured : config.local? = some signer
  written : codec.serializeJsonObject (unsignedPayment plan config.quorum) = .ok blob
  passed : marginRefusal surroundings.margin = none

/-- The place of a signature in the canonical order. -/
def Signature.rank (signature : Signature) : List UInt8 :=
  signerRank codec.crypto codec.base58Decode signature.account

variable {codec uppercase dropsOf}

variable {config : SignersConfig} {escrow : String} {request : WithdrawRequest}
  {relayed journaled : Bool} {surroundings : Surroundings}

/-- The walk asks the questions and holds the first signatures, as many as the quorum. -/
theorem gathered_eq (plan : Plan) (blob : List UInt8)
    : gather (askSigner codec uppercase plan (unsignedPayment plan config.quorum) blob relayed
          surroundings) config.quorum.toNat ⟨[], []⟩ config.signers.zipIdx
      = ⟨questions codec uppercase config plan blob relayed surroundings,
          (signatures codec uppercase config plan blob relayed surroundings).take
            config.quorum.toNat⟩ := by
  rw [gather_eq, List.length_nil, Nat.sub_zero, List.nil_append, List.nil_append, answers_tried]
  rfl

/-- How collecting and submitting ends: with too few signatures, or with the answer to the
submission of the assembled payment.
-/
theorem multisign_eq (plan : Plan) (blob : List UInt8)
    : multisign codec uppercase config plan (unsignedPayment plan config.quorum) blob relayed
        surroundings
      = match surroundings.client with
        | .error _ => ([], .noClient "failed to build HTTP client")
        | .ok _ =>
            let asks :=
              (questions codec uppercase config plan blob relayed surroundings).map Effect.ask
            let signed := signatures codec uppercase config plan blob relayed surroundings
            if signed.length < config.quorum.toNat then
              (asks, .insufficient signed.length config.quorum.toNat)
            else
              let full :=
                withSigners codec (unsignedPayment plan config.quorum)
                  (signed.take config.quorum.toNat)
              (asks ++ [.submit full],
                match submitMultisigned (surroundings.submitted full) with
                | .error e => .failed e
                | .ok hash => .submitted hash) := by
  rw [multisign, gathered_eq]
  cases surroundings.client with
  | error e => rfl
  | ok _ =>
      dsimp only
      rw [List.length_take]
      split_ifs with tooFew reached reached
      · rw [Nat.min_eq_right (le_of_lt reached)]
      · omega
      · omega
      · cases submitMultisigned _ <;> rfl

/-- The hash an outcome comes with. -/
def submittedHash : MultisigOutcome → Option String
  | .submitted hash => some hash
  | _ => none

/-- The effects from the margin check on, once it has let the payment pass. -/
def effectsFrom (journaled : Bool) (surroundings : Surroundings) (plan : Plan)
    (signer : SignerConfig) (blob : List UInt8) (signed : List Effect × MultisigOutcome)
    : List Effect :=
  .withdraw (withdrawBody plan signer blob)
    :: journalEntry journaled plan none surroundings.nowMs ++ signed.1
    ++ match signed.2 with
      | .submitted hash => journalEntry journaled plan (some hash) surroundings.laterMs
      | _ => []

theorem effects_of_reserves {plan : Plan} {signer : SignerConfig} {blob : List UInt8}
    (reserves : Reserves codec dropsOf config escrow request surroundings plan signer blob)
    : (processWithdrawal codec uppercase dropsOf config escrow request relayed journaled
        surroundings).1
      = effectsFrom journaled surroundings plan signer blob
          (multisign codec uppercase config plan (unsignedPayment plan config.quorum) blob relayed
            surroundings) := by
  rw [processWithdrawal, reserves.planned]
  dsimp only
  rw [reserves.configured, reserves.written]
  dsimp only
  rw [reserves.passed]
  dsimp only
  obtain ⟨signing, outcome⟩ := multisign codec uppercase config plan
    (unsignedPayment plan config.quorum) blob relayed surroundings
  cases outcome <;> simp [effectsFrom]

variable (uppercase relayed journaled) in
/-- A withdrawal that does not get past the margin check does nothing else. -/
theorem effects_of_not_reserves
    (stopped : ∀ plan signer blob,
      ¬ Reserves codec dropsOf config escrow request surroundings plan signer blob)
    : (∀ effect ∈ (processWithdrawal codec uppercase dropsOf config escrow request relayed
          journaled surroundings).1, ∃ body, effect = .withdraw body)
      ∧ ∀ result, (processWithdrawal codec uppercase dropsOf config escrow request relayed
          journaled surroundings).2 = .ok result → result.xrplTxHash = none := by
  rw [processWithdrawal]
  cases planned : planWithdrawal escrow request (dropsOf request.amount) surroundings.accountInfo
    surroundings.serverInfo with
  | error e => simp
  | ok plan =>
      dsimp only
      cases configured : config.local? with
      | none => simp
      | some signer =>
          dsimp only
          cases written : codec.serializeJsonObject (unsignedPayment plan config.quorum) with
          | error e => simp
          | ok blob =>
              dsimp only
              cases passed : marginRefusal surroundings.margin with
              | none =>
                  have reached := stopped plan signer blob
                  exact absurd ⟨planned, configured, written, passed⟩ reached
              | some message => simp [unsubmitted]

/-- Asking for a signature and submitting are what can spend. -/
def Effect.Spends : Effect → Prop
  | .ask _ | .submit _ => True
  | _ => False

theorem not_spends_journalEntry {plan : Plan} {submittedHash : Option String} {nowMs : UInt64}
    {effect : Effect} (inEntry : effect ∈ journalEntry journaled plan submittedHash nowMs)
    : ¬ effect.Spends := by
  cases journaled with
  | false => simp [journalEntry] at inEntry
  | true =>
      obtain rfl := List.mem_singleton.mp inEntry
      exact not_false

theorem Reserves.unique {plan other : Plan} {signer another : SignerConfig}
    {blob bytes : List UInt8}
    (reserves : Reserves codec dropsOf config escrow request surroundings plan signer blob)
    (also : Reserves codec dropsOf config escrow request surroundings other another bytes)
    : plan = other ∧ signer = another ∧ blob = bytes := by
  obtain rfl := Except.ok.inj (reserves.planned.symm.trans also.planned)
  exact ⟨rfl, Option.some.inj (reserves.configured.symm.trans also.configured),
    Except.ok.inj (reserves.written.symm.trans also.written)⟩

section Reserved

variable {plan : Plan} {signer : SignerConfig} {blob : List UInt8}

theorem spends_of_mem_multisign {effect : Effect}
    (isIn : effect ∈ (multisign codec uppercase config plan (unsignedPayment plan config.quorum)
        blob relayed surroundings).1)
    : effect.Spends := by
  rw [multisign_eq] at isIn
  cases client : surroundings.client with
  | error e => simp [client] at isIn
  | ok _ =>
      rw [client] at isIn
      dsimp only at isIn
      split_ifs at isIn with tooFew
      · obtain ⟨question, _, rfl⟩ := List.mem_map.mp isIn
        trivial
      · rcases List.mem_append.mp isIn with asked | submitted
        · obtain ⟨question, _, rfl⟩ := List.mem_map.mp asked
          trivial
        · obtain rfl := List.mem_singleton.mp submitted
          trivial

end Reserved

theorem mem_effectsFrom_iff {plan : Plan} {signer : SignerConfig} {blob : List UInt8}
    {signed : List Effect × MultisigOutcome} {effect : Effect} (spends : effect.Spends)
    : effect ∈ effectsFrom journaled surroundings plan signer blob signed ↔ effect ∈ signed.1 := by
  have outside : ∀ hash nowMs, effect ∉ journalEntry journaled plan hash nowMs :=
    fun hash nowMs inEntry => not_spends_journalEntry inEntry spends
  have notFirst : effect ≠ .withdraw (withdrawBody plan signer blob) := by
    rintro rfl
    exact spends
  rw [effectsFrom]
  cases signed.2 <;> simp [outside, notFirst]

theorem exists_reserves_of_mem {effect : Effect}
    (isIn : effect ∈ (processWithdrawal codec uppercase dropsOf config escrow request relayed
      journaled surroundings).1)
    (spends : effect.Spends)
    : ∃ plan signer blob,
        Reserves codec dropsOf config escrow request surroundings plan signer blob := by
  by_contra stopped
  obtain ⟨quiet, _⟩ := effects_of_not_reserves uppercase relayed journaled
    (fun plan signer blob reserves => stopped ⟨plan, signer, blob, reserves⟩)
  obtain ⟨body, rfl⟩ := quiet effect isIn
  exact spends

theorem planWithdrawal_ok {amountDrops : UInt64} {accountInfo serverInfo : Except String Json}
    {plan : Plan}
    (planned : planWithdrawal escrow request amountDrops accountInfo serverInfo = .ok plan)
    : plan.escrow = escrow ∧ plan.request = request ∧ plan.amountDrops = amountDrops := by
  rw [planWithdrawal] at planned
  cases read : ownValidatedLedger serverInfo with
  | error e => simp [read] at planned
  | ok validatedLedger =>
      rw [read] at planned
      dsimp only at planned
      split_ifs at planned
      cases planned
      exact ⟨rfl, rfl, rfl⟩

/-- Who is asked does not depend on the answer. -/
theorem request_askSigner (plan : Plan) (txObj : List (String × Json)) (blob : List UInt8)
    (item : SignerConfig × Nat)
    : (askSigner codec uppercase plan txObj blob relayed surroundings item).request
      = match decodeXrplAddress codec.crypto codec.base58Decode item.1.xrplAddress with
        | .error _ => none
        | .ok accountId =>
            some
              (if relayed then
                .relayed (relayQuestion plan txObj (surroundings.requestId item.2) item.1 accountId)
              else .posted (enclaveQuestion plan item.1 blob)) := by
  rw [askSigner]
  cases decodeXrplAddress codec.crypto codec.base58Decode item.1.xrplAddress with
  | error e => rfl
  | ok accountId =>
      dsimp only
      split <;> rfl

/-- A question on the relay is about the payment of the withdrawal, for the account of the signer
it is addressed to.
-/
theorem relayed_of_asked {plan : Plan} {signer : SignerConfig} {blob : List UInt8}
    (reserves : Reserves codec dropsOf config escrow request surroundings plan signer blob)
    {question : SigningRequest}
    (asked : .ask (.relayed question) ∈ (processWithdrawal codec uppercase dropsOf config escrow
      request relayed journaled surroundings).1)
    : ∃ requestId asksFor accountId,
        decodeXrplAddress codec.crypto codec.base58Decode asksFor.xrplAddress = .ok accountId
        ∧ question
          = relayQuestion plan (unsignedPayment plan config.quorum) requestId asksFor
              accountId := by
  have spends : (Effect.ask (.relayed question)).Spends := trivial
  rw [effects_of_reserves reserves, mem_effectsFrom_iff spends, multisign_eq] at asked
  have inQuestions
      : .relayed question ∈ questions codec uppercase config plan blob relayed surroundings := by
    cases client : surroundings.client with
    | error e => simp [client] at asked
    | ok _ =>
        rw [client] at asked
        dsimp only at asked
        split_ifs at asked with tooFew <;> simpa using asked
  obtain ⟨item, _, made⟩ := List.mem_filterMap.mp inQuestions
  rw [request_askSigner] at made
  cases decoded : decodeXrplAddress codec.crypto codec.base58Decode item.1.xrplAddress with
  | error e => simp [decoded] at made
  | ok accountId =>
      rw [decoded] at made
      refine ⟨surroundings.requestId item.2, item.1, accountId, decoded, ?_⟩
      cases relayed with
      | false => simp at made
      | true => exact (SignQuestion.relayed.inj (Option.some.inj made)).symm

/-- A co-signer that is asked for its own account lets the enclave sign exactly if the payment
goes to an r-address other than the escrow and can be hashed, and then with the bytes the margin
check was given and the amount they spend.
-/
theorem cosigners_sign_checked_payment (codec : Codec) (uppercase : String → String)
    (dropsOf : String → UInt64) (config : SignersConfig) (escrow : String)
    (request : WithdrawRequest) (relayed journaled : Bool) (surroundings : Surroundings)
    {question : SigningRequest}
    (asked : .ask (.relayed question) ∈ (processWithdrawal codec uppercase dropsOf config escrow
      request relayed journaled surroundings).1)
    (cosigner : Relay.LocalSigner)
    (addressed : cosigner.xrplAddress = question.signerXrplAddress)
    : ∃ plan signer blob accountId claim,
        .withdraw (withdrawBody plan signer blob)
          ∈ (processWithdrawal codec uppercase dropsOf config escrow request relayed journaled
              surroundings).1
        ∧ question.unsignedTx = .object (unsignedPayment plan config.quorum)
        ∧ decodeXrplAddress codec.crypto codec.base58Decode cosigner.xrplAddress = .ok accountId
        ∧ claim.userId = request.userId
        ∧ parseU64 claim.amountFp8
          = some (min ((dropsOf request.amount).toNat * 100) (2 ^ 64 - 1))
        ∧ ∀ call, requestedCall codec cosigner (some escrow) question = .ok call
            ↔ request.destination ≠ escrow ∧ request.destination.toList.head? = some 'r'
              ∧ (∃ hash, codec.multiSigningHash (unsignedPayment plan config.quorum) accountId
                  = .ok hash)
              ∧ call = paymentCall cosigner claim (Hex.encode blob) := by
  obtain ⟨plan, signer, blob, reserves⟩ := exists_reserves_of_mem asked trivial
  obtain ⟨requestId, asksFor, accountId, decoded, rfl⟩ := relayed_of_asked reserves asked
  obtain ⟨rfl, rfl, isDrops⟩ := planWithdrawal_ok reserves.planned
  have isDecoded
      : decodeXrplAddress codec.crypto codec.base58Decode cosigner.xrplAddress = .ok accountId := by
    rw [addressed]
    exact decoded
  refine ⟨plan, signer, blob, accountId, plan.claim, ?_, rfl, isDecoded, rfl, ?_, fun call => ?_⟩
  · rw [effects_of_reserves reserves]
    exact List.mem_cons_self
  · show parseU64 (toString (amountFp8 plan.amountDrops)) = _
    rw [parseU64_toString, amountFp8, UInt64.toNat_ofNat_of_lt' (show _ < 2 ^ 64 by omega), isDrops]
  · rw [requestedCall_ok_iff]
    have found : ∀ key value, (unsignedPayment plan config.quorum).lookup key = some value →
        ∀ text, value.asStr = some text →
        ((unsignedPayment plan config.quorum).lookup key).bind Json.asStr = some text :=
      fun key value isValue text isText => by rw [isValue]; exact isText
    have destination := found "Destination" _ rfl _ rfl
    constructor
    · rintro ⟨escrow, txObj, other, hash, bytes, isEscrow, isObject, -, -, named, hashed, written,
        sanctioned⟩
      obtain rfl := Option.some.inj isEscrow
      obtain rfl := Json.object.inj isObject
      obtain ⟨rfl, -⟩ := namesSigner_encode_iff.mp named
      obtain rfl := Except.ok.inj (reserves.written.symm.trans written)
      cases sanctioned with
      | signerList _ isType =>
          have payment := found "TransactionType" _ rfl _ rfl
          exact absurd (Option.some.inj (payment.symm.trans isType)) (by decide)
      | payment terms _ claimed =>
          obtain ⟨⟨other, isDestination, notEscrow, isAddress⟩, _⟩ := terms
          obtain rfl := Option.some.inj (destination.symm.trans isDestination)
          obtain rfl := Option.some.inj claimed
          exact ⟨notEscrow, isAddress, ⟨hash, hashed⟩, rfl⟩
    · rintro ⟨notEscrow, isAddress, ⟨hash, hashed⟩, rfl⟩
      exact ⟨plan.escrow, unsignedPayment plan config.quorum, accountId, hash, blob, rfl, rfl,
        found "Account" _ rfl _ rfl, found "SigningPubKey" _ rfl _ rfl,
        namesSigner_encode_iff.mpr ⟨rfl, isDecoded⟩, hashed, reserves.written,
        .payment ⟨⟨_, destination, notEscrow, isAddress⟩, rfl⟩
          (found "TransactionType" _ rfl _ rfl) rfl⟩

end Withdraw

def sampleOperator : SignerConfig where
  name := "operator"
  enclaveUrl := sampleSigner.enclaveUrl
  address := sampleSigner.address
  sessionKey := sampleSigner.sessionKey
  compressedPubkey := sampleSigner.compressedPubkey
  xrplAddress := sampleSigner.xrplAddress

def sampleRequested : WithdrawRequest where
  userId := "user"
  amount := "1"
  destination := "rUser"
  destinationTag := none

/-- The margin check passes and nobody answers. -/
def silentSurroundings : Surroundings where
  accountInfo := .error "unreachable"
  serverInfo :=
    .ok
      (.object
        [("result",
          .object
            [("info",
              .object [("validated_ledger", .object [("seq", .number (.posInt 7))])])])])
  margin := .ok (.object [("status", .string "success")])
  nowMs := 0
  client := .ok ()
  requestId := fun _ => "request"
  relay := fun _ => .dropped
  enclave := fun _ => .noClient ""
  submitted := fun _ => .error ""
  laterMs := 0

def samplePlan : Plan where
  escrow := "rEscrow"
  sequence := 1
  lastLedgerSequence := 47
  amountDrops := 1000000
  request := sampleRequested

def sampleQuestion : SigningRequest :=
  relayQuestion samplePlan (unsignedPayment samplePlan 1) "request" sampleOperator sampleAccount

theorem sampleQuestion_asked
    : .ask (.relayed sampleQuestion) ∈ (processWithdrawal sampleCodec id (fun _ => 1000000)
        ⟨[sampleOperator], 1, none⟩ "rEscrow" sampleRequested true true silentSurroundings).1 := by
  have reserves : Reserves sampleCodec (fun _ => 1000000) ⟨[sampleOperator], 1, none⟩ "rEscrow"
      sampleRequested silentSurroundings samplePlan sampleOperator [0x12, 0x00, 0x00] :=
    ⟨rfl, rfl, rfl, rfl⟩
  have spends : (Effect.ask (.relayed sampleQuestion)).Spends := trivial
  have decoded
      : decodeXrplAddress sampleCodec.crypto sampleCodec.base58Decode sampleOperator.xrplAddress
        = .ok sampleAccount :=
    sampleSigner_named.1
  have asked : questions sampleCodec id ⟨[sampleOperator], 1, none⟩ samplePlan
      [0x12, 0x00, 0x00] true silentSurroundings = [.relayed sampleQuestion] := by
    have ignored : askSigner sampleCodec id samplePlan (unsignedPayment samplePlan 1)
        [0x12, 0x00, 0x00] true silentSurroundings (sampleOperator, 0)
        = .refused (.relayed sampleQuestion) := by
      rw [askSigner, decoded]
      rfl
    show requests _ (tried _ 1 [(sampleOperator, 0)]) = _
    rw [tried, ignored]
    show [(sampleOperator, 0)].filterMap _ = _
    rw [List.filterMap_cons, ignored]
    rfl
  rw [effects_of_reserves reserves, mem_effectsFrom_iff spends, multisign_eq]
  show _ ∈ (if _ then _ else _ : List Effect × MultisigOutcome).1
  rw [asked]
  split_ifs <;> simp

/-- Witness: `cosigners_sign_checked_payment` for an operator that has not answered yet. -/
theorem cosigners_sign_checked_payment_sample
    : .ask (.relayed sampleQuestion) ∈ (processWithdrawal sampleCodec id (fun _ => 1000000)
          ⟨[sampleOperator], 1, none⟩ "rEscrow" sampleRequested true true silentSurroundings).1
      ∧ ∃ call, requestedCall sampleCodec sampleSigner (some "rEscrow") sampleQuestion
          = .ok call := by
  refine ⟨sampleQuestion_asked, ?_⟩
  obtain ⟨plan, signer, blob, accountId, claim, _, _, _, _, _, signs⟩ :=
    cosigners_sign_checked_payment sampleCodec id (fun _ => 1000000) ⟨[sampleOperator], 1, none⟩
      "rEscrow" sampleRequested true true silentSurroundings sampleQuestion_asked sampleSigner rfl
  exact ⟨_, (signs _).mpr ⟨by decide, rfl, ⟨_, rfl⟩, rfl⟩⟩

end Withdrawal

end PerpDex
