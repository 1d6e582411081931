import PerpDex.Membership.SignerlistUpdate
import PerpDex.Withdrawal.Multisig

/-! Who lets its enclave sign a change of the signer list.
The endpoints of the operators ask for signatures without the bundle of an epoch, so no co-signer
has anything to give them; the projection of a sealed epoch asks with the bundle.
-/

namespace PerpDex

namespace Membership

open Relay Withdrawal

-----------------------------------------------------------------------------------------
-- The endpoints of the operators
-----------------------------------------------------------------------------------------

/-- One entry of the list on the ledger, at its place. -/
def readSignerEntry (i : Nat) (entry : Json) : Except String (String × UInt32) := do
  let inner := (entry.get "SignerEntry").getD .null
  let account ← okOr ((inner.get "Account").bind Json.asStr)
    s!"SignerEntries[{i}] missing SignerEntry.Account"
  let weight ← okOr ((inner.get "SignerWeight").bind Json.asU64)
    s!"SignerEntries[{i}] missing SignerEntry.SignerWeight"
  .ok (account, weight.toUInt32)

/-- `parse_signer_list_response`. -/
def parseSignerListResponse (resp : Json) : Except String (List (String × UInt32) × UInt32) := do
  let objects ← okOr (((resp.get "result").bind (Json.get "account_objects")).bind Json.asArray)
    "response missing result.account_objects"
  let signerList ← okOr
    (objects.find? (fun held => (held.index "LedgerEntryType").asStr = some "SignerList"))
    "escrow has no SignerList on chain (not yet bootstrapped?)"
  let entriesRaw ← okOr (signerList.index "SignerEntries").asArray
    "SignerList object missing SignerEntries array"
  let entries ← entriesRaw.zipIdx.mapM (fun item => readSignerEntry item.2 item.1)
  let quorum ← okOr (signerList.index "SignerQuorum").asU64 "SignerList missing SignerQuorum"
  .ok (entries, quorum.toUInt32)

/-- The state of the endpoints, as far as it is read. -/
structure AdminState where
  escrowAddress : String
  /-- The addresses of the configured signers. -/
  signers : List String

structure SignerlistUpdateRequest where
  add : List String
  remove : List String
  quorum : Option UInt32
  dryRun : Bool

structure SignerlistUpdateResponse where
  status : String
  currentSignerList : List String
  currentQuorum : UInt32
  newSignerList : List String
  newQuorum : UInt32
  xrplTxHash : Option String
  unsignedTx : Option Json
  message : String

/-- What an endpoint meets; the answers of the relay are in the order of the questions. -/
structure AdminSurroundings where
  accountObjects : Except String Json
  accountInfo : Except String Json
  requestId : Nat → String
  relay : Nat → RelayAnswer
  submitted : Json → Except String Json
  /-- The version the local enclave has sealed once the transaction has landed. -/
  sealed : Except String UInt64

section Endpoints

variable (codec : Codec)

/-- An address of the ledger that can be asked: it is configured and decodes. -/
def askable (state : AdminState) (currentAddr : String) : Option (String × String) :=
  if currentAddr ∈ state.signers then
    match decodeXrplAddress codec.crypto codec.base58Decode currentAddr with
    | .ok accountId => some (currentAddr, Hex.encode accountId.toList)
    | .error _ => none
  else none

/-- What an endpoint asks a signer: there is no bundle and no claim. -/
def adminQuestion (unsigned : Json) (requestId : String) (signer : String × String)
    : SigningRequest where
  requestId := requestId
  unsignedTx := unsigned
  signerAccountIdHex := signer.2
  signerXrplAddress := signer.1
  quorumBundle := none
  withdrawalUserId := none
  withdrawalAmountFp8 := none

/-- The transaction with the signatures that were collected. -/
def fullTx (unsigned : Json) (collected : List (String × String × String)) : Json :=
  withSigners codec ((unsigned.asObject).getD [])
    (collected.map (fun signed => ⟨signed.1, signed.2.1, signed.2.2⟩))

/-- `drive`, with the transactions it submits. -/
def drive (state : AdminState) (req : SignerlistUpdateRequest) (surroundings : AdminSurroundings)
    : List Json × Except String SignerlistUpdateResponse :=
  let drafted : Except String (List String × UInt32 × List String × UInt32 × Json) := do
    let (currentPairs, currentQuorum) ← surroundings.accountObjects >>= parseSignerListResponse
    let currentEntries := currentPairs.map Prod.fst
    let newEntries ←
      computeNewEntries codec.crypto codec.base58Decode currentEntries req.add req.remove
    let newQuorum ← targetQuorum req.quorum newEntries
    let sequence ← fetchAccountSequence surroundings.accountInfo
    .ok
      (currentEntries, currentQuorum, newEntries, newQuorum,
        buildUnsignedTx state.escrowAddress sequence newQuorum newEntries)
  match drafted with
  | .error e => ([], .error e)
  | .ok (currentEntries, currentQuorum, newEntries, newQuorum, unsigned) =>
      if req.dryRun then
        ([],
          .ok
            { status := "dry_run"
              currentSignerList := currentEntries
              currentQuorum
              newSignerList := newEntries
              newQuorum
              xrplTxHash := none
              unsignedTx := some unsigned
              message := "dry-run: tx constructed but not submitted" })
      else
        match collectSignatures surroundings.relay currentQuorum.toNat [] 0
          (currentEntries.filterMap (askable codec state)) with
        | .error e => ([], .error e)
        | .ok collected =>
            if collected.length < currentQuorum.toNat then
              ([], .error s!"collected {collected.length} of {currentQuorum} required signatures")
            else
              let full := fullTx codec unsigned collected
              match submitMultisigned (surroundings.submitted full) with
              | .error e => ([full], .error e)
              | .ok xrplHash =>
                  let sealMessage :=
                    match surroundings.sealed with
                    | .ok version => s!"sealed in enclave at version={version}"
                    | .error e =>
                        s!"WARNING: enclave seal-update failed: {e} — sealed state may diverge from "
                          ++ "chain; operator should investigate via GET /admin/signerlist/status"
                  ([full],
                    .ok
                      { status := "success"
                        currentSignerList := currentEntries
                        currentQuorum
                        newSignerList := newEntries
                        newQuorum
                        xrplTxHash := some xrplHash
                        unsignedTx := none
                        message := s!"SignerListSet submitted to XRPL — {sealMessage}" })

/-- Whatever comes back on the relay is what a co-signer answers to a question of an endpoint. -/
def AnsweredByCosigners (relay : Nat → RelayAnswer) : Prop :=
  ∀ index message, relay index = .message message →
    ∃ unsigned requestId signer jsonText uppercase call, ∃ cosigner : Relay.LocalSigner, ∃ escrow,
      message
        = Cosigning.handleSigningRequest jsonText uppercase cosigner.toLocalSigner
            ((requestedCall codec cosigner escrow (adminQuestion unsigned requestId signer)).map
              (fun _ => ()))
            call

variable {codec}

/-- A question without a claim and without a bundle makes no co-signer call its enclave. -/
theorem requestedCall_adminQuestion {cosigner : Relay.LocalSigner} {escrow : Option String}
    {unsigned : Json} {requestId : String} {signer : String × String}
    : ∃ reason, requestedCall codec cosigner escrow (adminQuestion unsigned requestId signer)
        = .error reason := by
  cases requested : requestedCall codec cosigner escrow
      (adminQuestion unsigned requestId signer) with
  | error reason => exact ⟨reason, rfl⟩
  | ok call =>
      obtain ⟨_, _, _, _, _, _, _, _, _, _, _, _, sanctioned⟩ := requestedCall_ok_iff.mp requested
      cases sanctioned with
      | payment _ _ claimed => cases claimed
      | signerList _ _ authorised => cases authorised

/-- No answer to an endpoint is a signature. -/
theorem AnsweredByCosigners.unsigned {relay : Nat → RelayAnswer}
    (answered : AnsweredByCosigners codec relay) {index : Nat} {addr der pk : String}
    : relay index ≠ .message (.response addr (some der) (some pk) none) := by
  intro signed
  obtain ⟨unsigned, requestId, signer, _, _, _, cosigner, escrow, same⟩ := answered _ _ signed
  obtain ⟨reason, refused⟩ :=
    @requestedCall_adminQuestion codec cosigner escrow unsigned requestId signer
  rw [refused] at same
  cases same

end Endpoints

section Projection

-----------------------------------------------------------------------------------------
-- What the co-signers answer to the projection
-----------------------------------------------------------------------------------------

/-- What the projection of a sealed epoch asks a signer: the bundle of the epoch comes along. -/
def projectionQuestion (unsigned : Json) (requestId quorumBundleHex : String)
    (signer : String × String) : SigningRequest where
  requestId := requestId
  unsignedTx := unsigned
  signerAccountIdHex := signer.2
  signerXrplAddress := signer.1
  quorumBundle := some quorumBundleHex
  withdrawalUserId := none
  withdrawalAmountFp8 := none

/-- An element for a signer has a weight of one. -/
theorem weight_of_entryFor {crypto : Crypto} {base58Decode : String → Option (List UInt8)}
    {signer : SignerEntry} {address : String}
    (entry : EntryFor crypto base58Decode (renderEntry crypto signer) address)
    : signer.weight = 1 := by
  obtain ⟨inner, ⟨_, _, _, isInner⟩, _, _, isWeight⟩ := entry.wraps
  cases isInner
  have value : signer.weight.toUInt64 = 1 := Option.some.inj isWeight
  apply UInt32.toNat_inj.mp
  rw [← UInt32.toNat_toUInt64, value]
  rfl

/-- A rendered set is within the rules exactly if it pays the least fee, every weight is one, no
account comes twice, and the number of signers and the quorum are in their bounds.
-/
theorem signerListTerms_render_iff {crypto : Crypto} {base58Decode : String → Option (List UInt8)}
    {signers : List SignerEntry} (readsBack : ReadsBack crypto base58Decode signers)
    (escrow : AccountId) (sequence : UInt32) (feeDrops : UInt64) (quorum : UInt32)
    {txObj : List (String × Json)}
    (rendered
      : renderSignerlistSet crypto escrow sequence feeDrops signers quorum = .object txObj)
    : SignerListTerms crypto base58Decode txObj
      ↔ multisigFeeMinDrops ≤ feeDrops.toNat
        ∧ (∀ signer ∈ signers, signer.weight = 1)
        ∧ (3 ≤ signers.length ∧ signers.length ≤ 8)
        ∧ (signers.map SignerEntry.accountId).Nodup
        ∧ (2 ≤ quorum.toNat ∧ quorum.toNat ≤ signers.length) := by
  have accepted : multisigFeeMinDrops ≤ feeDrops.toNat →
      (∀ signer ∈ signers, signer.weight = 1) →
      (SignerListTerms crypto base58Decode txObj
        ↔ (3 ≤ signers.length ∧ signers.length ≤ 8)
          ∧ (signers.map SignerEntry.accountId).Nodup
          ∧ (2 ≤ quorum.toNat ∧ quorum.toNat ≤ signers.length)) := by
    intro fee weights
    have gate := validate_render_ok_iff readsBack weights escrow sequence fee quorum
    rw [rendered] at gate
    exact (Option.some_inj.trans validateSignerlistSetSpecific_ok_iff).symm.trans gate
  constructor
  · intro terms
    have withinRules := terms
    obtain ⟨text, fee, isText, isFee, enough⟩ := terms.fee
    obtain ⟨entries, addresses, _, isEntries, each, _⟩ := terms.signers
    cases rendered
    have isShown : toString feeDrops = text := Option.some.inj isText
    rw [← isShown, parseU64_toString] at isFee
    have listed : (sortByAccountId signers).map (renderEntry crypto) = entries :=
      Option.some.inj isEntries
    have paid : multisigFeeMinDrops ≤ feeDrops.toNat := Option.some.inj isFee ▸ enough
    have weights : ∀ signer ∈ signers, signer.weight = 1 := by
      intro signer member
      have sorted := (sortByAccountId_perm signers).mem_iff.mpr member
      rw [← listed, List.forall₂_map_left_iff] at each
      obtain ⟨sameLength, paired⟩ := List.forall₂_iff_get.mp each
      obtain ⟨position, isSigner⟩ := List.mem_iff_get.mp sorted
      rw [← isSigner]
      exact weight_of_entryFor (paired position position.isLt (sameLength ▸ position.isLt))
    exact ⟨paid, weights, (accepted paid weights).mp withinRules⟩
  · intro given
    obtain ⟨paid, weights, rest⟩ := given
    exact (accepted paid weights).mpr rest

/-- A node that is handed the question of a projection lets its enclave sign exactly if it is
asked under its own address and account, the escrow is its own, the fee is at least the least
one, and the set is within the rules; it then hands the enclave the bytes of this set with the
bundle of the epoch.
-/
theorem projection_questions_signed_iff (codec : Codec) {signers : List SignerEntry}
    (readsBack : ReadsBack codec.crypto codec.base58Decode signers) (escrow : AccountId)
    (sequence : UInt32) (feeDrops : UInt64) (quorum : UInt32) (config : NodeConfig)
    (requestId bundle : String) (asked : String × String) (call : SignCall)
    : (config.job
          (.signing
            (.transaction
              (projectionQuestion
                (renderSignerlistSet codec.crypto escrow sequence feeDrops signers quorum)
                requestId bundle asked)))).bind
          (fun job => callOf codec config (.job job))
        = some call
      ↔ ∃ cosigner accountId,
          config.localSigner = some cosigner ∧ cosigner.xrplAddress = asked.1
          ∧ NamesSigner codec cosigner.xrplAddress asked.2 accountId
          ∧ config.escrowXrplAddress = some (accountIdToRAddress codec.crypto escrow)
          ∧ (multisigFeeMinDrops ≤ feeDrops.toNat
            ∧ (∀ signer ∈ signers, signer.weight = 1)
            ∧ (3 ≤ signers.length ∧ signers.length ≤ 8)
            ∧ (signers.map SignerEntry.accountId).Nodup
            ∧ (2 ≤ quorum.toNat ∧ quorum.toNat ≤ signers.length))
          ∧ ∃ txObj hash blob,
              renderSignerlistSet codec.crypto escrow sequence feeDrops signers quorum
                = .object txObj
              ∧ codec.multiSigningHash txObj accountId = .ok hash
              ∧ codec.serializeJsonObject txObj = .ok blob
              ∧ call = governanceCall cosigner bundle (Hex.encode blob) := by
  obtain ⟨txObj, rendered⟩ : ∃ txObj,
      renderSignerlistSet codec.crypto escrow sequence feeDrops signers quorum = .object txObj :=
    ⟨_, rfl⟩
  have found : ∀ key text,
      ((renderSignerlistSet codec.crypto escrow sequence feeDrops signers quorum).get key).bind
          Json.asStr = some text →
      (txObj.lookup key).bind Json.asStr = some text := by
    intro key text isText
    rw [rendered] at isText
    exact isText
  have isType := found "TransactionType" _ rfl
  have account := found "Account" _ rfl
  have withinRules := signerListTerms_render_iff readsBack escrow sequence feeDrops quorum rendered
  have reached : ∀ question,
      (config.job (.signing (.transaction question))).bind
          (fun job => callOf codec config (.job job)) = some call
      ↔ ∃ cosigner, config.localSigner = some cosigner
          ∧ cosigner.xrplAddress = question.signerXrplAddress
          ∧ requestedCall codec cosigner config.escrowXrplAddress question = .ok call := by
    intro question
    simp only [NodeConfig.job, NodeConfig.addressee, callOf, Option.bind_map,
      Option.bind_eq_some_iff, Option.filter_eq_some_iff, decide_eq_true_eq,
      Function.comp_apply, and_assoc]
    refine exists_congr (fun cosigner => and_congr_right (fun _ => and_congr_right (fun _ => ?_)))
    cases requestedCall codec cosigner config.escrowXrplAddress question with
    | error reason => simp [Except.toOption]
    | ok other => simp [Except.toOption]
  rw [reached, rendered]
  constructor
  · rintro ⟨cosigner, isLocal, addressed, requested⟩
    obtain ⟨address, members, accountId, hash, blob, isEscrow, isObject, isAccount, -, named,
      hashed, written, sanctioned⟩ := requestedCall_ok_iff.mp requested
    obtain rfl := Json.object.inj isObject
    cases sanctioned with
    | payment _ isPayment =>
        exact absurd (Option.some.inj (isType.symm.trans isPayment)) (by decide)
    | signerList terms _ authorised =>
        obtain rfl := Option.some.inj authorised
        rw [← Option.some.inj (account.symm.trans isAccount)] at isEscrow
        exact ⟨cosigner, accountId, isLocal, addressed, named, isEscrow, withinRules.mp terms,
          txObj, hash, blob, rfl, hashed, written, rfl⟩
  · rintro ⟨cosigner, accountId, isLocal, addressed, named, isEscrow, rules, members, hash, blob,
      isObject, hashed, written, rfl⟩
    obtain rfl := Json.object.inj isObject
    refine ⟨cosigner, isLocal, addressed, requestedCall_ok_iff.mpr ?_⟩
    exact ⟨_, txObj, accountId, hash, blob, isEscrow, rfl, account, found "SigningPubKey" _ rfl,
      named, hashed, written, .signerList (withinRules.mpr rules) isType rfl⟩

end Projection

/-- A node with a signer of its own for an escrow. -/
def projectingConfig : NodeConfig :=
  { sampleConfig with
    escrowXrplAddress := some (accountIdToRAddress membershipCrypto (accountOf 0)) }

/-- Witness: `projection_questions_signed_iff` for three signers of whom two are needed. -/
theorem projection_questions_signed_iff_three
    : (projectingConfig.job
          (.signing
            (.transaction
              (projectionQuestion
                (renderSignerlistSet membershipCrypto (accountOf 0) 7 12000 threeSigners 2)
                "request" "beef" (sampleSigner.xrplAddress, Hex.encode sampleAccount.toList))))).bind
          (fun job => callOf sampleCodec projectingConfig (.job job))
        = some (governanceCall sampleSigner "beef" "120000") := by
  apply (projection_questions_signed_iff sampleCodec threeSigners_readBack (accountOf 0) 7 12000 2
    projectingConfig "request" "beef" _ _).mpr
  refine ⟨sampleSigner, sampleAccount, rfl, rfl, ?_, rfl, ?_, _, _, _, rfl, rfl, rfl, rfl⟩
  · exact namesSigner_encode_iff.mpr ⟨rfl, sampleSigner_named.1⟩
  · exact ⟨by decide, by decide, by decide, by decide +kernel, by decide⟩

end Membership

end PerpDex
