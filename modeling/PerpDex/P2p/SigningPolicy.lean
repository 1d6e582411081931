import PerpDex.Membership.Cosigning
import PerpDex.Membership.Projection

/-! The policy a co-signer applies to a transaction before it asks its enclave to sign.
A request is let through exactly if its transaction spends from the escrow of the node, is a
payment to somebody else or a list of signers within the rules, and carries what the enclave
needs in order to check it.
-/

namespace PerpDex

namespace Relay

open PerpDex.Membership

/-- The credentials of the local signer. -/
structure LocalSigner extends Cosigning.LocalSigner where
  enclaveUrl : String
  address : String
  sessionKey : String

/-- Without one `0x` in front. -/
def canonicalSessionKey (text : String) : String :=
  match text.toList with
  | '0' :: 'x' :: rest => String.ofList rest
  | _ => text

def LocalSigner.sessionKeyHex (signer : LocalSigner) : String :=
  canonicalSessionKey signer.sessionKey

/-- What the transaction codec and the texts of other libraries are taken from. -/
structure Codec where
  crypto : Crypto
  base58Decode : String → Option (List UInt8)
  hexError : String → String
  multiSigningHash : List (String × Json) → AccountId → Except String Digest
  serializeJsonObject : List (String × Json) → Except String (List UInt8)

/-- `SigningMessage::Request` and `SigningRelay`, as far as a co-signer reads them. -/
structure SigningRequest where
  requestId : String
  unsignedTx : Json
  signerAccountIdHex : String
  signerXrplAddress : String
  quorumBundle : Option String
  withdrawalUserId : Option String
  withdrawalAmountFp8 : Option String

/-- The claim of a request, where it has both of its parts. -/
def SigningRequest.claim (request : SigningRequest) : Option Cosigning.WithdrawalClaim :=
  match request.withdrawalUserId, request.withdrawalAmountFp8 with
  | some userId, some amountFp8 => some { userId, amountFp8 }
  | _, _ => none

def validatePaymentSpecific (txObj : List (String × Json)) (escrow : String)
    : Except String Unit := do
  let destination ← okOr ((txObj.lookup "Destination").bind Json.asStr) "missing Destination"
  if destination = "" then .error "empty Destination"
  else if destination = escrow then .error "Destination equals escrow — self-loop rejected"
  else if destination.toList.head? ≠ some 'r' then
    .error s!"Destination is not an r-address: {destination}"
  else if (txObj.lookup "Amount").isNone then .error "missing Amount"
  else .ok ()

section Policy

variable (codec : Codec)

/-- The rules of the type of a transaction. -/
def validateTypeSpecific (txObj : List (String × Json)) (escrow : String)
    : Except String Unit := do
  let txType ← okOr ((txObj.lookup "TransactionType").bind Json.asStr) "missing TransactionType"
  if txType = "Payment" then validatePaymentSpecific txObj escrow
  else if txType = "SignerListSet" then
    validateSignerlistSetSpecific codec.crypto codec.base58Decode txObj
  else .error s!"disallowed TransactionType: {txType}"

/-- The account id a request names; it must be the one of the local signer. -/
def checkSignerAccountId (localAddress signerAccountIdHex : String)
    : Except String AccountId := do
  let trimmed := String.ofList (Hex.trimStart0x signerAccountIdHex.toList)
  let acctIdBytes ← okOr (Hex.decode trimmed) s!"signer_account_id_hex: {codec.hexError trimmed}"
  if acctIdBytes.length ≠ 20 then
    .error s!"signer_account_id must be 20 bytes, got {acctIdBytes.length}"
  else
    let expectedAcctId ← (decodeXrplAddress codec.crypto codec.base58Decode localAddress).mapError
      (fun e => s!"local xrpl_address decode: {e}")
    if acctIdBytes ≠ expectedAcctId.toList then
      .error "signer_account_id does not match local signer"
    else .ok expectedAcctId

def validateSigningPolicy (localAddress : String) (escrowXrplAddress : Option String)
    (unsignedTx : Json) (signerAccountIdHex : String) : Except String Digest := do
  let escrow ← okOr escrowXrplAddress "escrow address not configured — refusing to sign"
  let txObj ← okOr unsignedTx.asObject "unsigned_tx is not a JSON object"
  validateTypeSpecific codec txObj escrow
  let account ← okOr ((txObj.lookup "Account").bind Json.asStr) "missing Account"
  if account ≠ escrow then
    .error s!"Account {account} does not match configured escrow {escrow}"
  else
    let signingPubKey ← okOr ((txObj.lookup "SigningPubKey").bind Json.asStr)
      "missing SigningPubKey (must be \"\")"
    if signingPubKey ≠ "" then
      .error s!"SigningPubKey must be empty for multisig, got '{signingPubKey}'"
    else
      let acctId ← checkSignerAccountId codec localAddress signerAccountIdHex
      (codec.multiSigningHash txObj acctId).mapError (fun e => s!"multi_signing_hash failed: {e}")

/-- What is posted to the local enclave. -/
structure SignCall where
  url : String
  body : Json

/-- The body common to both ways of signing, and what one of them adds. -/
def signBody (signer : LocalSigner) (added : List (String × Json)) : Json :=
  .object
    ([("from", .string signer.address), ("session_key", .string signer.sessionKeyHex)] ++ added)

/-- A payment is signed with the claim the enclave checks it against. -/
def paymentCall (signer : LocalSigner) (claim : Cosigning.WithdrawalClaim) (txBlobHex : String)
    : SignCall where
  url := signer.enclaveUrl ++ "/pool/sign/withdrawal-payment"
  body :=
    signBody signer
      [("user_id", .string claim.userId), ("amount_fp8", .string claim.amountFp8),
        ("tx_blob", .string txBlobHex)]

/-- A list of signers is signed with the bundle that authorises its epoch. -/
def governanceCall (signer : LocalSigner) (bundle txBlobHex : String) : SignCall where
  url := signer.enclaveUrl ++ "/pool/sign/governance-signerlistset"
  body :=
    signBody signer [("tx_blob", .string txBlobHex), ("quorum_bundle", .string bundle)]

/-- The call `handle_signing_request` makes once its checks have passed. -/
def signCall (signer : LocalSigner) (request : SigningRequest) (txBlobHex : String)
    : Option SignCall :=
  let txType := ((request.unsignedTx.get "TransactionType").bind Json.asStr).getD ""
  if txType = "Payment" then request.claim.map (fun claim => paymentCall signer claim txBlobHex)
  else if txType = "SignerListSet" then
    request.quorumBundle.map (fun bundle => governanceCall signer bundle txBlobHex)
  else none

/-- The transaction of a request as the enclave hashes it. -/
def serialized (request : SigningRequest) : Except String (List UInt8) :=
  match request.unsignedTx.asObject with
  | some txObj => codec.serializeJsonObject txObj
  | none => .error "unsigned_tx is not a JSON object"

/-- `handle_signing_request` up to its call of the enclave; an error is the answer's text. -/
def requestedCall (signer : LocalSigner) (escrowXrplAddress : Option String)
    (request : SigningRequest) : Except String SignCall := do
  let policy := (validateSigningPolicy codec signer.xrplAddress escrowXrplAddress
    request.unsignedTx request.signerAccountIdHex).map (fun _ => ())
  Cosigning.checkSigningRequest policy (serialized codec request) request.unsignedTx
    request.quorumBundle request.claim
  let blob ← serialized codec request
  okOr (signCall signer request (Hex.encode blob)) "disallowed TransactionType"

end Policy

-----------------------------------------------------------------------------------------
-- The rules for a list of signers
-----------------------------------------------------------------------------------------

theorem asObject_eq_some_iff {json : Json} {members : List (String × Json)}
    : json.asObject = some members ↔ json = .object members := by
  cases json <;> simp [Json.asObject]

section SignerList

variable {crypto : Crypto} {base58Decode : String → Option (List UInt8)}

theorem checkKeys_ok_iff {allowed : List String} {disallowed : String → String}
    {members : List (String × Json)}
    : checkKeys allowed disallowed members = .ok () ↔ ∀ member ∈ members, member.1 ∈ allowed := by
  induction members with
  | nil => simp [checkKeys]
  | cons head rest ih =>
      obtain ⟨key, value⟩ := head
      rw [checkKeys, List.forall_mem_cons]
      split_ifs with known
      · rw [ih]
        exact ⟨fun others => ⟨known, others⟩, And.right⟩
      · exact ⟨fun failed => (by cases failed), fun both => absurd both.1 known⟩

theorem requireKeys_ok_iff {missing : String → String} {members : List (String × Json)}
    {keys : List String}
    : requireKeys missing members keys = .ok ()
      ↔ ∀ key ∈ keys, (members.lookup key).isSome = true := by
  induction keys with
  | nil => simp [requireKeys]
  | cons key rest ih =>
      rw [requireKeys, List.forall_mem_cons]
      split_ifs with found
      · rw [ih]
        exact ⟨fun others => ⟨found, others⟩, And.right⟩
      · exact ⟨fun failed => (by cases failed), fun both => absurd both.1 found⟩

theorem checkZero_ok_iff {txObj : List (String × Json)} {key : String}
    : checkZero txObj key = .ok ()
      ↔ ∀ value, txObj.lookup key = some value → value.asU64 = some 0 := by
  rw [checkZero]
  cases found : txObj.lookup key with
  | none => simp
  | some value =>
      simp only [Except.bind_eq_ok_iff, okOr_eq_ok_iff, Option.some.injEq, forall_eq']
      constructor
      · rintro ⟨number, read, zero⟩
        split_ifs at zero with nonzero
        rw [read, not_not.mp nonzero]
      · intro read
        exact ⟨0, read, rfl⟩

/-- An element of `SignerEntries` for an address: it wraps the account and a weight of one, and
nothing else.
-/
structure EntryFor (crypto : Crypto) (base58Decode : String → Option (List UInt8))
    (entryOuter : Json) (address : String) : Prop where
  wraps
    : ∃ inner, (∃ outer, entryOuter = .object outer ∧ outer.map Prod.fst = ["SignerEntry"]
          ∧ (entryOuter.index "SignerEntry").asObject = some inner)
        ∧ (∀ member ∈ inner, member.1 ∈ innerKeys)
        ∧ (inner.lookup "Account").bind Json.asStr = some address
        ∧ (inner.lookup "SignerWeight").bind Json.asU64 = some 1
  decodes : ∃ accountId, decodeXrplAddress crypto base58Decode address = .ok accountId

/-- One element is accepted exactly if it is an entry for an address that was not seen before. -/
theorem checkEntry_ok_iff {i : Nat} {seen next : List String} {entryOuter : Json}
    : checkEntry crypto base58Decode i seen entryOuter = .ok next
      ↔ ∃ address, EntryFor crypto base58Decode entryOuter address ∧ address ∉ seen
          ∧ next = address :: seen := by
  constructor
  · intro accepted
    obtain ⟨outer, isObject, accepted⟩ := Except.bind_eq_ok_iff.mp accepted
    dsimp only at accepted
    split_ifs at accepted with keys
    obtain ⟨inner, isInner, accepted⟩ := Except.bind_eq_ok_iff.mp accepted
    obtain ⟨_, allowed, accepted⟩ := Except.bind_eq_ok_iff.mp accepted
    obtain ⟨_, _, accepted⟩ := Except.bind_eq_ok_iff.mp accepted
    obtain ⟨address, isAddress, accepted⟩ := Except.bind_eq_ok_iff.mp accepted
    obtain ⟨accountId, decoded, accepted⟩ := Except.bind_eq_ok_iff.mp accepted
    split_ifs at accepted with seenBefore
    obtain ⟨weight, isWeight, accepted⟩ := Except.bind_eq_ok_iff.mp accepted
    split_ifs at accepted with notOne
    rw [okOr_eq_ok_iff] at isObject isInner isAddress isWeight
    rw [not_not.mp notOne] at isWeight
    refine ⟨address, ⟨⟨inner, ⟨outer, asObject_eq_some_iff.mp isObject, not_not.mp keys, isInner⟩,
      checkKeys_ok_iff.mp allowed, isAddress, isWeight⟩, accountId, ?_⟩, seenBefore,
      (Except.ok.inj accepted).symm⟩
    exact Except.mapError_eq_ok_iff.mp decoded
  · rintro ⟨address, ⟨⟨inner, ⟨outer, isObject, keys, isInner⟩, allowed, isAddress, isWeight⟩,
      accountId, decoded⟩, unseen, rfl⟩
    have present : ∀ key ∈ innerKeys, (inner.lookup key).isSome = true := by
      simp only [innerKeys, List.forall_mem_cons, List.not_mem_nil, false_implies,
        implies_true, and_true]
      obtain ⟨_, isSome, _⟩ := Option.bind_eq_some_iff.mp isAddress
      obtain ⟨_, alsoSome, _⟩ := Option.bind_eq_some_iff.mp isWeight
      exact ⟨by rw [isSome]; rfl, by rw [alsoSome]; rfl⟩
    refine Except.bind_eq_ok_iff.mpr ⟨outer, by rw [isObject]; rfl, ?_⟩
    rw [if_neg (not_not.mpr keys)]
    refine Except.bind_eq_ok_iff.mpr ⟨inner, okOr_eq_ok_iff.mpr isInner, ?_⟩
    refine Except.bind_eq_ok_iff.mpr ⟨(), checkKeys_ok_iff.mpr allowed, ?_⟩
    refine Except.bind_eq_ok_iff.mpr ⟨(), requireKeys_ok_iff.mpr present, ?_⟩
    refine Except.bind_eq_ok_iff.mpr ⟨address, okOr_eq_ok_iff.mpr isAddress, ?_⟩
    refine Except.bind_eq_ok_iff.mpr
      ⟨accountId, Except.mapError_eq_ok_iff.mpr decoded, ?_⟩
    rw [if_neg unseen]
    exact Except.bind_eq_ok_iff.mpr ⟨1, okOr_eq_ok_iff.mpr isWeight, rfl⟩

/-- A list of elements is accepted exactly if its entries are for different addresses, none of
which was seen before.
-/
theorem checkEntries_ok_iff_entries {i : Nat} {seen : List String} {entries : List Json}
    : checkEntries crypto base58Decode i seen entries = .ok ()
      ↔ ∃ addresses, List.Forall₂ (EntryFor crypto base58Decode) entries addresses
          ∧ addresses.Nodup ∧ ∀ address ∈ addresses, address ∉ seen := by
  induction entries generalizing i seen with
  | nil => simp [checkEntries]
  | cons entryOuter rest ih =>
      rw [checkEntries, Except.bind_eq_ok_iff]
      constructor
      · rintro ⟨next, first, others⟩
        obtain ⟨address, entry, unseen, rfl⟩ := checkEntry_ok_iff.mp first
        obtain ⟨addresses, each, distinct, apart⟩ := ih.mp others
        refine ⟨address :: addresses, .cons entry each, List.nodup_cons.mpr ⟨?_, distinct⟩,
          List.forall_mem_cons.mpr ⟨unseen, fun other member isSeen => ?_⟩⟩
        · exact fun member => apart address member List.mem_cons_self
        · exact apart other member (List.mem_cons_of_mem _ isSeen)
      · rintro ⟨_ | ⟨address, addresses⟩, each, distinct, apart⟩
        · cases each
        · obtain ⟨entry, each⟩ := List.forall₂_cons.mp each
          obtain ⟨new, distinct⟩ := List.nodup_cons.mp distinct
          obtain ⟨unseen, apart⟩ := List.forall_mem_cons.mp apart
          refine ⟨address :: seen, checkEntry_ok_iff.mpr ⟨address, entry, unseen, rfl⟩,
            ih.mpr ⟨addresses, each, distinct, fun other member isSeen => ?_⟩⟩
          rcases List.mem_cons.mp isSeen with rfl | old
          · exact new member
          · exact apart other member old

/-- The rules for a list of signers: three to eight of them with different readable addresses,
equal weights, a quorum of at least two that they can reach, and no field beyond the list of
allowed ones.
-/
structure SignerListTerms (crypto : Crypto) (base58Decode : String → Option (List UInt8))
    (txObj : List (String × Json)) : Prop where
  allowed : ∀ member ∈ txObj, member.1 ∈ allowedTopLevel
  flags : ∀ value, txObj.lookup "Flags" = some value → value.asU64 = some 0
  signerListId : ∀ value, txObj.lookup "SignerListID" = some value → value.asU64 = some 0
  sequence : ∃ sequence, (txObj.lookup "Sequence").bind Json.asU64 = some sequence
  fee : ∃ text fee, (txObj.lookup "Fee").bind Json.asStr = some text ∧ parseU64 text = some fee
    ∧ multisigFeeMinDrops ≤ fee
  signers : ∃ entries addresses quorum,
    (txObj.lookup "SignerEntries").bind Json.asArray = some entries
    ∧ List.Forall₂ (EntryFor crypto base58Decode) entries addresses ∧ addresses.Nodup
    ∧ 3 ≤ addresses.length ∧ addresses.length ≤ 8
    ∧ (txObj.lookup "SignerQuorum").bind Json.asU64 = some quorum
    ∧ 2 ≤ quorum.toNat ∧ quorum.toNat ≤ addresses.length

theorem validateSignerlistSetSpecific_ok_iff {txObj : List (String × Json)}
    : validateSignerlistSetSpecific crypto base58Decode txObj = .ok ()
      ↔ SignerListTerms crypto base58Decode txObj := by
  simp only [validateSignerlistSetSpecific, Except.bind_eq_ok_iff, okOr_eq_ok_iff]
  constructor
  · rintro ⟨_, keys, _, flags, _, listId, sequence, isSequence, text, isText, fee, isFee, rest⟩
    split_ifs at rest with tooLow
    obtain ⟨entries, isEntries, rest⟩ := Except.bind_eq_ok_iff.mp rest
    split_ifs at rest with outside
    obtain ⟨_, checked, rest⟩ := Except.bind_eq_ok_iff.mp rest
    obtain ⟨quorum, isQuorum, rest⟩ := Except.bind_eq_ok_iff.mp rest
    split_ifs at rest with unreachable
    obtain ⟨addresses, each, distinct, _⟩ := checkEntries_ok_iff_entries.mp checked
    rw [each.length_eq] at outside unreachable
    exact ⟨checkKeys_ok_iff.mp keys, checkZero_ok_iff.mp flags, checkZero_ok_iff.mp listId,
      ⟨sequence, isSequence⟩, ⟨text, fee, isText, isFee, not_lt.mp tooLow⟩,
      ⟨entries, addresses, quorum, okOr_eq_ok_iff.mp isEntries, each, distinct, outside.1,
        outside.2, okOr_eq_ok_iff.mp isQuorum, unreachable.1, unreachable.2⟩⟩
  · intro terms
    obtain ⟨sequence, isSequence⟩ := terms.sequence
    obtain ⟨text, fee, isText, isFee, enough⟩ := terms.fee
    obtain ⟨entries, addresses, quorum, isEntries, each, distinct, atLeast, atMost, isQuorum, two,
      reachable⟩ := terms.signers
    refine ⟨(), checkKeys_ok_iff.mpr terms.allowed, (), checkZero_ok_iff.mpr terms.flags, (),
      checkZero_ok_iff.mpr terms.signerListId, sequence, isSequence, text, isText, fee, isFee, ?_⟩
    rw [if_neg (not_lt.mpr enough)]
    refine Except.bind_eq_ok_iff.mpr ⟨entries, okOr_eq_ok_iff.mpr isEntries, ?_⟩
    rw [if_neg (not_not.mpr (by rw [each.length_eq]; exact ⟨atLeast, atMost⟩))]
    refine Except.bind_eq_ok_iff.mpr ⟨(), checkEntries_ok_iff_entries.mpr
      ⟨addresses, each, distinct, fun _ _ => List.not_mem_nil⟩, ?_⟩
    refine Except.bind_eq_ok_iff.mpr ⟨quorum, okOr_eq_ok_iff.mpr isQuorum, ?_⟩
    rw [if_neg (not_not.mpr (by rw [each.length_eq]; exact ⟨two, reachable⟩))]

end SignerList

-----------------------------------------------------------------------------------------
-- The policy
-----------------------------------------------------------------------------------------

/-- The rules for a payment: it has an amount and goes to an r-address other than the escrow. -/
structure PaymentTerms (txObj : List (String × Json)) (escrow : String) : Prop where
  destination
    : ∃ destination, (txObj.lookup "Destination").bind Json.asStr = some destination
        ∧ destination ≠ escrow ∧ destination.toList.head? = some 'r'
  amount : (txObj.lookup "Amount").isSome = true

theorem validatePaymentSpecific_ok_iff {txObj : List (String × Json)} {escrow : String}
    : validatePaymentSpecific txObj escrow = .ok () ↔ PaymentTerms txObj escrow := by
  rw [validatePaymentSpecific, Except.bind_eq_ok_iff]
  constructor
  · rintro ⟨destination, isDestination, accepted⟩
    split_ifs at accepted with empty loop foreign noAmount
    refine ⟨⟨destination, okOr_eq_ok_iff.mp isDestination, loop, not_not.mp foreign⟩, ?_⟩
    simpa [Option.isSome_iff_ne_none] using noAmount
  · rintro ⟨⟨destination, isDestination, notEscrow, isAddress⟩, amount⟩
    have nonempty : destination ≠ "" := by
      rintro rfl
      cases isAddress
    have given : ¬ (txObj.lookup "Amount").isNone = true := by
      simpa [Option.isSome_iff_ne_none] using amount
    refine ⟨destination, okOr_eq_ok_iff.mpr isDestination, ?_⟩
    rw [if_neg nonempty, if_neg notEscrow, if_neg (not_not.mpr isAddress), if_neg given]

section Policy

variable {codec : Codec}

/-- The two kinds of transactions a co-signer signs, each within its rules. -/
inductive TypeTerms (codec : Codec) (txObj : List (String × Json)) (escrow : String) : Prop where
  | payment (isType : (txObj.lookup "TransactionType").bind Json.asStr = some "Payment")
      (terms : PaymentTerms txObj escrow)
  | signerList (isType : (txObj.lookup "TransactionType").bind Json.asStr = some "SignerListSet")
      (terms : SignerListTerms codec.crypto codec.base58Decode txObj)

theorem validateTypeSpecific_ok_iff {txObj : List (String × Json)} {escrow : String}
    : validateTypeSpecific codec txObj escrow = .ok () ↔ TypeTerms codec txObj escrow := by
  rw [validateTypeSpecific, Except.bind_eq_ok_iff]
  constructor
  · rintro ⟨txType, isType, accepted⟩
    rw [okOr_eq_ok_iff] at isType
    split_ifs at accepted with payment signerList
    · subst payment
      exact .payment isType (validatePaymentSpecific_ok_iff.mp accepted)
    · subst signerList
      exact .signerList isType (validateSignerlistSetSpecific_ok_iff.mp accepted)
  · rintro (⟨isType, terms⟩ | ⟨isType, terms⟩)
    · exact ⟨"Payment", okOr_eq_ok_iff.mpr isType, validatePaymentSpecific_ok_iff.mpr terms⟩
    · exact ⟨"SignerListSet", okOr_eq_ok_iff.mpr isType,
        validateSignerlistSetSpecific_ok_iff.mpr terms⟩

/-- The account id a request names is the one of the local signer. -/
def NamesSigner (codec : Codec) (localAddress signerAccountIdHex : String)
    (accountId : AccountId) : Prop :=
  decodeXrplAddress codec.crypto codec.base58Decode localAddress = .ok accountId
    ∧ Hex.decodeChars (Hex.trimStart0x signerAccountIdHex.toList) = some accountId.toList

theorem checkSignerAccountId_ok_iff {localAddress signerAccountIdHex : String}
    {accountId : AccountId}
    : checkSignerAccountId codec localAddress signerAccountIdHex = .ok accountId
      ↔ NamesSigner codec localAddress signerAccountIdHex accountId := by
  have decoded : Hex.decode (String.ofList (Hex.trimStart0x signerAccountIdHex.toList))
      = Hex.decodeChars (Hex.trimStart0x signerAccountIdHex.toList) := by
    rw [Hex.decode, String.toList_ofList]
  simp only [checkSignerAccountId, Except.bind_eq_ok_iff, okOr_eq_ok_iff, decoded]
  constructor
  · rintro ⟨bytes, isBytes, accepted⟩
    split_ifs at accepted with size
    obtain ⟨expected, isExpected, accepted⟩ := Except.bind_eq_ok_iff.mp accepted
    split_ifs at accepted with foreign
    rw [not_not.mp foreign] at isBytes
    cases accepted
    exact ⟨Except.mapError_eq_ok_iff.mp isExpected, isBytes⟩
  · rintro ⟨isExpected, isBytes⟩
    refine ⟨accountId.toList, isBytes, ?_⟩
    rw [if_neg (not_not.mpr accountId.toList_length)]
    refine Except.bind_eq_ok_iff.mpr ⟨accountId, Except.mapError_eq_ok_iff.mpr isExpected, ?_⟩
    rw [if_neg (not_not.mpr rfl)]

/-- A hexadecimal account id names the signer whose address decodes to it. -/
theorem namesSigner_encode_iff {localAddress : String} {accountId other : AccountId}
    : NamesSigner codec localAddress (Hex.encode accountId.toList) other
      ↔ other = accountId
        ∧ decodeXrplAddress codec.crypto codec.base58Decode localAddress = .ok accountId := by
  rw [NamesSigner, Hex.encode, String.toList_ofList, Hex.trimStart0x_encodeChars,
    Hex.decodeChars_encodeChars]
  constructor
  · rintro ⟨decoded, same⟩
    obtain rfl := List.Vector.toList_injective (Option.some.inj same)
    exact ⟨rfl, decoded⟩
  · rintro ⟨rfl, decoded⟩
    exact ⟨decoded, rfl⟩

/-- What the policy lets through, and the account id it is signed for. -/
structure PolicyTerms (codec : Codec) (localAddress escrow : String)
    (txObj : List (String × Json)) (signerAccountIdHex : String) (accountId : AccountId)
    : Prop where
  type : TypeTerms codec txObj escrow
  account : (txObj.lookup "Account").bind Json.asStr = some escrow
  signingPubKey : (txObj.lookup "SigningPubKey").bind Json.asStr = some ""
  signer : NamesSigner codec localAddress signerAccountIdHex accountId

/-- The policy answers with the hash of the transaction itself, for the account of the local
signer, exactly if its terms hold.
-/
theorem validateSigningPolicy_ok_iff {localAddress : String} {escrowXrplAddress : Option String}
    {unsignedTx : Json} {signerAccountIdHex : String} {hash : Digest}
    : validateSigningPolicy codec localAddress escrowXrplAddress unsignedTx signerAccountIdHex
        = .ok hash
      ↔ ∃ escrow txObj accountId, escrowXrplAddress = some escrow ∧ unsignedTx = .object txObj
          ∧ PolicyTerms codec localAddress escrow txObj signerAccountIdHex accountId
          ∧ codec.multiSigningHash txObj accountId = .ok hash := by
  simp only [validateSigningPolicy, Except.bind_eq_ok_iff, okOr_eq_ok_iff]
  constructor
  · rintro ⟨escrow, isEscrow, txObj, isObject, _, typed, account, isAccount, accepted⟩
    split_ifs at accepted with foreign
    obtain ⟨key, isKey, accepted⟩ := Except.bind_eq_ok_iff.mp accepted
    split_ifs at accepted with signed
    obtain ⟨accountId, named, accepted⟩ := Except.bind_eq_ok_iff.mp accepted
    rw [okOr_eq_ok_iff, not_not.mp signed] at isKey
    rw [not_not.mp foreign] at isAccount
    exact ⟨escrow, txObj, accountId, isEscrow, asObject_eq_some_iff.mp isObject,
      ⟨validateTypeSpecific_ok_iff.mp typed, isAccount, isKey,
        checkSignerAccountId_ok_iff.mp named⟩, Except.mapError_eq_ok_iff.mp accepted⟩
  · rintro ⟨escrow, txObj, accountId, isEscrow, isObject, terms, hashed⟩
    refine ⟨escrow, isEscrow, txObj, asObject_eq_some_iff.mpr isObject, (),
      validateTypeSpecific_ok_iff.mpr terms.type, escrow, terms.account, ?_⟩
    rw [if_neg (not_not.mpr rfl)]
    refine Except.bind_eq_ok_iff.mpr ⟨"", okOr_eq_ok_iff.mpr terms.signingPubKey, ?_⟩
    rw [if_neg (not_not.mpr rfl)]
    exact Except.bind_eq_ok_iff.mpr ⟨accountId, checkSignerAccountId_ok_iff.mpr terms.signer,
      Except.mapError_eq_ok_iff.mpr hashed⟩

/-- A call that signs the transaction of a request: the policy lets the transaction through for
the local signer, and the call carries its serialization and what the enclave checks it with.
-/
inductive Sanctioned (codec : Codec) (signer : LocalSigner) (escrow : String)
    (request : SigningRequest) (txObj : List (String × Json)) (blob : List UInt8)
    : SignCall → Prop where
  | payment (terms : PaymentTerms txObj escrow)
      (isType : (txObj.lookup "TransactionType").bind Json.asStr = some "Payment")
      {claim : Cosigning.WithdrawalClaim} (claimed : request.claim = some claim)
      : Sanctioned codec signer escrow request txObj blob
          (paymentCall signer claim (Hex.encode blob))
  | signerList (terms : SignerListTerms codec.crypto codec.base58Decode txObj)
      (isType : (txObj.lookup "TransactionType").bind Json.asStr = some "SignerListSet")
      {bundle : String} (authorised : request.quorumBundle = some bundle)
      : Sanctioned codec signer escrow request txObj blob
          (governanceCall signer bundle (Hex.encode blob))

/-- Everything that must hold for a request to make a co-signer call its enclave: the
transaction spends from the escrow, is unsigned, is within the rules of its type and can be
written and hashed, and the request is for the account of the local signer.
-/
structure CallTerms (codec : Codec) (signer : LocalSigner) (escrowXrplAddress : Option String)
    (request : SigningRequest) (call : SignCall) : Prop where
  terms : ∃ escrow txObj accountId hash blob, escrowXrplAddress = some escrow
    ∧ request.unsignedTx = .object txObj
    ∧ (txObj.lookup "Account").bind Json.asStr = some escrow
    ∧ (txObj.lookup "SigningPubKey").bind Json.asStr = some ""
    ∧ NamesSigner codec signer.xrplAddress request.signerAccountIdHex accountId
    ∧ codec.multiSigningHash txObj accountId = .ok hash
    ∧ codec.serializeJsonObject txObj = .ok blob
    ∧ Sanctioned codec signer escrow request txObj blob call

theorem checkSigningRequest_ok_iff {policy : Except String Unit}
    {blob : Except String (List UInt8)} {txObj : List (String × Json)}
    {quorumBundle : Option String} {claim : Option Cosigning.WithdrawalClaim}
    : Cosigning.checkSigningRequest policy blob (.object txObj) quorumBundle claim = .ok ()
      ↔ policy = .ok () ∧ (∃ bytes, blob = .ok bytes)
        ∧ (((txObj.lookup "TransactionType").bind Json.asStr = some "Payment"
              ∧ claim.isSome = true)
            ∨ ((txObj.lookup "TransactionType").bind Json.asStr = some "SignerListSet"
              ∧ quorumBundle.isSome = true)) := by
  have typed : ∀ name, name ≠ "" →
      ((((Json.object txObj).get "TransactionType").bind Json.asStr).getD "" = name
        ↔ (txObj.lookup "TransactionType").bind Json.asStr = some name) := by
    intro name named
    show ((txObj.lookup "TransactionType").bind Json.asStr).getD "" = name ↔ _
    cases (txObj.lookup "TransactionType").bind Json.asStr with
    | none => simp [Ne.symm named]
    | some other => simp
  cases policy with
  | error reason =>
      exact ⟨fun failed => (by cases failed), fun both => (by cases both.1)⟩
  | ok =>
      cases blob with
      | error reason =>
          exact ⟨fun failed => (by cases failed), fun both => (by cases both.2.1.choose_spec)⟩
      | ok bytes =>
          rw [← typed "Payment" (by decide), ← typed "SignerListSet" (by decide)]
          rw [Cosigning.checkSigningRequest]
          generalize (((Json.object txObj).get "TransactionType").bind Json.asStr).getD "" = txType
          show (if txType = "Payment" then
              (if claim.isNone = true then Except.error _ else Except.ok ())
            else if txType = "SignerListSet" then
              (if quorumBundle.isNone = true then Except.error _ else Except.ok ())
            else Except.error _) = Except.ok () ↔ _
          split_ifs with payment unclaimed signerList unbundled
          · simp [payment, Option.isNone_iff_eq_none.mp unclaimed]
          · simp [payment,
              Option.isSome_iff_ne_none.mpr (mt Option.isNone_iff_eq_none.mpr unclaimed)]
          · simp [signerList, Option.isNone_iff_eq_none.mp unbundled]
          · simp [signerList,
              Option.isSome_iff_ne_none.mpr (mt Option.isNone_iff_eq_none.mpr unbundled)]
          · simp [payment, signerList]

theorem policy_of_checkSigningRequest {policy : Except String Unit}
    {blob : Except String (List UInt8)} {unsignedTx : Json} {quorumBundle : Option String}
    {claim : Option Cosigning.WithdrawalClaim}
    (checked : Cosigning.checkSigningRequest policy blob unsignedTx quorumBundle claim = .ok ())
    : policy = .ok () := by
  cases policy with
  | error reason => cases checked
  | ok => rfl

/-- A request makes a co-signer call its enclave exactly if its terms hold, and with the call
they allow.
-/
theorem requestedCall_ok_iff {signer : LocalSigner} {escrowXrplAddress : Option String}
    {request : SigningRequest} {call : SignCall}
    : requestedCall codec signer escrowXrplAddress request = .ok call
      ↔ CallTerms codec signer escrowXrplAddress request call := by
  constructor
  · intro requested
    obtain ⟨_, checked, requested⟩ := Except.bind_eq_ok_iff.mp requested
    obtain ⟨blob, written, requested⟩ := Except.bind_eq_ok_iff.mp requested
    rw [okOr_eq_ok_iff] at requested
    obtain ⟨hash, passed, _⟩ := Except.map_eq_ok_iff.mp (policy_of_checkSigningRequest checked)
    obtain ⟨escrow, txObj, accountId, isEscrow, isObject, terms, hashed⟩ :=
      validateSigningPolicy_ok_iff.mp passed
    have serialized_eq : serialized codec request = codec.serializeJsonObject txObj := by
      rw [serialized, isObject]
      rfl
    rw [serialized_eq] at written
    rw [signCall, isObject] at requested
    refine ⟨escrow, txObj, accountId, hash, blob, isEscrow, isObject, terms.account,
      terms.signingPubKey, terms.signer, hashed, written, ?_⟩
    rcases terms.type with ⟨isType, rules⟩ | ⟨isType, rules⟩
    · simp only [Json.get, isType, Option.getD_some, if_true] at requested
      obtain ⟨claim, claimed, rfl⟩ := Option.map_eq_some_iff.mp requested
      exact .payment rules isType claimed
    · simp only [Json.get, isType, Option.getD_some, if_true] at requested
      obtain ⟨bundle, authorised, rfl⟩ := Option.map_eq_some_iff.mp requested
      exact .signerList rules isType authorised
  · rintro ⟨escrow, txObj, accountId, hash, blob, isEscrow, isObject, account, signingPubKey,
      signer, hashed, written, sanctioned⟩
    have serialized_eq : serialized codec request = .ok blob := by
      rw [serialized, isObject]
      exact written
    have type : TypeTerms codec txObj escrow := by
      cases sanctioned with
      | payment terms isType => exact .payment isType terms
      | signerList terms isType => exact .signerList isType terms
    have passed := validateSigningPolicy_ok_iff.mpr ⟨escrow, txObj, accountId, isEscrow, isObject,
      ⟨type, account, signingPubKey, signer⟩, hashed⟩
    refine Except.bind_eq_ok_iff.mpr ⟨(), ?_, Except.bind_eq_ok_iff.mpr
      ⟨blob, serialized_eq, okOr_eq_ok_iff.mpr ?_⟩⟩
    · rw [passed, isObject]
      refine checkSigningRequest_ok_iff.mpr ⟨rfl, ⟨blob, serialized_eq⟩, ?_⟩
      cases sanctioned with
      | payment _ isType claimed => exact .inl ⟨isType, by rw [claimed]; rfl⟩
      | signerList _ isType authorised => exact .inr ⟨isType, by rw [authorised]; rfl⟩
    · rw [signCall, isObject]
      cases sanctioned with
      | payment _ isType claimed =>
          simp only [Json.get, isType, Option.getD_some, if_true, claimed, Option.map_some]
      | signerList _ isType authorised =>
          simp [Json.get, isType, authorised]

end Policy

end Relay

end PerpDex
