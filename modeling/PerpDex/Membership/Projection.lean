import PerpDex.Lib.Json
import PerpDex.Membership.Statement

/-! The `SignerListSet` transaction that projects a sealed set onto the ledger, and the policy
gate every co-signer passes it through.
The sets a statement is prepared for and the sets the gate lets through are two rule lists.
-/

namespace PerpDex

namespace Membership

section Addresses

variable (crypto : Crypto)

/-- The checksum of base58check. -/
def addressChecksum (payload : List UInt8) : List UInt8 :=
  (digestOf crypto (digestOf crypto payload).toList).toList.take 4

/-- What an r-address encodes: the type byte, the account id and the checksum. -/
def addressBytes (accountId : AccountId) : List UInt8 :=
  let payload := 0x00 :: accountId.toList
  payload ++ addressChecksum crypto payload

def accountIdToRAddress (accountId : AccountId) : String :=
  crypto.base58 (addressBytes crypto accountId)

/-- The account id of an r-address. `base58Decode` reads the XRPL alphabet. -/
def decodeXrplAddress (base58Decode : String → Option (List UInt8)) (addr : String)
    : Except String AccountId := do
  let decoded ← okOr (base58Decode addr) "invalid XRPL base58 address"
  if sized : decoded.length = 25 then
    let payload := decoded.take 21
    let checksum := decoded.drop 21
    if addressChecksum crypto payload ≠ checksum then .error "XRPL address checksum mismatch"
    else .ok ⟨(decoded.drop 1).take 20, by simp [sized]⟩
  else .error s!"decoded XRPL address is {decoded.length} bytes, expected 25"

theorem addressChecksum_length (payload : List UInt8)
    : (addressChecksum crypto payload).length = 4 := by
  rw [addressChecksum, List.length_take, List.Vector.toList_length]
  rfl

variable {crypto} in
/-- What an accepted text is written for: a type byte, the account and the checksum. -/
theorem decodeXrplAddress_eq_ok_iff {base58Decode : String → Option (List UInt8)}
    {addr : String} {accountId : AccountId}
    : decodeXrplAddress crypto base58Decode addr = .ok accountId
      ↔ ∃ kind,
          base58Decode addr
          = some
              (kind :: accountId.toList
                ++ addressChecksum crypto (kind :: accountId.toList)) := by
  have idLength := accountId.toList_length
  constructor
  · intro accepted
    obtain ⟨decoded, read, checked⟩ := Except.bind_eq_ok_iff.mp accepted
    rw [okOr_eq_ok_iff] at read
    split_ifs at checked with sized
    dsimp only at checked
    split_ifs at checked with mismatch
    have isId : (decoded.drop 1).take 20 = accountId.toList :=
      congrArg List.Vector.toList (Except.ok.inj checked)
    match decoded, sized with
    | kind :: rest, sized =>
        have payload : (kind :: rest).take 21 = kind :: accountId.toList := by
          rw [← isId]
          rfl
        refine ⟨kind, ?_⟩
        rw [read, ← payload, not_not.mp mismatch, List.take_append_drop]
  · rintro ⟨kind, read⟩
    have sized : (kind :: accountId.toList
        ++ addressChecksum crypto (kind :: accountId.toList)).length = 25 := by
      simp [addressChecksum_length, idLength]
    have payload : (kind :: accountId.toList
        ++ addressChecksum crypto (kind :: accountId.toList)).take 21
        = kind :: accountId.toList := List.take_left' (by simp [idLength])
    have checksum : (kind :: accountId.toList
        ++ addressChecksum crypto (kind :: accountId.toList)).drop 21
        = addressChecksum crypto (kind :: accountId.toList) :=
      List.drop_left' (by simp [idLength])
    have body : ((kind :: accountId.toList
        ++ addressChecksum crypto (kind :: accountId.toList)).drop 1).take 20
        = accountId.toList := List.take_left' idLength
    rw [decodeXrplAddress, read]
    change (if sized : _ then _ else _) = _
    rw [dif_pos sized]
    simp only [payload, checksum, ne_eq, not_true_eq_false, if_false]
    exact congrArg Except.ok (Subtype.ext body)

/-- An address that base58 reads back decodes to its account id. -/
theorem decodeXrplAddress_of_readBack {base58Decode : String → Option (List UInt8)}
    {accountId : AccountId}
    (readBack
      : base58Decode (accountIdToRAddress crypto accountId)
        = some (addressBytes crypto accountId))
    : decodeXrplAddress crypto base58Decode (accountIdToRAddress crypto accountId)
      = .ok accountId :=
  decodeXrplAddress_eq_ok_iff.mpr ⟨0x00, readBack⟩

end Addresses

/-- The object of one signer. -/
def renderEntry (crypto : Crypto) (signer : SignerEntry) : Json :=
  .object
    [("SignerEntry",
      .object
        [("Account", .string (accountIdToRAddress crypto signer.accountId)),
          ("SignerWeight", .number (.posInt signer.weight.toUInt64))])]

/-- The unsigned transaction that projects a sealed set. -/
def renderSignerlistSet (crypto : Crypto) (escrow : AccountId) (sequence : UInt32)
    (feeDrops : UInt64) (signers : List SignerEntry) (quorum : UInt32) : Json :=
  .object
    [("TransactionType", .string "SignerListSet"),
      ("Account", .string (accountIdToRAddress crypto escrow)),
      ("Fee", .string (toString feeDrops)),
      ("Sequence", .number (.posInt sequence.toUInt64)),
      ("SigningPubKey", .string ""),
      ("SignerQuorum", .number (.posInt quorum.toUInt64)),
      ("SignerEntries", .array ((sortByAccountId signers).map (renderEntry crypto)))]

-----------------------------------------------------------------------------------------
-- The policy gate
-----------------------------------------------------------------------------------------

def allowedTopLevel : List String :=
  ["Account", "TransactionType", "Sequence", "Fee", "SigningPubKey", "SignerQuorum",
    "SignerEntries", "Flags", "SignerListID", "LastLedgerSequence", "NetworkID"]

def innerKeys : List String := ["Account", "SignerWeight"]

/-- `MULTISIG_FEE_MIN_DROPS`. -/
def multisigFeeMinDrops : Nat := 12000

/-- The keys of an object are all among the allowed ones. -/
def checkKeys (allowed : List String) (disallowed : String → String)
    : List (String × Json) → Except String Unit
  | [] => .ok ()
  | (key, _) :: rest =>
      if key ∈ allowed then checkKeys allowed disallowed rest else .error (disallowed key)

/-- The object has all of these keys. -/
def requireKeys (missing : String → String) (members : List (String × Json))
    : List String → Except String Unit
  | [] => .ok ()
  | key :: rest =>
      if (members.lookup key).isSome then requireKeys missing members rest
      else .error (missing key)

/-- A field that must be zero if it is there. -/
def checkZero (txObj : List (String × Json)) (key : String) : Except String Unit :=
  match txObj.lookup key with
  | none => .ok ()
  | some value => do
      let number ← okOr value.asU64 s!"{key} is not an integer"
      if number ≠ 0 then .error s!"{key} must be 0, got {number}" else .ok ()

/-- The `Debug` text of a list of keys. -/
def debugKeys (keys : List String) : String :=
  "[" ++ ", ".intercalate (keys.map String.quote) ++ "]"

/-- One element of `SignerEntries`, after the accounts seen before it. -/
def checkEntry (crypto : Crypto) (base58Decode : String → Option (List UInt8)) (i : Nat)
    (seen : List String) (entryOuter : Json) : Except String (List String) := do
  let outerObj ← okOr entryOuter.asObject s!"SignerEntries[{i}] is not an object"
  let entryKeys := outerObj.map Prod.fst
  if entryKeys ≠ ["SignerEntry"] then
    .error
      (s!"SignerEntries[{i}] must wrap a single " ++ "\"SignerEntry\" key, got "
        ++ debugKeys entryKeys)
  else
    let entry ← okOr (entryOuter.index "SignerEntry").asObject
      s!"SignerEntries[{i}].SignerEntry is not an object"
    checkKeys innerKeys (fun k => s!"SignerEntries[{i}].SignerEntry: disallowed field {k}") entry
    requireKeys (fun k => s!"SignerEntries[{i}].SignerEntry: missing {k}") entry innerKeys
    let acct ← okOr ((entry.lookup "Account").bind Json.asStr)
      s!"SignerEntries[{i}].Account is not a string"
    let _ ← (decodeXrplAddress crypto base58Decode acct).mapError
      (fun e => s!"SignerEntries[{i}].Account invalid r-address ({acct}): {e}")
    if acct ∈ seen then .error s!"duplicate SignerEntries[{i}].Account: {acct}"
    else
      let weight ← okOr ((entry.lookup "SignerWeight").bind Json.asU64)
        s!"SignerEntries[{i}].SignerWeight is not an integer"
      if weight ≠ 1 then
        .error s!"SignerEntries[{i}].SignerWeight must be 1 (equal-weight), got {weight}"
      else .ok (acct :: seen)

def checkEntries (crypto : Crypto) (base58Decode : String → Option (List UInt8)) (i : Nat)
    (seen : List String) : List Json → Except String Unit
  | [] => .ok ()
  | entryOuter :: rest => do
      let seen ← checkEntry crypto base58Decode i seen entryOuter
      checkEntries crypto base58Decode (i + 1) seen rest

def validateSignerlistSetSpecific (crypto : Crypto)
    (base58Decode : String → Option (List UInt8)) (txObj : List (String × Json))
    : Except String Unit := do
  checkKeys allowedTopLevel (fun key => s!"disallowed top-level field: {key}") txObj
  checkZero txObj "Flags"
  checkZero txObj "SignerListID"
  let _ ← okOr ((txObj.lookup "Sequence").bind Json.asU64) "missing or non-integer Sequence"
  let feeStr ← okOr ((txObj.lookup "Fee").bind Json.asStr)
    "missing Fee (must be string-of-drops)"
  let fee ← okOr (parseU64 feeStr) s!"Fee is not numeric: {feeStr}"
  if fee < multisigFeeMinDrops then
    .error s!"Fee {fee} below multisig minimum {multisigFeeMinDrops}"
  else
    let entries ← okOr ((txObj.lookup "SignerEntries").bind Json.asArray)
      "missing or non-array SignerEntries"
    let n := entries.length
    if ¬ (3 ≤ n ∧ n ≤ 8) then .error s!"SignerEntries length {n} outside allowed [3,8]"
    else
      checkEntries crypto base58Decode 0 [] entries
      let quorum ← okOr ((txObj.lookup "SignerQuorum").bind Json.asU64)
        "missing or non-integer SignerQuorum"
      if ¬ (2 ≤ quorum.toNat ∧ quorum.toNat ≤ n) then
        .error s!"SignerQuorum {quorum} outside allowed [2, {n}]"
      else .ok ()

-----------------------------------------------------------------------------------------
-- A rendered set at the gate
-----------------------------------------------------------------------------------------

section Gate

variable {crypto : Crypto} {base58Decode : String → Option (List UInt8)}

variable (crypto base58Decode) in
/-- Base58 reads back the addresses of these signers. -/
def ReadsBack (signers : List SignerEntry) : Prop :=
  ∀ signer ∈ signers,
    base58Decode (accountIdToRAddress crypto signer.accountId)
      = some (addressBytes crypto signer.accountId)

/-- A rendered signer of weight one only fails if its account was seen before. -/
theorem checkEntry_renderEntry {signer : SignerEntry}
    (readBack
      : base58Decode (accountIdToRAddress crypto signer.accountId)
        = some (addressBytes crypto signer.accountId))
    (weight : signer.weight = 1) (i : Nat) (seen : List String)
    : checkEntry crypto base58Decode i seen (renderEntry crypto signer)
      = let acct := accountIdToRAddress crypto signer.accountId
        if acct ∈ seen then .error s!"duplicate SignerEntries[{i}].Account: {acct}"
        else .ok (acct :: seen) := by
  have decoded := decodeXrplAddress_of_readBack crypto readBack
  simp [checkEntry, renderEntry, okOr, Json.asObject, Json.index, Json.get, Json.asStr,
    Json.asU64, checkKeys, requireKeys, innerKeys, decoded, weight, List.lookup,
    Except.mapError, bind, Except.bind]

/-- Rendered signers of weight one pass exactly if their accounts are new and distinct. -/
theorem checkEntries_ok_iff {signers : List SignerEntry}
    (readsBack : ReadsBack crypto base58Decode signers)
    (weights : ∀ signer ∈ signers, signer.weight = 1) (i : Nat) (seen : List String)
    : checkEntries crypto base58Decode i seen (signers.map (renderEntry crypto)) = .ok ()
      ↔ (signers.map (fun signer => accountIdToRAddress crypto signer.accountId)).Nodup
        ∧ ∀ signer ∈ signers, accountIdToRAddress crypto signer.accountId ∉ seen := by
  induction signers generalizing i seen with
  | nil => simp [checkEntries]
  | cons signer rest ih =>
      obtain ⟨readBack, readsRest⟩ := List.forall_mem_cons.mp readsBack
      obtain ⟨weight, weightsRest⟩ := List.forall_mem_cons.mp weights
      simp only [List.map_cons, checkEntries, checkEntry_renderEntry readBack weight,
        List.nodup_cons, List.forall_mem_cons]
      by_cases known : accountIdToRAddress crypto signer.accountId ∈ seen
      · simp [known, bind, Except.bind]
      · simp only [known, if_false, bind, Except.bind, ih readsRest weightsRest]
        simp only [List.mem_cons, not_or, List.mem_map, not_exists, not_and]
        constructor
        · intro given
          exact ⟨⟨fun other member same => (given.2 other member).1 same, given.1⟩,
            not_false, fun other member => (given.2 other member).2⟩
        · intro given
          exact ⟨given.1.2, fun other member =>
            ⟨fun same => given.1.1 other member same, given.2.2 other member⟩⟩

/-- Signers whose addresses read back have distinct addresses exactly if they have distinct
account ids.
-/
theorem addresses_nodup_iff {signers : List SignerEntry}
    (readsBack : ReadsBack crypto base58Decode signers)
    : (signers.map (fun signer => accountIdToRAddress crypto signer.accountId)).Nodup
      ↔ (signers.map SignerEntry.accountId).Nodup := by
  have composed
      : signers.map (fun signer => accountIdToRAddress crypto signer.accountId)
        = (signers.map SignerEntry.accountId).map (accountIdToRAddress crypto) := by
    rw [List.map_map]
    rfl
  have injective
      : ∀ left ∈ signers.map SignerEntry.accountId,
          ∀ right ∈ signers.map SignerEntry.accountId,
            accountIdToRAddress crypto left = accountIdToRAddress crypto right
            → left = right := by
    intro left leftMember right rightMember same
    obtain ⟨signer, signerMember, rfl⟩ := List.mem_map.mp leftMember
    obtain ⟨other, otherMember, rfl⟩ := List.mem_map.mp rightMember
    have first := decodeXrplAddress_of_readBack crypto (readsBack signer signerMember)
    have second := decodeXrplAddress_of_readBack crypto (readsBack other otherMember)
    rw [same, second] at first
    exact (Except.ok.inj first).symm
  rw [composed]
  exact ⟨List.Nodup.of_map _, List.Nodup.map_on injective⟩

/-- The fee of a rendered transaction is read back. -/
theorem parseU64_toString (value : UInt64) : parseU64 (toString value) = some value.toNat := by
  have text : (toString value).toList = Nat.toDigits 10 value.toNat := String.toList_ofList
  have read : Text.parseNat (Nat.toDigits 10 value.toNat) = some value.toNat := by
    rw [Text.parseNat_eq_some Nat.toDigits_ne_nil
      (fun _ member => Text.toDigits_isDigit member), Nat.ofDigitChars_ten_toDigits]
  rw [parseU64, text]
  split
  · rename_i digits signed
    have member : '+' ∈ Nat.toDigits 10 value.toNat := by
      rw [signed]
      exact List.mem_cons_self
    exact absurd (Text.toDigits_isDigit member) (by decide)
  · rw [read]
    simp [Option.filter, value.toNat_lt]

/-- What is left of the gate for a rendered set with the fee it asks for. -/
theorem validate_render_eq {signers : List SignerEntry} (escrow : AccountId)
    (sequence : UInt32) {feeDrops : UInt64} (fee : multisigFeeMinDrops ≤ feeDrops.toNat)
    (quorum : UInt32)
    : (renderSignerlistSet crypto escrow sequence feeDrops signers quorum).asObject.map
          (validateSignerlistSetSpecific crypto base58Decode)
      = some
          (let n := signers.length
          if ¬ (3 ≤ n ∧ n ≤ 8) then .error s!"SignerEntries length {n} outside allowed [3,8]"
          else do
            checkEntries crypto base58Decode 0 []
              ((sortByAccountId signers).map (renderEntry crypto))
            if ¬ (2 ≤ quorum.toNat ∧ quorum.toNat ≤ n) then
              .error s!"SignerQuorum {quorum.toUInt64} outside allowed [2, {n}]"
            else .ok ()) := by
  have length := (sortByAccountId_perm signers).length_eq
  simp [renderSignerlistSet, Json.asObject, validateSignerlistSetSpecific, checkKeys,
    allowedTopLevel, checkZero, List.lookup, okOr, Json.asU64, Json.asStr, Json.asArray,
    parseU64_toString, length, bind, Except.bind, not_lt.mpr fee]

/-- The gate accepts a rendered set exactly if the number of signers and the quorum are in its
bounds and no account is listed twice.
-/
theorem validate_render_ok_iff {signers : List SignerEntry}
    (readsBack : ReadsBack crypto base58Decode signers)
    (weights : ∀ signer ∈ signers, signer.weight = 1) (escrow : AccountId) (sequence : UInt32)
    {feeDrops : UInt64} (fee : multisigFeeMinDrops ≤ feeDrops.toNat) (quorum : UInt32)
    : (renderSignerlistSet crypto escrow sequence feeDrops signers quorum).asObject.map
          (validateSignerlistSetSpecific crypto base58Decode)
        = some (.ok ())
      ↔ (3 ≤ signers.length ∧ signers.length ≤ 8)
        ∧ (signers.map SignerEntry.accountId).Nodup
        ∧ (2 ≤ quorum.toNat ∧ quorum.toNat ≤ signers.length) := by
  have perm := sortByAccountId_perm signers
  have readsSorted : ReadsBack crypto base58Decode (sortByAccountId signers) :=
    fun signer member => readsBack signer (perm.mem_iff.mp member)
  have weightsSorted : ∀ signer ∈ sortByAccountId signers, signer.weight = 1 :=
    fun signer member => weights signer (perm.mem_iff.mp member)
  have entries
      : checkEntries crypto base58Decode 0 []
            ((sortByAccountId signers).map (renderEntry crypto))
          = .ok ()
        ↔ (signers.map SignerEntry.accountId).Nodup := by
    rw [checkEntries_ok_iff readsSorted weightsSorted, addresses_nodup_iff readsSorted,
      (perm.map SignerEntry.accountId).nodup_iff]
    simp
  rw [validate_render_eq escrow sequence fee, Option.some.injEq]
  dsimp only
  by_cases sized : 3 ≤ signers.length ∧ signers.length ≤ 8
  · rw [if_neg (not_not.mpr sized), Except.bind_eq_ok_iff]
    constructor
    · intro accepted
      obtain ⟨_, passed, bounded⟩ := accepted
      refine ⟨sized, entries.mp passed, ?_⟩
      by_contra outside
      rw [if_pos outside] at bounded
      cases bounded
    · intro given
      obtain ⟨_, distinct, bounded⟩ := given
      exact ⟨(), entries.mpr distinct, if_neg (not_not.mpr bounded)⟩
  · rw [if_pos sized]
    exact ⟨fun accepted => (by cases accepted), fun given => absurd given.1 sized⟩

/-- A set for which a statement is prepared is projected exactly if it has three to eight
signers, a quorum of at least two and no account twice.
-/
theorem projection_accepted_iff {escrow : AccountId} {currentEpoch : UInt64}
    {currentEpochDigest : Digest} {signers : List SignerEntry} {quorum : UInt32} {op : UInt8}
    {newMemberMrenclave : Digest} {descriptorSigs : List UInt8}
    {statement : MembershipEpochStatement}
    (prepared
      : prepareStatement crypto escrow currentEpoch currentEpochDigest signers quorum op
            newMemberMrenclave descriptorSigs
          = .ok statement)
    (weights : ∀ signer ∈ signers, signer.weight = 1)
    (readsBack : ReadsBack crypto base58Decode signers) (sequence : UInt32)
    {feeDrops : UInt64} (fee : multisigFeeMinDrops ≤ feeDrops.toNat)
    : (renderSignerlistSet crypto escrow sequence feeDrops signers quorum).asObject.map
          (validateSignerlistSetSpecific crypto base58Decode)
        = some (.ok ())
      ↔ 3 ≤ signers.length ∧ signers.length ≤ 8 ∧ 2 ≤ quorum
        ∧ (signers.map SignerEntry.accountId).Nodup := by
  obtain ⟨admissible, -⟩ := prepareStatement_ok_iff.mp prepared
  have covered : quorum.toNat ≤ signers.length := by
    have total : (signers.map (fun signer => signer.weight.toNat)).sum = signers.length := by
      rw [List.map_congr_left (fun signer member => congrArg UInt32.toNat (weights signer member))]
      simp
    rw [← total]
    exact admissible.covered
  rw [validate_render_ok_iff readsBack weights escrow sequence fee quorum]
  constructor
  · intro given
    obtain ⟨sized, distinct, bounded⟩ := given
    exact ⟨sized.1, sized.2, bounded.1, distinct⟩
  · intro given
    obtain ⟨atLeast, atMost, positive, distinct⟩ := given
    exact ⟨⟨atLeast, atMost⟩, distinct, positive, covered⟩

end Gate

/-- Reading a sample address gives back the bytes it was made from. -/
def sampleBase58Decode (addr : String) : Option (List UInt8) :=
  (sampleMembershipAddresses.find? (fun entry => entry.2 = addr)).map
    (fun entry => natBytes 25 entry.1)

theorem threeSigners_readBack : ReadsBack membershipCrypto sampleBase58Decode threeSigners := by
  have each
      : threeSigners.all
          (fun signer =>
            sampleBase58Decode (accountIdToRAddress membershipCrypto signer.accountId)
              = some (addressBytes membershipCrypto signer.accountId))
        = true := by
    decide +kernel
  exact fun signer member => of_decide_eq_true (List.all_eq_true.mp each signer member)

theorem twoSigners_readBack : ReadsBack membershipCrypto sampleBase58Decode twoSigners :=
  fun signer member => threeSigners_readBack signer (List.mem_append_left _ member)

/-- Three signers of whom two are needed are projected. -/
theorem projection_accepted_three
    : (renderSignerlistSet membershipCrypto (accountOf 0) 7 12000 threeSigners 2).asObject.map
          (validateSignerlistSetSpecific membershipCrypto sampleBase58Decode)
        = some (.ok ()) := by
  have prepared
      : ∃ statement,
          prepareStatement membershipCrypto (accountOf 0) 1 (List.Vector.replicate 32 0)
              threeSigners 2 3 (List.Vector.replicate 32 0) []
            = .ok statement :=
    ⟨_, prepareStatement_ok_iff.mpr ⟨threeSigners_admissible, rfl⟩⟩
  obtain ⟨statement, prepared⟩ := prepared
  apply (projection_accepted_iff prepared (by decide) threeSigners_readBack 7 (by decide)).mpr
  decide +kernel

/-- A statement is prepared for two signers, but no co-signer accepts their projection. -/
theorem two_signers_not_projected
    : (∃ statement,
        prepareStatement membershipCrypto (accountOf 0) 1 (List.Vector.replicate 32 0)
            twoSigners 2 2 (List.Vector.replicate 32 0) []
          = .ok statement)
      ∧ (∀ signer ∈ twoSigners, signer.weight = 1)
      ∧ (renderSignerlistSet membershipCrypto (accountOf 0) 7 12000 twoSigners 2).asObject.map
            (validateSignerlistSetSpecific membershipCrypto sampleBase58Decode)
          ≠ some (.ok ()) := by
  refine ⟨⟨_, prepareStatement_ok_iff.mpr ⟨twoSigners_admissible, rfl⟩⟩, by decide, ?_⟩
  intro accepted
  have sized :=
    ((validate_render_ok_iff twoSigners_readBack (by decide) (accountOf 0) 7 (by decide) 2).mp
      accepted).1
  exact absurd sized (by decide)

end Membership

end PerpDex
