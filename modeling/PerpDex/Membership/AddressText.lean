import PerpDex.Lib.Base58
import PerpDex.Membership.Projection

/-! Addresses as texts.
An address is written with the type byte zero. Reading one leaves the type byte out without
looking at it, so a text of another type stands for the same account. The gate for a signer
list compares texts, and lets an account through twice if its texts differ in the type byte.
-/

namespace PerpDex

namespace Membership

section Texts

variable (crypto : Crypto) (base58Decode : String → Option (List UInt8))

/-- Base58 goes back and forth between byte strings and the texts it reads. -/
structure Base58Inverse : Prop where
  decode_encode : ∀ bytes, base58Decode (crypto.base58 bytes) = some bytes
  encode_decode
    : ∀ {text bytes}, base58Decode text = some bytes → crypto.base58 bytes = text

/-- The text is read as an address. -/
def Accepted (addr : String) : Prop :=
  ∃ accountId, decodeXrplAddress crypto base58Decode addr = .ok accountId

/-- The first of the bytes that an address is written for. -/
def typeByte (addr : String) : Option UInt8 := (base58Decode addr).bind List.head?

/-- Reading and writing are inverse on these texts, and no two of them are one account. -/
structure InverseOn (addrs : List String) : Prop where
  rewritten
    : ∀ addr ∈ addrs, ∀ accountId,
        decodeXrplAddress crypto base58Decode addr = .ok accountId
        → accountIdToRAddress crypto accountId = addr
  distinct
    : ∀ left ∈ addrs, ∀ right ∈ addrs, ∀ accountId,
        decodeXrplAddress crypto base58Decode left = .ok accountId
        → decodeXrplAddress crypto base58Decode right = .ok accountId
        → left = right

/-- The account that a text is read as. -/
def readAccount (addr : String) : Option AccountId :=
  (decodeXrplAddress crypto base58Decode addr).toOption

/-- The account of one element of `SignerEntries`. -/
def entryAccount (entryOuter : Json) : Option String :=
  (entryOuter.index "SignerEntry").asObject.bind
    (fun entry => (entry.lookup "Account").bind Json.asStr)

/-- The accounts a transaction lists. -/
def listedAccounts (txObj : List (String × Json)) : List String :=
  (((txObj.lookup "SignerEntries").bind Json.asArray).getD []).filterMap entryAccount

end Texts

-----------------------------------------------------------------------------------------
-- Reading
-----------------------------------------------------------------------------------------

section Reading

variable {crypto : Crypto} {base58Decode : String → Option (List UInt8)}

theorem readAccount_eq_some_iff {addr : String} {accountId : AccountId}
    : readAccount crypto base58Decode addr = some accountId
      ↔ decodeXrplAddress crypto base58Decode addr = .ok accountId := by
  unfold readAccount
  cases decodeXrplAddress crypto base58Decode addr with
  | error reason => exact ⟨fun read => (by cases read), fun read => (by cases read)⟩
  | ok other => simp [Except.toOption]

/-- Writing what is read gives the text back if its type byte is zero. -/
theorem rewritten_iff (base58 : Base58Inverse crypto base58Decode) {addr : String}
    {accountId : AccountId}
    (accepted : decodeXrplAddress crypto base58Decode addr = .ok accountId)
    : accountIdToRAddress crypto accountId = addr
      ↔ typeByte base58Decode addr = some 0x00 := by
  obtain ⟨kind, read⟩ := decodeXrplAddress_eq_ok_iff.mp accepted
  have isKind : typeByte base58Decode addr = some kind := by
    rw [typeByte, read]
    rfl
  rw [isKind]
  constructor
  · rintro rfl
    rw [accountIdToRAddress, base58.decode_encode] at read
    exact congrArg some (List.cons.inj (Option.some.inj read)).1.symm
  · intro zero
    cases Option.some.inj zero
    exact base58.encode_decode read

/-- Texts of one account and one type are the same. -/
theorem eq_of_typeByte_eq (base58 : Base58Inverse crypto base58Decode) {left right : String}
    {accountId : AccountId}
    (leftAccepted : decodeXrplAddress crypto base58Decode left = .ok accountId)
    (rightAccepted : decodeXrplAddress crypto base58Decode right = .ok accountId)
    (sameType : typeByte base58Decode left = typeByte base58Decode right)
    : left = right := by
  obtain ⟨leftKind, leftRead⟩ := decodeXrplAddress_eq_ok_iff.mp leftAccepted
  obtain ⟨rightKind, rightRead⟩ := decodeXrplAddress_eq_ok_iff.mp rightAccepted
  rw [typeByte, typeByte, leftRead, rightRead] at sameType
  obtain rfl : leftKind = rightKind := Option.some.inj sameType
  rw [← base58.encode_decode leftRead, ← base58.encode_decode rightRead]

theorem inverseOn_iff (base58 : Base58Inverse crypto base58Decode) (addrs : List String)
    : InverseOn crypto base58Decode addrs
      ↔ ∀ addr ∈ addrs, Accepted crypto base58Decode addr
        → typeByte base58Decode addr = some 0x00 := by
  constructor
  · rintro inverse addr member ⟨accountId, accepted⟩
    exact (rewritten_iff base58 accepted).mp (inverse.rewritten addr member accountId accepted)
  · intro typed
    constructor
    · intro addr member accountId accepted
      exact (rewritten_iff base58 accepted).mpr (typed addr member ⟨accountId, accepted⟩)
    · intro left leftMember right rightMember accountId leftAccepted rightAccepted
      refine eq_of_typeByte_eq base58 leftAccepted rightAccepted ?_
      rw [typed left leftMember ⟨accountId, leftAccepted⟩,
        typed right rightMember ⟨accountId, rightAccepted⟩]

end Reading

-----------------------------------------------------------------------------------------
-- The gate
-----------------------------------------------------------------------------------------

section Gate

variable {crypto : Crypto} {base58Decode : String → Option (List UInt8)}

/-- An element that passes has a new account, which is read as an address. -/
theorem checkEntry_ok {i : Nat} {seen seen' : List String} {entryOuter : Json}
    (passed : checkEntry crypto base58Decode i seen entryOuter = .ok seen')
    : ∃ acct, entryAccount entryOuter = some acct
      ∧ Accepted crypto base58Decode acct ∧ acct ∉ seen ∧ seen' = acct :: seen := by
  unfold checkEntry at passed
  obtain ⟨outerObj, -, passed⟩ := Except.bind_eq_ok_iff.mp passed
  dsimp only at passed
  split_ifs at passed
  simp only [Except.bind_eq_ok_iff, okOr_eq_ok_iff] at passed
  obtain ⟨entry, isObject, -, -, -, -, acct, isAccount, accountId, decoded, checked⟩ := passed
  split_ifs at checked with known
  obtain ⟨weight, -, checked⟩ := Except.bind_eq_ok_iff.mp checked
  split_ifs at checked
  refine ⟨acct, ?_, ⟨accountId, ?_⟩, known, (Except.ok.inj checked).symm⟩
  · rw [entryAccount, isObject]
    exact isAccount
  · cases read : decodeXrplAddress crypto base58Decode acct with
    | error reason =>
        rw [read] at decoded
        cases decoded
    | ok other =>
        rw [read] at decoded
        exact decoded

/-- The accounts of elements that pass are different texts, each read as an address. -/
theorem checkEntries_ok {entries : List Json}
    : ∀ {i : Nat} {seen : List String},
      checkEntries crypto base58Decode i seen entries = .ok ()
      → (entries.filterMap entryAccount).Nodup
        ∧ ∀ acct ∈ entries.filterMap entryAccount,
            Accepted crypto base58Decode acct ∧ acct ∉ seen := by
  induction entries with
  | nil => exact fun _ => ⟨List.nodup_nil, by simp⟩
  | cons entryOuter rest ih =>
      intro i seen passed
      obtain ⟨seen', first, others⟩ := Except.bind_eq_ok_iff.mp passed
      obtain ⟨acct, isAccount, accepted, new, rfl⟩ := checkEntry_ok first
      obtain ⟨nodup, each⟩ := ih others
      rw [List.filterMap_cons_some isAccount]
      refine ⟨List.nodup_cons.mpr ⟨?_, nodup⟩, List.forall_mem_cons.mpr ⟨⟨accepted, new⟩, ?_⟩⟩
      · exact fun again => (each acct again).2 List.mem_cons_self
      · intro other member
        obtain ⟨otherAccepted, apart⟩ := each other member
        exact ⟨otherAccepted, fun known => apart (List.mem_cons_of_mem _ known)⟩

theorem validateSignerlistSetSpecific_ok {txObj : List (String × Json)}
    (passed : validateSignerlistSetSpecific crypto base58Decode txObj = .ok ())
    : (listedAccounts txObj).Nodup
      ∧ ∀ acct ∈ listedAccounts txObj, Accepted crypto base58Decode acct := by
  simp only [validateSignerlistSetSpecific, Except.bind_eq_ok_iff, okOr_eq_ok_iff] at passed
  obtain ⟨-, -, -, -, -, -, -, -, feeStr, -, fee, -, passed⟩ := passed
  split_ifs at passed
  simp only [Except.bind_eq_ok_iff, okOr_eq_ok_iff] at passed
  obtain ⟨entries, isArray, passed⟩ := passed
  split_ifs at passed
  simp only [Except.bind_eq_ok_iff] at passed
  obtain ⟨⟨⟩, checked, _⟩ := passed
  rw [listedAccounts, isArray]
  obtain ⟨nodup, each⟩ := checkEntries_ok checked
  exact ⟨nodup, fun acct member => (each acct member).1⟩

end Gate

/-- Reading addresses is inverse to writing them exactly on texts with the type byte zero, and
a signer list of such texts that passes the gate lists no account twice.
-/
theorem address_inverse_iff {crypto : Crypto} {base58Decode : String → Option (List UInt8)}
    (base58 : Base58Inverse crypto base58Decode)
    : (∀ accountId,
        decodeXrplAddress crypto base58Decode (accountIdToRAddress crypto accountId)
        = .ok accountId)
      ∧ (∀ addrs,
          InverseOn crypto base58Decode addrs
          ↔ ∀ addr ∈ addrs, Accepted crypto base58Decode addr
            → typeByte base58Decode addr = some 0x00)
      ∧ ∀ txObj,
          validateSignerlistSetSpecific crypto base58Decode txObj = .ok ()
          → (∀ addr ∈ listedAccounts txObj, Accepted crypto base58Decode addr)
            ∧ ((∀ addr ∈ listedAccounts txObj, typeByte base58Decode addr = some 0x00)
              → ((listedAccounts txObj).filterMap (readAccount crypto base58Decode)).Nodup) := by
  refine ⟨fun accountId => ?_, inverseOn_iff base58, fun txObj passed => ?_⟩
  · exact decodeXrplAddress_of_readBack crypto (base58.decode_encode _)
  · obtain ⟨nodup, accepted⟩ := validateSignerlistSetSpecific_ok passed
    refine ⟨accepted, fun typed => ?_⟩
    have inverse := (inverseOn_iff base58 (listedAccounts txObj)).mpr
      (fun addr member _ => typed addr member)
    refine List.pairwise_filterMap.mpr (nodup.imp_of_mem ?_)
    rintro left right leftMember rightMember differ accountId leftRead _ rightRead rfl
    refine differ (inverse.distinct left leftMember right rightMember accountId ?_ ?_)
    · exact readAccount_eq_some_iff.mp leftRead
    · exact readAccount_eq_some_iff.mp rightRead

def xrplAlphabet : List Char := "rpshnaf39wBUDNEGHJKLM4PQRST7VWXYZ2bcdeCg65jkm8oFqi1tuvAxyz".toList

def xrplDecode : String → Option (List UInt8) := Base58.decode xrplAlphabet

/-- SHA-256 on the addresses below, and base58. -/
def addressCrypto : Crypto :=
  { sampleCrypto with
    sha256 := fun bytes =>
      natBytes 32
        (((sampleDigests
          ++ [(0x010533b94b70bbd434f0ad01925669bedf3469832b58,
                0x4e0055fbd110d02c18dd7f9926bb82083c6db99e412def87a2d7317ad63db1d6),
              (0x014e0055fbd110d02c18dd7f9926bb82083c6db99e412def87a2d7317ad63db1d6,
                0x290e68f86736ba4dc100bcf49e04b176ab8721e859103d887b484fab52f726ee),
              (0x01000000000000000000000000000000000000000001,
                0xd54919bdf4788f01da1b6888dfb28b548e0e1e358083872d25d31fbb53db0585),
              (0x01d54919bdf4788f01da1b6888dfb28b548e0e1e358083872d25d31fbb53db0585,
                0x9d35b5b9d5befcf2d6b89994f7f64279b0645d5d4a5f1a6fa2dcc615bbed04ef)]).lookup
          (bytesNat bytes)).getD 0)
    base58 := Base58.encode xrplAlphabet }

theorem addressCrypto_base58 : Base58Inverse addressCrypto xrplDecode where
  decode_encode := Base58.decode_encode (by decide +kernel) (by decide +kernel)
  encode_decode := Base58.encode_of_decode (by decide +kernel)

def makerAccount : AccountId :=
  ⟨natBytes 20 0x33b94b70bbd434f0ad01925669bedf3469832b58, by decide⟩

/-- A signer list with an entry for each of some texts. -/
def signerList (addrs : List String) : List (String × Json) :=
  [("TransactionType", .string "SignerListSet"),
    ("Account", .string takerAddress),
    ("Fee", .string "12000"),
    ("Sequence", .number (.posInt 7)),
    ("SigningPubKey", .string ""),
    ("SignerQuorum", .number (.posInt 2)),
    ("SignerEntries",
      .array (addrs.map (fun addr =>
        .object
          [("SignerEntry",
            .object [("Account", .string addr), ("SignerWeight", .number (.posInt 1))])])))]

/-- The two traders and the account with the number one. -/
def threeAddresses : List String := [makerAddress, takerAddress, "rrrrrrrrrrrrrrrrrrrrBZbvji"]

/-- All three texts are written back as they were, and the list of the three, which passes the
gate, names three accounts.
-/
theorem address_inverse_three
    : InverseOn addressCrypto xrplDecode threeAddresses
      ∧ ((listedAccounts (signerList threeAddresses)).filterMap
          (readAccount addressCrypto xrplDecode)).Nodup := by
  have typed : ∀ addr ∈ threeAddresses, typeByte xrplDecode addr = some 0x00 := by
    decide +kernel
  have passed
      : validateSignerlistSetSpecific addressCrypto xrplDecode (signerList threeAddresses)
        = .ok () := by
    decide +kernel
  have listed : listedAccounts (signerList threeAddresses) = threeAddresses := by
    rfl
  obtain ⟨-, inverse, gated⟩ := address_inverse_iff addressCrypto_base58
  exact ⟨(inverse _).mpr (fun addr member _ => typed addr member),
    (gated _ passed).2 (listed ▸ typed)⟩

/-- The maker's account under the type byte five. -/
def otherTypeAddress : String := "saQWMFxxFyLtbkAhvCsRwttTznmhbqH87f"

/-- A signer list with the maker's account under both texts. -/
def doubledSigner : List (String × Json) :=
  signerList [makerAddress, otherTypeAddress, takerAddress]

/-- Two texts are read as one account, the second is not what that account is written as, and
the gate lets a list with both through.
-/
theorem one_account_two_texts
    : makerAddress ≠ otherTypeAddress
      ∧ decodeXrplAddress addressCrypto xrplDecode makerAddress = .ok makerAccount
      ∧ decodeXrplAddress addressCrypto xrplDecode otherTypeAddress = .ok makerAccount
      ∧ accountIdToRAddress addressCrypto makerAccount ≠ otherTypeAddress
      ∧ validateSignerlistSetSpecific addressCrypto xrplDecode doubledSigner = .ok () := by
  decide +kernel

end Membership

end PerpDex
