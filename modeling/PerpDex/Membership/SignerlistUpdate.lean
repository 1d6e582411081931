import PerpDex.Membership.Projection
import PerpDex.Lib.BTreeMap

/-! The operator's update of the signer list: a difference applied to the list on the ledger,
and the transaction drafted from it. The co-signers pass it through their own gate, so the
rules stated here and there have to agree.
-/

namespace PerpDex

namespace Membership

/-- `BTreeSet<String>`. -/
abbrev AccountSet := BTreeMap String Unit

def accountSet (accounts : List String) : AccountSet :=
  accounts.foldl (fun set account => set.insert account ()) BTreeMap.empty

/-- Two thirds, rounded up. -/
def defaultQuorum (n : Nat) : UInt32 := UInt32.ofNat ((n * 2 + 2) / 3)

/-- Every removal takes an account out of the set. -/
def removeTargets (set : AccountSet) : List String → Except String AccountSet
  | [] => .ok set
  | r :: rest =>
      if r ∈ set.keys then removeTargets (set.erase r) rest
      else .error ("remove target " ++ r ++ " not in current SignerList")

/-- Every addition puts an account into the set. -/
def addTargets (set : AccountSet) : List String → Except String AccountSet
  | [] => .ok set
  | a :: rest =>
      if a ∈ set.keys then .error ("add target " ++ a ++ " already in SignerList")
      else addTargets (set.insert a ()) rest

section Draft

variable (crypto : Crypto) (base58Decode : String → Option (List UInt8))

/-- The first account that is no address is named. -/
def checkAddresses : List String → Except String Unit
  | [] => .ok ()
  | a :: rest => do
      let _ ← (decodeXrplAddress crypto base58Decode a).mapError
        (fun _ => "invalid r-address " ++ a)
      checkAddresses rest

/-- The new entries, in the order of the set. -/
def computeNewEntries (current add remove : List String) : Except String (List String) := do
  let kept ← removeTargets (accountSet current) remove
  let set ← addTargets kept add
  let entries := set.keys
  if ¬ (3 ≤ entries.length ∧ entries.length ≤ 8) then
    .error
      ("new SignerList size " ++ toString entries.length ++ " outside policy bounds [3, 8]")
  else
    checkAddresses crypto base58Decode entries
    return entries

/-- The quorum asked for, or the default, within the bounds for the new entries. -/
def targetQuorum (quorum : Option UInt32) (newEntries : List String) : Except String UInt32 :=
  let newQuorum := quorum.getD (defaultQuorum newEntries.length)
  if 2 ≤ newQuorum.toNat ∧ newQuorum.toNat ≤ newEntries.length % 2 ^ 32 then .ok newQuorum
  else
    .error
      ("new SignerQuorum " ++ toString newQuorum ++ " outside policy bounds [2, "
        ++ toString newEntries.length ++ "]")

end Draft

/-- `FEE_DROPS`. -/
def feeDrops : UInt64 := 12000

def draftEntry (account : String) : Json :=
  .object
    [("SignerEntry",
      .object [("Account", .string account), ("SignerWeight", .number (.posInt 1))])]

/-- The unsigned transaction, with no `Signers` yet. -/
def buildUnsignedTx (escrow : String) (sequence newQuorum : UInt32) (newEntries : List String)
    : Json :=
  .object
    [("TransactionType", .string "SignerListSet"),
      ("Account", .string escrow),
      ("Fee", .string (toString feeDrops)),
      ("Sequence", .number (.posInt sequence.toUInt64)),
      ("SigningPubKey", .string ""),
      ("SignerQuorum", .number (.posInt newQuorum.toUInt64)),
      ("SignerEntries", .array (newEntries.map draftEntry))]

-----------------------------------------------------------------------------------------
-- What the difference leaves
-----------------------------------------------------------------------------------------

theorem mem_keys_accountSet {accounts : List String} {account : String}
    : account ∈ (accountSet accounts).keys ↔ account ∈ accounts := by
  have general
      : ∀ set : AccountSet,
          account ∈ (accounts.foldl (fun set account => set.insert account ()) set).keys
          ↔ account ∈ set.keys ∨ account ∈ accounts := by
    induction accounts with
    | nil => simp
    | cons first rest ih =>
        intro set
        rw [List.foldl_cons, ih, BTreeMap.mem_keys_insert, List.mem_cons]
        tauto
  rw [accountSet, general]
  simp [BTreeMap.empty, BTreeMap.keys]

theorem mem_keys_of_removeTargets {set kept : AccountSet} {remove : List String}
    (removed : removeTargets set remove = .ok kept) (account : String)
    : account ∈ kept.keys ↔ account ∈ set.keys ∧ account ∉ remove := by
  induction remove generalizing set with
  | nil =>
      cases Except.ok.inj removed
      simp
  | cons r rest ih =>
      rw [removeTargets] at removed
      split at removed
      · rw [ih removed, BTreeMap.mem_keys_erase, List.mem_cons]
        tauto
      · cases removed

theorem mem_keys_of_addTargets {set grown : AccountSet} {add : List String}
    (added : addTargets set add = .ok grown) (account : String)
    : account ∈ grown.keys ↔ account ∈ set.keys ∨ account ∈ add := by
  induction add generalizing set with
  | nil =>
      cases Except.ok.inj added
      simp
  | cons a rest ih =>
      rw [addTargets] at added
      split at added
      · cases added
      · rw [ih added, BTreeMap.mem_keys_insert, List.mem_cons]
        tauto

section Gate

variable {crypto : Crypto} {base58Decode : String → Option (List UInt8)}

theorem decodes_of_checkAddresses {accounts : List String}
    (checked : checkAddresses crypto base58Decode accounts = .ok ())
    : ∀ account ∈ accounts, ∃ accountId,
        decodeXrplAddress crypto base58Decode account = .ok accountId := by
  induction accounts with
  | nil => simp
  | cons a rest ih =>
      rw [checkAddresses] at checked
      obtain ⟨accountId, decoded, checkedRest⟩ := Except.bind_eq_ok_iff.mp checked
      refine List.forall_mem_cons.mpr ⟨⟨accountId, ?_⟩, ih checkedRest⟩
      cases found : decodeXrplAddress crypto base58Decode a with
      | error reason =>
          rw [found] at decoded
          cases decoded
      | ok other =>
          rw [found] at decoded
          exact decoded

/-- What computed entries are known to be. -/
structure NewEntries (crypto : Crypto) (base58Decode : String → Option (List UInt8))
    (current add remove entries : List String) : Prop where
  sorted : entries.Pairwise (fun left right => left < right)
  sized : 3 ≤ entries.length ∧ entries.length ≤ 8
  decodes : ∀ account ∈ entries, ∃ accountId,
    decodeXrplAddress crypto base58Decode account = .ok accountId
  mem_iff : ∀ account, account ∈ entries ↔ (account ∈ current ∧ account ∉ remove) ∨ account ∈ add

theorem newEntries_of_compute {current add remove entries : List String}
    (computed : computeNewEntries crypto base58Decode current add remove = .ok entries)
    : NewEntries crypto base58Decode current add remove entries := by
  obtain ⟨kept, removed, computed⟩ := Except.bind_eq_ok_iff.mp computed
  obtain ⟨set, added, computed⟩ := Except.bind_eq_ok_iff.mp computed
  dsimp only at computed
  split at computed
  · cases computed
  · rename_i sized
    obtain ⟨_, checked, same⟩ := Except.bind_eq_ok_iff.mp computed
    cases Except.ok.inj same
    refine ⟨List.pairwise_map.mpr set.sorted, not_not.mp sized,
      decodes_of_checkAddresses checked, ?_⟩
    intro account
    rw [mem_keys_of_addTargets added, mem_keys_of_removeTargets removed, mem_keys_accountSet]

/-- A drafted entry only fails if its account was seen before. -/
theorem checkEntry_draftEntry {account : String} {accountId : AccountId}
    (decoded : decodeXrplAddress crypto base58Decode account = .ok accountId) (i : Nat)
    (seen : List String)
    : checkEntry crypto base58Decode i seen (draftEntry account)
      = if account ∈ seen then .error s!"duplicate SignerEntries[{i}].Account: {account}"
        else .ok (account :: seen) := by
  simp [checkEntry, draftEntry, okOr, Json.asObject, Json.index, Json.get, Json.asStr,
    Json.asU64, checkKeys, requireKeys, innerKeys, decoded, List.lookup,
    Except.mapError, bind, Except.bind]

/-- Distinct addresses pass, where none of them was seen before. -/
theorem checkEntries_draft {accounts : List String}
    (decodes : ∀ account ∈ accounts, ∃ accountId,
      decodeXrplAddress crypto base58Decode account = .ok accountId)
    (distinct : accounts.Nodup) (i : Nat) {seen : List String}
    (fresh : ∀ account ∈ accounts, account ∉ seen)
    : checkEntries crypto base58Decode i seen (accounts.map draftEntry) = .ok () := by
  induction accounts generalizing i seen with
  | nil => rfl
  | cons account rest ih =>
      obtain ⟨⟨accountId, decoded⟩, decodesRest⟩ := List.forall_mem_cons.mp decodes
      obtain ⟨first, freshRest⟩ := List.forall_mem_cons.mp fresh
      obtain ⟨apart, distinctRest⟩ := List.nodup_cons.mp distinct
      rw [List.map_cons, checkEntries, checkEntry_draftEntry decoded, if_neg first]
      refine ih decodesRest distinctRest (i + 1) ?_
      intro other member
      rw [List.mem_cons, not_or]
      exact ⟨fun same => apart (same ▸ member), freshRest other member⟩

/-- What is left of the gate for a drafted transaction. -/
theorem validate_draft_eq (escrow : String) (sequence newQuorum : UInt32)
    (newEntries : List String)
    : (buildUnsignedTx escrow sequence newQuorum newEntries).asObject.map
          (validateSignerlistSetSpecific crypto base58Decode)
      = some
          (let n := newEntries.length
          if ¬ (3 ≤ n ∧ n ≤ 8) then .error s!"SignerEntries length {n} outside allowed [3,8]"
          else do
            checkEntries crypto base58Decode 0 [] (newEntries.map draftEntry)
            if ¬ (2 ≤ newQuorum.toNat ∧ newQuorum.toNat ≤ n) then
              .error s!"SignerQuorum {newQuorum.toUInt64} outside allowed [2, {n}]"
            else .ok ()) := by
  have fee : ¬ feeDrops.toNat < multisigFeeMinDrops := by decide
  simp [buildUnsignedTx, Json.asObject, validateSignerlistSetSpecific, checkKeys,
    allowedTopLevel, checkZero, List.lookup, okOr, Json.asU64, Json.asStr, Json.asArray,
    parseU64_toString, bind, Except.bind, fee]

/-- Whatever difference yields entries and a quorum, the drafted transaction passes the gate,
and its entries are the current ones without the removed ones and with the added ones, each
once.
-/
theorem drafted_update_accepted (crypto : Crypto)
    (base58Decode : String → Option (List UInt8)) (current add remove : List String)
    (quorum : Option UInt32) (escrow : String) (sequence newQuorum : UInt32)
    (newEntries : List String)
    (computed : computeNewEntries crypto base58Decode current add remove = .ok newEntries)
    (bounded : targetQuorum quorum newEntries = .ok newQuorum)
    : (buildUnsignedTx escrow sequence newQuorum newEntries).asObject.map
          (validateSignerlistSetSpecific crypto base58Decode)
        = some (.ok ())
      ∧ newEntries.Nodup
      ∧ ∀ account, account ∈ newEntries
        ↔ (account ∈ current ∧ account ∉ remove) ∨ account ∈ add := by
  have entries := newEntries_of_compute computed
  have distinct : newEntries.Nodup := entries.sorted.imp (fun below => ne_of_lt below)
  refine ⟨?_, distinct, entries.mem_iff⟩
  have passed := checkEntries_draft entries.decodes distinct 0
    (fun account _ => List.not_mem_nil (a := account))
  have inBounds : 2 ≤ newQuorum.toNat ∧ newQuorum.toNat ≤ newEntries.length := by
    rw [targetQuorum] at bounded
    split at bounded
    · rename_i within
      cases Except.ok.inj bounded
      exact ⟨within.1, within.2.trans (Nat.mod_le _ _)⟩
    · cases bounded
  rw [validate_draft_eq]
  simp only [entries.sized, inBounds, and_self, not_true_eq_false, if_false, passed, bind,
    Except.bind]

/-- One of three signers is replaced, and the quorum left to its default. -/
theorem drafted_update_accepted_replacement
    : (buildUnsignedTx "rrrrrrrrrrrrrrrrrrrrrhoLvTp" 42 2
            ["rUMWit4zszpvHqMtipv8GTQ8sZ4wnnCaej", "rn5VSH7XHnpWWbNdoZ4FkGXXqZ7M9ruuaW",
              "rrrrrrrrrrrrrrrrrrrrBZbvji"]).asObject.map
          (validateSignerlistSetSpecific membershipCrypto sampleBase58Decode)
        = some (.ok ())
      ∧ ["rUMWit4zszpvHqMtipv8GTQ8sZ4wnnCaej", "rn5VSH7XHnpWWbNdoZ4FkGXXqZ7M9ruuaW",
          "rrrrrrrrrrrrrrrrrrrrBZbvji"].Nodup := by
  have accepted := drafted_update_accepted membershipCrypto sampleBase58Decode
    ["rn5VSH7XHnpWWbNdoZ4FkGXXqZ7M9ruuaW", "rUMWit4zszpvHqMtipv8GTQ8sZ4wnnCaej",
      "rrrrrrrrrrrrrrrrrrrrrhoLvTp"]
    ["rrrrrrrrrrrrrrrrrrrrBZbvji"] ["rrrrrrrrrrrrrrrrrrrrrhoLvTp"] none
    "rrrrrrrrrrrrrrrrrrrrrhoLvTp" 42 2
    ["rUMWit4zszpvHqMtipv8GTQ8sZ4wnnCaej", "rn5VSH7XHnpWWbNdoZ4FkGXXqZ7M9ruuaW",
      "rrrrrrrrrrrrrrrrrrrrBZbvji"]
    (by decide +kernel) (by rfl)
  exact ⟨accepted.1, accepted.2.1⟩

end Gate

end Membership

end PerpDex
