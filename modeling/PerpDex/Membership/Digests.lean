import PerpDex.Membership.SetHash
import PerpDex.Safe.Rederivation

/-! The eight digests that operators, owners and enclaves sign or compare. Each hashes its own
domain string and then its arguments, at fixed widths except for a list of owners, so a digest
stands for one function and one choice of arguments as long as no two texts collide.
-/

namespace PerpDex

namespace Membership

open FixedWidth

def membershipDescriptorDomain : List UInt8 := utf8 "PERP_MEMBERSHIP_DESCRIPTOR_v1"

def mrenclaveGovDescriptorDomain : List UInt8 := utf8 "PERP_MRENCLAVE_GOV_DESCRIPTOR_v2"

def unlPolicyDomain : List UInt8 := utf8 "PERP_UNL_POLICY_v3"

def unlPolicyGovDescriptorDomain : List UInt8 := utf8 "PERP_UNL_POLICY_GOV_DESCRIPTOR_v1"

def spvBaselineDomain : List UInt8 := utf8 "PERP_RESERVES_SPV_BASELINE_v1"

def ownerSetDomain : List UInt8 := utf8 "perp.base-owner-set.v1"

/-- The generation a descriptor is valid in. -/
structure GovContext where
  governingMrenclave : Digest
  membershipEpochDigest : Digest
deriving DecidableEq

section Functions

variable (crypto : Crypto)

/-- What an operator signs of a membership transition. -/
def computeMembershipDescriptorDigest (op : UInt8) (escrow : AccountId)
    (proposedEpoch : UInt64) (prevEpochHash newSetHash newMemberMrenclave : Digest) : Digest :=
  digestOf crypto
    (membershipDescriptorDomain ++ [op] ++ escrow.toList ++ leBytes 8 proposedEpoch.toNat
      ++ prevEpochHash.toList ++ newSetHash.toList ++ newMemberMrenclave.toList)

def computeTrustedMrenclaveDescriptorDigest (op : UInt8) (mrenclave : Digest)
    (escrow : AccountId) (proposedEpoch : UInt64) (prevAllowlistHash : Digest)
    (gen : GovContext) : Digest :=
  digestOf crypto
    (mrenclaveGovDescriptorDomain ++ [op] ++ mrenclave.toList ++ escrow.toList
      ++ leBytes 8 proposedEpoch.toNat ++ prevAllowlistHash.toList
      ++ gen.governingMrenclave.toList ++ gen.membershipEpochDigest.toList)

def unlPolicyMessageHash (unlEpoch : UInt64) (prevUnlHash : Digest) (pinnedLedgerSeq : UInt64)
    (quorumNum quorumDen : UInt32) : Digest :=
  digestOf crypto
    (unlPolicyDomain ++ leBytes 8 unlEpoch.toNat ++ prevUnlHash.toList
      ++ leBytes 8 pinnedLedgerSeq.toNat ++ leBytes 4 quorumNum.toNat
      ++ leBytes 4 quorumDen.toNat)

/-- What the owner signs of a policy update. -/
def unlPolicyGovDescriptorDigest (escrow : AccountId) (unlEpoch : UInt64)
    (prevUnlHash : Digest) (pinnedLedgerSeq : UInt64) (quorum : UInt32 × UInt32)
    (gen : GovContext) : Digest :=
  digestOf crypto
    (unlPolicyGovDescriptorDomain ++ escrow.toList ++ leBytes 8 unlEpoch.toNat
      ++ prevUnlHash.toList ++ leBytes 8 pinnedLedgerSeq.toNat ++ leBytes 4 quorum.1.toNat
      ++ leBytes 4 quorum.2.toNat ++ gen.governingMrenclave.toList
      ++ gen.membershipEpochDigest.toList)

/-- What each cosigner signs over the custody it derived. -/
def spvBaselineMessageHash (shardId : UInt32) (ledgerSeq : UInt64) (ledgerHash : Digest)
    (custodyRlusd custodyXrp : Int64) (rlusdIssuer : AccountId)
    (excludedSendersHash : Digest) : Digest :=
  digestOf crypto
    (spvBaselineDomain ++ leBytes 4 shardId.toNat ++ leBytes 8 ledgerSeq.toNat
      ++ ledgerHash.toList ++ leBytes 8 custodyRlusd.toUInt64.toNat
      ++ leBytes 8 custodyXrp.toUInt64.toNat ++ rlusdIssuer.toList
      ++ excludedSendersHash.toList)

def sortedOwners (owners : List SafeProjection.EvmAddress) : List SafeProjection.EvmAddress :=
  owners.insertionSort (fun left right => left.toList ≤ right.toList)

/-- An owner set as the confirmation quorum signs it. -/
def ownerSetHash (owners : List SafeProjection.EvmAddress) : Digest :=
  digestOf crypto
    (ownerSetDomain ++ (sortedOwners owners).flatMap List.Vector.toList)

end Functions

-----------------------------------------------------------------------------------------
-- One request for any of the eight
-----------------------------------------------------------------------------------------

/-- Which of the eight functions is called. -/
inductive DigestKind where
  | membershipMessage
  | epochAuthority
  | membershipDescriptor
  | trustedMrenclaveDescriptor
  | unlPolicyMessage
  | unlPolicyGovDescriptor
  | spvBaselineMessage
  | ownerSet
deriving DecidableEq

def DigestKind.domain : DigestKind → List UInt8
  | .membershipMessage => membershipEpochDomain
  | .epochAuthority => epochDigestDomain
  | .membershipDescriptor => membershipDescriptorDomain
  | .trustedMrenclaveDescriptor => mrenclaveGovDescriptorDomain
  | .unlPolicyMessage => unlPolicyDomain
  | .unlPolicyGovDescriptor => unlPolicyGovDescriptorDomain
  | .spvBaselineMessage => spvBaselineDomain
  | .ownerSet => ownerSetDomain

def DigestKind.all : List DigestKind :=
  [.membershipMessage, .epochAuthority, .membershipDescriptor, .trustedMrenclaveDescriptor,
    .unlPolicyMessage, .unlPolicyGovDescriptor, .spvBaselineMessage, .ownerSet]

theorem DigestKind.mem_all (kind : DigestKind) : kind ∈ all := by
  cases kind <;> decide

/-- No domain string is the beginning of another. -/
theorem domain_prefixFree : PrefixFree DigestKind.domain := by
  have each
      : ∀ left ∈ DigestKind.all, ∀ right ∈ DigestKind.all,
          left.domain <+: right.domain → left = right := by
    decide +kernel
  exact fun left right => each left left.mem_all right right.mem_all

/-- A call of one of the eight functions. -/
inductive DigestCall where
  | membershipMessage (escrow : AccountId) (proposedEpoch : UInt64)
      (prevEpochHash newSetHash : Digest)
  | epochAuthority (escrow : AccountId) (epoch : UInt64) (prevEpochHash : Digest)
      (signers : List SignerEntry) (quorum : UInt32)
  | membershipDescriptor (op : UInt8) (escrow : AccountId) (proposedEpoch : UInt64)
      (prevEpochHash newSetHash newMemberMrenclave : Digest)
  | trustedMrenclaveDescriptor (op : UInt8) (mrenclave : Digest) (escrow : AccountId)
      (proposedEpoch : UInt64) (prevAllowlistHash : Digest) (gen : GovContext)
  | unlPolicyMessage (unlEpoch : UInt64) (prevUnlHash : Digest) (pinnedLedgerSeq : UInt64)
      (quorumNum quorumDen : UInt32)
  | unlPolicyGovDescriptor (escrow : AccountId) (unlEpoch : UInt64) (prevUnlHash : Digest)
      (pinnedLedgerSeq : UInt64) (quorum : UInt32 × UInt32) (gen : GovContext)
  | spvBaselineMessage (shardId : UInt32) (ledgerSeq : UInt64) (ledgerHash : Digest)
      (custodyRlusd custodyXrp : Int64) (rlusdIssuer : AccountId)
      (excludedSendersHash : Digest)
  | ownerSet (owners : List SafeProjection.EvmAddress)
deriving DecidableEq

namespace DigestCall

variable (crypto : Crypto)

/-- What the call returns. -/
def digest : DigestCall → Digest
  | .membershipMessage escrow proposedEpoch prevEpochHash newSetHash =>
      computeMembershipMessageHash crypto escrow proposedEpoch prevEpochHash newSetHash
  | .epochAuthority escrow epoch prevEpochHash signers quorum =>
      computeEpochAuthorityDigest crypto escrow epoch prevEpochHash signers quorum
  | .membershipDescriptor op escrow proposedEpoch prevEpochHash newSetHash mrenclave =>
      computeMembershipDescriptorDigest crypto op escrow proposedEpoch prevEpochHash newSetHash
        mrenclave
  | .trustedMrenclaveDescriptor op mrenclave escrow proposedEpoch prevAllowlistHash gen =>
      computeTrustedMrenclaveDescriptorDigest crypto op mrenclave escrow proposedEpoch
        prevAllowlistHash gen
  | .unlPolicyMessage unlEpoch prevUnlHash pinnedLedgerSeq quorumNum quorumDen =>
      unlPolicyMessageHash crypto unlEpoch prevUnlHash pinnedLedgerSeq quorumNum quorumDen
  | .unlPolicyGovDescriptor escrow unlEpoch prevUnlHash pinnedLedgerSeq quorum gen =>
      unlPolicyGovDescriptorDigest crypto escrow unlEpoch prevUnlHash pinnedLedgerSeq quorum gen
  | .spvBaselineMessage shardId ledgerSeq ledgerHash custodyRlusd custodyXrp rlusdIssuer
      excludedSendersHash =>
      spvBaselineMessageHash crypto shardId ledgerSeq ledgerHash custodyRlusd custodyXrp
        rlusdIssuer excludedSendersHash
  | .ownerSet owners => ownerSetHash crypto owners

def kind : DigestCall → DigestKind
  | .membershipMessage .. => .membershipMessage
  | .epochAuthority .. => .epochAuthority
  | .membershipDescriptor .. => .membershipDescriptor
  | .trustedMrenclaveDescriptor .. => .trustedMrenclaveDescriptor
  | .unlPolicyMessage .. => .unlPolicyMessage
  | .unlPolicyGovDescriptor .. => .unlPolicyGovDescriptor
  | .spvBaselineMessage .. => .spvBaselineMessage
  | .ownerSet .. => .ownerSet

/-- What is hashed behind the domain string, field by field. -/
def fields : DigestCall → List (List UInt8)
  | .membershipMessage escrow proposedEpoch prevEpochHash newSetHash =>
      [escrow.toList, leBytes 8 proposedEpoch.toNat, prevEpochHash.toList, newSetHash.toList]
  | .epochAuthority escrow epoch prevEpochHash signers quorum =>
      [escrow.toList, leBytes 8 epoch.toNat, prevEpochHash.toList,
        (computeSetHash crypto signers quorum).toList]
  | .membershipDescriptor op escrow proposedEpoch prevEpochHash newSetHash mrenclave =>
      [[op], escrow.toList, leBytes 8 proposedEpoch.toNat, prevEpochHash.toList,
        newSetHash.toList, mrenclave.toList]
  | .trustedMrenclaveDescriptor op mrenclave escrow proposedEpoch prevAllowlistHash gen =>
      [[op], mrenclave.toList, escrow.toList, leBytes 8 proposedEpoch.toNat,
        prevAllowlistHash.toList, gen.governingMrenclave.toList,
        gen.membershipEpochDigest.toList]
  | .unlPolicyMessage unlEpoch prevUnlHash pinnedLedgerSeq quorumNum quorumDen =>
      [leBytes 8 unlEpoch.toNat, prevUnlHash.toList, leBytes 8 pinnedLedgerSeq.toNat,
        leBytes 4 quorumNum.toNat, leBytes 4 quorumDen.toNat]
  | .unlPolicyGovDescriptor escrow unlEpoch prevUnlHash pinnedLedgerSeq quorum gen =>
      [escrow.toList, leBytes 8 unlEpoch.toNat, prevUnlHash.toList,
        leBytes 8 pinnedLedgerSeq.toNat, leBytes 4 quorum.1.toNat, leBytes 4 quorum.2.toNat,
        gen.governingMrenclave.toList, gen.membershipEpochDigest.toList]
  | .spvBaselineMessage shardId ledgerSeq ledgerHash custodyRlusd custodyXrp rlusdIssuer
      excludedSendersHash =>
      [leBytes 4 shardId.toNat, leBytes 8 ledgerSeq.toNat, ledgerHash.toList,
        leBytes 8 custodyRlusd.toUInt64.toNat, leBytes 8 custodyXrp.toUInt64.toNat,
        rlusdIssuer.toList, excludedSendersHash.toList]
  | .ownerSet owners => (sortedOwners owners).map List.Vector.toList

/-- The text that is hashed. -/
def text (call : DigestCall) : List UInt8 :=
  call.kind.domain ++ (call.fields crypto).flatten

/-- The same function of the same arguments; of an epoch's signers and quorum the set hash
counts, and of owners how often each occurs.
-/
def SameArguments : DigestCall → DigestCall → Prop
  | .epochAuthority escrow epoch prevEpochHash signers quorum,
    .epochAuthority otherEscrow otherEpoch otherPrev otherSigners otherQuorum =>
      escrow = otherEscrow ∧ epoch = otherEpoch ∧ prevEpochHash = otherPrev
      ∧ computeSetHash crypto signers quorum = computeSetHash crypto otherSigners otherQuorum
  | .ownerSet owners, .ownerSet others => owners.Perm others
  | call, other => call = other

theorem digest_eq (call : DigestCall)
    : call.digest crypto = digestOf crypto (call.text crypto) := by
  cases call with
  | ownerSet owners =>
      rw [text, fields, ← List.flatMap_def]
      rfl
  | _ =>
      simp only [text, fields, List.flatten_cons, List.flatten_nil, List.append_nil,
        ← List.append_assoc]
      rfl

theorem toList_inj {size : Nat} {left right : Bytes size}
    : left.toList = right.toList ↔ left = right :=
  List.Vector.toList_injective.eq_iff

theorem leBytes_uint32_inj {left right : UInt32}
    : leBytes 4 left.toNat = leBytes 4 right.toNat ↔ left = right :=
  ⟨leBytes_uint32_injective, fun same => same ▸ rfl⟩

theorem leBytes_uint64_inj {left right : UInt64}
    : leBytes 8 left.toNat = leBytes 8 right.toNat ↔ left = right :=
  ⟨fun same => UInt64.toNat_inj.mp (leBytes_injective left.toNat_lt right.toNat_lt same),
    fun same => same ▸ rfl⟩

theorem toUInt64_inj {left right : Int64} : left.toUInt64 = right.toUInt64 ↔ left = right := by
  cases left
  cases right
  simp

theorem GovContext.ext_iff {left right : GovContext}
    : left = right
      ↔ left.governingMrenclave = right.governingMrenclave
        ∧ left.membershipEpochDigest = right.membershipEpochDigest := by
  cases left
  cases right
  simp

theorem sortedOwners_inj {left right : List SafeProjection.EvmAddress}
    : sortedOwners left = sortedOwners right ↔ left.Perm right := by
  have leftPerm : (sortedOwners left).Perm left := StableSort.sortBy_perm _ left
  have rightPerm : (sortedOwners right).Perm right := StableSort.sortBy_perm _ right
  constructor
  · intro same
    exact leftPerm.symm.trans (same ▸ rightPerm)
  · intro permuted
    refine List.Perm.eq_of_pairwise ?_ (StableSort.sortBy_pairwise _ left)
      (StableSort.sortBy_pairwise _ right) (leftPerm.trans (permuted.trans rightPerm.symm))
    intro first second _ _ below above
    exact toList_inj.mp (Std.le_antisymm below above)

/-- Two texts are the same exactly for the same function and the same arguments.
Witness: the domain strings tell the functions apart; behind them the fields of one function
have known widths, and the owners have one width each.
-/
theorem text_eq_iff {left right : DigestCall}
    : left.text crypto = right.text crypto ↔ left.SameArguments crypto right := by
  constructor
  · intro same
    obtain ⟨sameKind, rest⟩ := domain_prefixFree.injective same
    cases left <;> cases right <;> cases sameKind
    case ownerSet.ownerSet.refl owners others =>
      have sized : ∀ list : List SafeProjection.EvmAddress,
          ∀ record ∈ list.map List.Vector.toList, record.length = 20 := by
        intro list record member
        obtain ⟨owner, -, rfl⟩ := List.mem_map.mp member
        exact owner.toList_length
      have records := records_injective (by decide) (sized _) (sized _) rest
      exact sortedOwners_inj.mp
        (List.map_injective_iff.mpr List.Vector.toList_injective records)
    all_goals
      have pieces := fields_injective (by simp [fields, length_leBytes]) rest
      simpa [fields, SameArguments, toList_inj, leBytes_uint32_inj, leBytes_uint64_inj,
        toUInt64_inj, GovContext.ext_iff, Prod.ext_iff, and_assoc] using pieces
  · intro same
    rw [SameArguments.eq_def] at same
    split at same
    · obtain ⟨rfl, rfl, rfl, sets⟩ := same
      simp only [text, kind, fields, sets]
    · simp only [text, kind, fields, sortedOwners_inj.mpr same]
    · rw [same]

end DigestCall

/-- Calls of the eight functions return the same value exactly if they call the same function
with the same arguments. The texts of the two calls are taken not to collide.
-/
theorem governance_digest_eq_iff (crypto : Crypto) (left right : DigestCall)
    (collisionFree
      : digestOf crypto (left.text crypto) = digestOf crypto (right.text crypto)
        → left.text crypto = right.text crypto)
    : left.digest crypto = right.digest crypto ↔ left.SameArguments crypto right := by
  rw [left.digest_eq, right.digest_eq, ← DigestCall.text_eq_iff]
  exact ⟨collisionFree, fun same => congrArg _ same⟩

/-- The consent to an epoch and the epoch's own digest. -/
theorem governance_digest_eq_iff_epochs
    : let message := DigestCall.membershipMessage (accountOf 0) 2 (List.Vector.replicate 32 0)
        (computeSetHash membershipCrypto twoSigners 2)
      let authority := DigestCall.epochAuthority (accountOf 0) 2 (List.Vector.replicate 32 0)
        twoSigners 2
      message.digest membershipCrypto = authority.digest membershipCrypto
        ↔ message.SameArguments membershipCrypto authority :=
  governance_digest_eq_iff membershipCrypto _ _ (fun collide => absurd collide (by decide +kernel))

end Membership

end PerpDex
