import PerpDex.Lib.FixedWidth
import PerpDex.Lib.StableSort
import PerpDex.Membership.Collectors

/-! What the set hash of a signer list determines. The entries are sorted by account alone, so
entries of one account are hashed in the order they came in.
-/

namespace PerpDex

namespace Membership

open FixedWidth StableSort

/-- Bytes of a fixed width determine the value they are written for. -/
theorem leBytes_injective {width left right : Nat} (leftFits : left < 256 ^ width)
    (rightFits : right < 256 ^ width) (same : leBytes width left = leBytes width right)
    : left = right := by
  have values := congrArg Wire.leValue same
  rwa [leValue_leBytes, leValue_leBytes, Nat.mod_eq_of_lt leftFits,
    Nat.mod_eq_of_lt rightFits] at values

theorem leBytes_uint32_injective {left right : UInt32}
    (same : leBytes 4 left.toNat = leBytes 4 right.toNat)
    : left = right :=
  UInt32.toNat_inj.mp (leBytes_injective left.toNat_lt right.toNat_lt same)

/-- What is hashed of one signer. -/
def SignerEntry.record (signer : SignerEntry) : List UInt8 :=
  signer.accountId.toList ++ leBytes 4 signer.weight.toNat

theorem SignerEntry.length_record (signer : SignerEntry) : signer.record.length = 24 := by
  rw [record, List.length_append, List.Vector.toList_length, length_leBytes]

theorem SignerEntry.record_injective : Function.Injective SignerEntry.record := by
  intro left right same
  obtain ⟨accounts, weights⟩ := List.append_inj same (by simp)
  cases left
  cases right
  obtain rfl := List.Vector.toList_injective accounts
  obtain rfl := leBytes_uint32_injective weights
  rfl

/-- The text that the set hash is taken of. -/
def setHashText (signers : List SignerEntry) (quorum : UInt32) : List UInt8 :=
  leBytes 4 ((sortByAccountId signers).length % 2 ^ 32) ++ leBytes 4 quorum.toNat
    ++ (sortByAccountId signers).flatMap SignerEntry.record

theorem computeSetHash_eq (crypto : Crypto) (signers : List SignerEntry) (quorum : UInt32)
    : computeSetHash crypto signers quorum = digestOf crypto (setHashText signers quorum) :=
  rfl

/-- The text determines the quorum and the sorted signers. -/
theorem setHashText_injective {left right : List SignerEntry} {leftQuorum rightQuorum : UInt32}
    : setHashText left leftQuorum = setHashText right rightQuorum
      ↔ sortByAccountId left = sortByAccountId right ∧ leftQuorum = rightQuorum := by
  constructor
  · intro same
    obtain ⟨header, records⟩ := List.append_inj same (by simp [length_leBytes])
    obtain ⟨-, quorums⟩ := List.append_inj header (by simp [length_leBytes])
    refine ⟨?_, leBytes_uint32_injective quorums⟩
    have sized : ∀ signers : List SignerEntry,
        ∀ record ∈ signers.map SignerEntry.record, record.length = 24 := by
      intro signers record member
      obtain ⟨signer, -, rfl⟩ := List.mem_map.mp member
      exact signer.length_record
    rw [List.flatMap_def, List.flatMap_def] at records
    exact List.map_injective_iff.mpr SignerEntry.record_injective
      (records_injective (by decide) (sized _) (sized _) records)
  · rintro ⟨sorted, rfl⟩
    rw [setHashText, setHashText, sorted]

theorem sortByAccountId_eq_iff {left right : List SignerEntry}
    : sortByAccountId left = sortByAccountId right
      ↔ ∀ account : AccountId,
        left.filter (fun signer => signer.accountId = account)
        = right.filter (fun signer => signer.accountId = account) := by
  have ofAccount
      : ∀ (signers : List SignerEntry) (account : AccountId),
          ofKey (fun signer : SignerEntry => signer.accountId.toList) account.toList signers
          = signers.filter (fun signer => signer.accountId = account) := by
    intro signers account
    refine List.filter_congr ?_
    intro signer _
    simp [List.Vector.toList_injective.eq_iff]
  refine (sortBy_eq_iff (fun signer : SignerEntry => signer.accountId.toList)).trans ?_
  constructor
  · intro same account
    rw [← ofAccount, ← ofAccount, same]
  · intro same value
    by_cases sized : value.length = 20
    · exact (ofAccount left ⟨value, sized⟩).trans
        ((same ⟨value, sized⟩).trans (ofAccount right ⟨value, sized⟩).symm)
    · -- no account has this many bytes
      have none : ∀ signers : List SignerEntry,
          ofKey (fun signer : SignerEntry => signer.accountId.toList) value signers = [] := by
        intro signers
        refine List.filter_eq_nil_iff.mpr ?_
        intro signer _ isValue
        rw [decide_eq_true_eq] at isValue
        exact sized (isValue ▸ signer.accountId.toList_length)
      rw [none, none]

/-- Entries of each account in one order make up permutations. -/
theorem perm_of_sameOrder {left right : List SignerEntry}
    (sameOrder
      : ∀ account : AccountId,
        left.filter (fun signer => signer.accountId = account)
        = right.filter (fun signer => signer.accountId = account))
    : left.Perm right :=
  (sortByAccountId_perm left).symm.trans
    (sortByAccountId_eq_iff.mpr sameOrder ▸ sortByAccountId_perm right)

/-- The set hash tells signer lists apart up to their order, exactly where permutations have
the entries of each account in one order. The texts of the two lists are taken not to collide.
-/
theorem setHash_canonical_iff (crypto : Crypto) (left right : List SignerEntry)
    (leftQuorum rightQuorum : UInt32)
    (collisionFree
      : digestOf crypto (setHashText left leftQuorum)
          = digestOf crypto (setHashText right rightQuorum)
        → setHashText left leftQuorum = setHashText right rightQuorum)
    : (computeSetHash crypto left leftQuorum = computeSetHash crypto right rightQuorum
        ↔ left.Perm right ∧ leftQuorum = rightQuorum)
      ↔ (left.Perm right → leftQuorum = rightQuorum → ∀ account : AccountId,
          left.filter (fun signer => signer.accountId = account)
          = right.filter (fun signer => signer.accountId = account)) := by
  have hashes
      : computeSetHash crypto left leftQuorum = computeSetHash crypto right rightQuorum
        ↔ (∀ account : AccountId,
            left.filter (fun signer => signer.accountId = account)
            = right.filter (fun signer => signer.accountId = account))
          ∧ leftQuorum = rightQuorum := by
    rw [computeSetHash_eq, computeSetHash_eq, ← sortByAccountId_eq_iff, ← setHashText_injective]
    exact ⟨collisionFree, fun same => congrArg _ same⟩
  rw [hashes]
  constructor
  · intro canonical permuted sameQuorum
    exact (canonical.mpr ⟨permuted, sameQuorum⟩).1
  · intro ordered
    constructor
    · rintro ⟨sameOrder, sameQuorum⟩
      exact ⟨perm_of_sameOrder sameOrder, sameQuorum⟩
    · rintro ⟨permuted, sameQuorum⟩
      exact ⟨ordered permuted sameQuorum, sameQuorum⟩

theorem setHash_canonical_iff_twoSigners
    : (computeSetHash membershipCrypto twoSigners 2
          = computeSetHash membershipCrypto twoSigners.reverse 2
        ↔ twoSigners.Perm twoSigners.reverse ∧ (2 : UInt32) = 2)
      ↔ (twoSigners.Perm twoSigners.reverse → (2 : UInt32) = 2 → ∀ account : AccountId,
          twoSigners.filter (fun signer => signer.accountId = account)
          = twoSigners.reverse.filter (fun signer => signer.accountId = account)) :=
  setHash_canonical_iff membershipCrypto twoSigners twoSigners.reverse 2 2
    (fun _ => by decide +kernel)

/-- One account listed twice, with different weights. -/
def listedTwice : List SignerEntry := [⟨accountOf 1, 1⟩, ⟨accountOf 1, 2⟩]

/-- Digests of the two orders of the list, by input. -/
def listedTwiceDigests : List (Nat × Nat) :=
  [(0x010200000002000000000000000000000000000000000000000000000101000000000000000000000000000000000000000000000102000000,
      0x062420ffef301c66f4399cb7fae42b9e42a8c99567a535c22701f0194e01b922),
    (0x010200000002000000000000000000000000000000000000000000000102000000000000000000000000000000000000000000000101000000,
      0x529e3cdc7b1bd8959c92817b3fc6b730154a174c5f14024ce9f46d1f020b1a18)]

def listedTwiceCrypto : Crypto :=
  { sampleCrypto with
    sha256 := fun bytes => natBytes 32 ((listedTwiceDigests.lookup (bytesNat bytes)).getD 0) }

/-- The two orders of a list that names an account twice have different hashes, although
their texts do not collide.
-/
theorem listedTwice_setHash_ne
    : (digestOf listedTwiceCrypto (setHashText listedTwice 2)
            = digestOf listedTwiceCrypto (setHashText listedTwice.reverse 2)
          → setHashText listedTwice 2 = setHashText listedTwice.reverse 2)
      ∧ listedTwice.reverse.Perm listedTwice
      ∧ computeSetHash listedTwiceCrypto listedTwice 2
        ≠ computeSetHash listedTwiceCrypto listedTwice.reverse 2 := by
  have differ
      : computeSetHash listedTwiceCrypto listedTwice 2
        ≠ computeSetHash listedTwiceCrypto listedTwice.reverse 2 := by
    decide +kernel
  exact ⟨fun collide => absurd collide differ, List.reverse_perm _, differ⟩

end Membership

end PerpDex
