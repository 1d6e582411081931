import PerpDex.Auth.Signature

/-! Membership epochs: the canonical encodings that nodes hash, and the statement a quorum
is asked to authorise.
-/

namespace PerpDex

/-- `[u8; N]`. -/
abbrev Bytes (size : Nat) := List.Vector UInt8 size

abbrev AccountId := Bytes 20

abbrev Digest := Bytes 32

namespace Membership

structure SignerEntry where
  accountId : AccountId
  weight : UInt32
deriving DecidableEq

def membershipEpochDomain : List UInt8 := utf8 "PERP_MEMBERSHIP_EPOCH_v1"

def epochDigestDomain : List UInt8 := utf8 "PERP_EPOCH_DIGEST_v1"

/-- `to_le_bytes` of an integer of `width` bytes. -/
def leBytes : (width : Nat) → Nat → List UInt8
  | 0, _ => []
  | width + 1, value => UInt8.ofNat (value % 256) :: leBytes width (value / 256)

/-- Ascending by account id, as byte arrays compare; equal ids keep their order. -/
def sortByAccountId (signers : List SignerEntry) : List SignerEntry :=
  signers.insertionSort (fun left right => left.accountId.toList ≤ right.accountId.toList)

theorem sortByAccountId_perm (signers : List SignerEntry)
    : (sortByAccountId signers).Perm signers :=
  List.perm_insertionSort _ signers

section Canonical

variable (crypto : Crypto)

/-- A hash as the array of 32 bytes it is. -/
def digestOf (bytes : List UInt8) : Digest :=
  ⟨(crypto.sha256 bytes).takeD 32 0, List.takeD_length 32 _ 0⟩

def computeSetHash (signers : List SignerEntry) (quorum : UInt32) : Digest :=
  let sorted := sortByAccountId signers
  digestOf crypto
    (leBytes 4 (sorted.length % 2 ^ 32) ++ leBytes 4 quorum.toNat
      ++ sorted.flatMap
        (fun signer => signer.accountId.toList ++ leBytes 4 signer.weight.toNat))

/-- The link of the hash chain: the authority digest of an epoch. -/
def computeEpochAuthorityDigest (escrow : AccountId) (epoch : UInt64) (prevEpochHash : Digest)
    (signers : List SignerEntry) (quorum : UInt32) : Digest :=
  digestOf crypto
    (epochDigestDomain ++ escrow.toList ++ leBytes 8 epoch.toNat ++ prevEpochHash.toList
      ++ (computeSetHash crypto signers quorum).toList)

/-- What the quorum signs. -/
def computeMembershipMessageHash (escrow : AccountId) (proposedEpoch : UInt64)
    (prevEpochHash newSetHash : Digest) : Digest :=
  digestOf crypto
    (membershipEpochDomain ++ escrow.toList ++ leBytes 8 proposedEpoch.toNat
      ++ prevEpochHash.toList ++ newSetHash.toList)

end Canonical

/-- `MAX_SIGNERS`. -/
def maxSigners : Nat := 32

/-- The transition presented to the quorum. The descriptor of the operator is carried, not
derived.
-/
structure MembershipEpochStatement where
  escrow : AccountId
  proposedEpoch : UInt64
  prevEpochHash : Digest
  newSigners : List SignerEntry
  newQuorum : UInt32
  newSetHash : Digest
  messageHash : Digest
  op : UInt8
  newMemberMrenclave : Digest
  descriptorSigs : List UInt8
deriving DecidableEq

inductive PrepareError where
  | emptySet
  | tooManySigners
  | zeroWeight
  | quorumOutOfBounds
deriving DecidableEq

/-- The `Debug` text of an error. -/
def PrepareError.debug : PrepareError → String
  | .emptySet => "EmptySet"
  | .tooManySigners => "TooManySigners"
  | .zeroWeight => "ZeroWeight"
  | .quorumOutOfBounds => "QuorumOutOfBounds"

/-- The loop that sums the weights and stops at a zero. -/
def sumWeights (weightSum : Nat) : List SignerEntry → Except PrepareError Nat
  | [] => .ok weightSum
  | signer :: rest =>
      if signer.weight = 0 then .error .zeroWeight
      else sumWeights (weightSum + signer.weight.toNat) rest

/-- The single successor of the current epoch, after the checks the enclave would make.
The sum of at most 32 weights fits the `u64` it is formed in.
-/
def prepareStatement (crypto : Crypto) (escrow : AccountId) (currentEpoch : UInt64)
    (currentEpochDigest : Digest) (newSigners : List SignerEntry) (newQuorum : UInt32)
    (op : UInt8) (newMemberMrenclave : Digest) (descriptorSigs : List UInt8)
    : Except PrepareError MembershipEpochStatement :=
  if newSigners.isEmpty then .error .emptySet
  else if maxSigners < newSigners.length then .error .tooManySigners
  else do
    let weightSum ← sumWeights 0 newSigners
    if newQuorum = 0 ∨ weightSum < newQuorum.toNat then .error .quorumOutOfBounds
    else
      let proposedEpoch := currentEpoch + 1
      let prevEpochHash := currentEpochDigest
      let newSetHash := computeSetHash crypto newSigners newQuorum
      .ok
        { escrow
          proposedEpoch
          prevEpochHash
          newSigners
          newQuorum
          newSetHash
          messageHash :=
            computeMembershipMessageHash crypto escrow proposedEpoch prevEpochHash newSetHash
          op
          newMemberMrenclave
          descriptorSigs }

/-- The sets a statement can be prepared for. -/
structure Admissible (signers : List SignerEntry) (quorum : UInt32) : Prop where
  nonempty : signers ≠ []
  bounded : signers.length ≤ maxSigners
  weighted : ∀ signer ∈ signers, signer.weight ≠ 0
  positive : quorum ≠ 0
  covered : quorum.toNat ≤ (signers.map (fun signer => signer.weight.toNat)).sum

/-- The loop adds up the weights unless one is zero. -/
theorem sumWeights_ok_iff {signers : List SignerEntry} {weightSum total : Nat}
    : sumWeights weightSum signers = .ok total
      ↔ (∀ signer ∈ signers, signer.weight ≠ 0)
        ∧ total = weightSum + (signers.map (fun signer => signer.weight.toNat)).sum := by
  induction signers generalizing weightSum with
  | nil => simp [sumWeights, eq_comm]
  | cons signer rest ih =>
      by_cases zero : signer.weight = 0
      · simp [sumWeights, zero]
      · simp [sumWeights, zero, ih, Nat.add_assoc]

/-- What a prepared statement holds and when one is prepared. The checks read neither the
epoch nor the descriptor.
-/
theorem prepareStatement_ok_iff {crypto : Crypto} {escrow : AccountId} {currentEpoch : UInt64}
    {currentEpochDigest : Digest} {newSigners : List SignerEntry} {newQuorum : UInt32}
    {op : UInt8} {newMemberMrenclave : Digest} {descriptorSigs : List UInt8}
    {statement : MembershipEpochStatement}
    : prepareStatement crypto escrow currentEpoch currentEpochDigest newSigners newQuorum op
          newMemberMrenclave descriptorSigs
        = .ok statement
      ↔ Admissible newSigners newQuorum
        ∧ statement
          = { escrow
              proposedEpoch := currentEpoch + 1
              prevEpochHash := currentEpochDigest
              newSigners
              newQuorum
              newSetHash := computeSetHash crypto newSigners newQuorum
              messageHash :=
                computeMembershipMessageHash crypto escrow (currentEpoch + 1)
                  currentEpochDigest (computeSetHash crypto newSigners newQuorum)
              op
              newMemberMrenclave
              descriptorSigs } := by
  unfold prepareStatement
  split
  case isTrue empty =>
    refine ⟨fun prepared => (by cases prepared), fun given => ?_⟩
    exact absurd (List.isEmpty_iff.mp empty) given.1.nonempty
  case isFalse nonempty =>
  split
  case isTrue long =>
    refine ⟨fun prepared => (by cases prepared), fun given => ?_⟩
    exact absurd given.1.bounded (Nat.not_le.mpr long)
  case isFalse bounded =>
  rw [Except.bind_eq_ok_iff]
  constructor
  · intro prepared
    obtain ⟨weightSum, summed, prepared⟩ := prepared
    obtain ⟨weighted, total⟩ := sumWeights_ok_iff.mp summed
    split at prepared
    · cases prepared
    · rename_i inBounds
      obtain ⟨positive, covered⟩ := not_or.mp inBounds
      refine ⟨⟨fun empty => nonempty (List.isEmpty_iff.mpr empty), Nat.not_lt.mp bounded,
        weighted, positive, ?_⟩, (Except.ok.inj prepared).symm⟩
      rw [total, Nat.zero_add] at covered
      exact Nat.not_lt.mp covered
  · intro given
    obtain ⟨admissible, same⟩ := given
    refine ⟨_, sumWeights_ok_iff.mpr ⟨admissible.weighted, rfl⟩, ?_⟩
    have inBounds := not_or.mpr ⟨admissible.positive, Nat.not_lt.mpr admissible.covered⟩
    rw [Nat.zero_add, if_neg inBounds, same]

-----------------------------------------------------------------------------------------
-- Sample sets
-----------------------------------------------------------------------------------------

/-- Digests that occur when the sample sets are prepared, sealed and rendered, by input. -/
def sampleMembershipDigests : List (Nat × Nat) :=
  [(0x01000000000000000000000000000000000000000000,
      0xc90232586b801f9558a76f2f963eccd831d9fe6775e4c8f1446b2331aa2132f2),
    (0x01c90232586b801f9558a76f2f963eccd831d9fe6775e4c8f1446b2331aa2132f2,
      0x94a00911c4da27f9271727ffa7a14d8d5588fc0fff9964340ec4065f387e622b),
    (0x01000000000000000000000000000000000000000001,
      0xd54919bdf4788f01da1b6888dfb28b548e0e1e358083872d25d31fbb53db0585),
    (0x01d54919bdf4788f01da1b6888dfb28b548e0e1e358083872d25d31fbb53db0585,
      0x9d35b5b9d5befcf2d6b89994f7f64279b0645d5d4a5f1a6fa2dcc615bbed04ef),
    (0x01030000000200000000000000000000000000000000000000000000010100000033b94b70bbd434f0ad01925669bedf3469832b58010000007c8aa0f9f7cf2cf41457213f8089e95b8f96d2d001000000,
      0x798a71b80fb344c08809bdae414cf34b4c48a76127dc7e4060da7467e815135f),
    (0x01504552505f4d454d424552534849505f45504f43485f7631000000000000000000000000000000000000000002000000000000000000000000000000000000000000000000000000000000000000000000000000798a71b80fb344c08809bdae414cf34b4c48a76127dc7e4060da7467e815135f,
      0x23013c326c7331eb72bf1c5f27fe572a71ced2e43d8f22a1fe3182b50b7291b9),
    (0x01020000000200000033b94b70bbd434f0ad01925669bedf3469832b58010000007c8aa0f9f7cf2cf41457213f8089e95b8f96d2d001000000,
      0x13ce934a2793ccab84e34edc367782f2c90367e6c854332d3a26e7dadf86888b),
    (0x01504552505f4d454d424552534849505f45504f43485f763100000000000000000000000000000000000000000200000000000000000000000000000000000000000000000000000000000000000000000000000013ce934a2793ccab84e34edc367782f2c90367e6c854332d3a26e7dadf86888b,
      0x92289614d255872201eaf9cb1c1ac99570f60fc80575dd8f0449ac9fc1f43b4c),
    (0x01504552505f45504f43485f4449474553545f763100000000000000000000000000000000000000000200000000000000000000000000000000000000000000000000000000000000000000000000000013ce934a2793ccab84e34edc367782f2c90367e6c854332d3a26e7dadf86888b,
      0xd9fa3e857ceebd691c9acc89968c19e590ef39528cb2b21efce5d093d4d7027d),
    (0x01504552505f4d454d424552534849505f45504f43485f763100000000000000000000000000000000000000000300000000000000d9fa3e857ceebd691c9acc89968c19e590ef39528cb2b21efce5d093d4d7027d13ce934a2793ccab84e34edc367782f2c90367e6c854332d3a26e7dadf86888b,
      0xff4120e97436f2784fa64ad89b07dcbde484202c124181890e7a60f15c382df2),
    (0x01504552505f45504f43485f4449474553545f763100000000000000000000000000000000000000000300000000000000d9fa3e857ceebd691c9acc89968c19e590ef39528cb2b21efce5d093d4d7027d13ce934a2793ccab84e34edc367782f2c90367e6c854332d3a26e7dadf86888b,
      0x82bb691ef1cfaa16c69a451825cfb355531b1de61d3e0441654f95c3c298bd75)]

def sampleMembershipAddresses : List (Nat × String) :=
  [(0x0100000000000000000000000000000000000000000094a00911, "rrrrrrrrrrrrrrrrrrrrrhoLvTp"),
    (0x010000000000000000000000000000000000000000019d35b5b9, "rrrrrrrrrrrrrrrrrrrrBZbvji")]
  ++ sampleAddresses

/-- The libraries on the sample sets. -/
def membershipCrypto : Crypto :=
  { sampleCrypto with
    sha256 := fun bytes =>
      natBytes 32
        (((sampleMembershipDigests ++ sampleDigests).lookup (bytesNat bytes)).getD 0)
    base58 := fun bytes => (sampleMembershipAddresses.lookup (bytesNat bytes)).getD "" }

def accountOf (value : Nat) : AccountId := ⟨natBytes 20 value, by simp [natBytes]⟩

/-- Two signers of equal weight. -/
def twoSigners : List SignerEntry :=
  [⟨accountOf 0x33b94b70bbd434f0ad01925669bedf3469832b58, 1⟩,
    ⟨accountOf 0x7c8aa0f9f7cf2cf41457213f8089e95b8f96d2d0, 1⟩]

def threeSigners : List SignerEntry := twoSigners ++ [⟨accountOf 1, 1⟩]

theorem twoSigners_admissible : Admissible twoSigners 2 := by
  constructor <;> decide

theorem threeSigners_admissible : Admissible threeSigners 2 := by
  constructor <;> decide

end Membership

end PerpDex
