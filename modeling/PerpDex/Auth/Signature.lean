import PerpDex.Lib.DecimalText
import PerpDex.Lib.Except
import PerpDex.Lib.Hex

/-! Signature authentication: the check of a live request and the re-check of a persisted
binding. The hash functions, the curve checks and base58 come from libraries and are
parameters; the two paths share them, so a binding built from an accepted request passes
the re-check.
-/

namespace PerpDex

/-- The cryptographic libraries. -/
structure Crypto where
  sha256 : List UInt8 → List UInt8
  sha512 : List UInt8 → List UInt8
  ripemd160 : List UInt8 → List UInt8
  /-- Base58 with the XRPL alphabet. -/
  base58 : List UInt8 → String
  secp256k1Key : List UInt8 → Bool
  derSignature : List UInt8 → Bool
  verifyPrehash : List UInt8 → List UInt8 → List UInt8 → Bool
  ed25519Key : List UInt8 → Bool
  verifyStrict : List UInt8 → List UInt8 → List UInt8 → Bool

structure AuthenticatedUser where
  xrplAddress : String
deriving DecidableEq

/-- The signature under which an order was submitted, kept with the order. -/
structure OrderSignatureBinding where
  signedBodyHex : String
  signatureHex : String
  timestamp : String
  signerAddress : String
  signerPubkeyHex : String
deriving DecidableEq

def utf8 (text : String) : List UInt8 := text.toUTF8.data.toList

variable (crypto : Crypto)

/-- One algorithm per key prefix, over the hash itself or its SHA-512Half. -/
def verifyXrplSig (pubkey sig hash : List UInt8) : Except String Unit :=
  let sha512Half := (crypto.sha512 hash).take 32
  match pubkey.head? with
  | some 0x02 | some 0x03 =>
      if !crypto.secp256k1Key pubkey then .error "invalid secp256k1 public key"
      else if !crypto.derSignature sig then .error "invalid DER signature"
      else if crypto.verifyPrehash pubkey hash sig || crypto.verifyPrehash pubkey sha512Half sig
      then .ok ()
      else .error "signature verification failed"
  | some 0xED =>
      if pubkey.length ≠ 33 then .error "invalid ed25519 public key length"
      else if !crypto.ed25519Key (pubkey.drop 1) then .error "invalid ed25519 public key"
      else if sig.length ≠ 64 then
        .error "invalid ed25519 signature length (expected 64 bytes)"
      else if crypto.verifyStrict (pubkey.drop 1) hash sig
        || crypto.verifyStrict (pubkey.drop 1) sha512Half sig
      then .ok ()
      else .error "signature verification failed"
  | _ =>
      .error "unsupported public key type (expected secp256k1 0x02/0x03 or ed25519 0xED)"

/-- The r-address of a public key: base58check of its account id. -/
def deriveAddress (pubkey : List UInt8) : String :=
  let payload := 0x00 :: crypto.ripemd160 (crypto.sha256 pubkey)
  let checksum := crypto.sha256 (crypto.sha256 payload)
  crypto.base58 (payload ++ checksum.take 4)

/-- Re-verify a persisted binding, without the drift check. -/
def verifySignatureOnly (binding : OrderSignatureBinding) : Except String Unit :=
  match Hex.decode binding.signerPubkeyHex with
  | none => .error "invalid pubkey hex"
  | some pubkey =>
      let derived := deriveAddress crypto pubkey
      if derived ≠ binding.signerAddress then
        .error
          s!"address mismatch: stored={binding.signerAddress}, derived from pubkey={derived}"
      else
        match Hex.decode binding.signedBodyHex with
        | none => .error "invalid body hex"
        | some body =>
            if body.isEmpty then .error "stored signed body is empty — rebind rejected"
            else
              match Hex.decode binding.signatureHex with
              | none => .error "invalid signature hex"
              | some sig =>
                  verifyXrplSig crypto pubkey sig
                    (crypto.sha256 (body ++ utf8 binding.timestamp))

/-- A binding from the bytes behind its hexadecimal fields. -/
def signedBinding (body sig : List UInt8) (timestamp address : String) (pubkey : List UInt8)
    : OrderSignatureBinding where
  signedBodyHex := Hex.encode body
  signatureHex := Hex.encode sig
  timestamp := timestamp
  signerAddress := address
  signerPubkeyHex := Hex.encode pubkey

/-- The re-check in terms of bytes. -/
theorem verifySignatureOnly_signedBinding (body sig : List UInt8) (timestamp address : String)
    (pubkey : List UInt8)
    : verifySignatureOnly crypto (signedBinding body sig timestamp address pubkey)
      = if deriveAddress crypto pubkey ≠ address then
          .error
            s!"address mismatch: stored={address}, derived from pubkey={deriveAddress crypto pubkey}"
        else if body.isEmpty then .error "stored signed body is empty — rebind rejected"
        else verifyXrplSig crypto pubkey sig (crypto.sha256 (body ++ utf8 timestamp)) := by
  simp only [verifySignatureOnly, signedBinding, Hex.decode_encode]

/-- Which canonical text a signature must cover. -/
inductive CanonicalDomain where
  | «public»
  | admin
deriving DecidableEq

/-- Header values that are readable text, by lower-case name. -/
abbrev Headers := String → Option String

def maxTimestampDriftSecs : Nat := 30

/-- A `u64` in decimal notation, with an optional plus sign. -/
def parseU64 (text : String) : Option Nat :=
  let digits :=
    match text.toList with
    | '+' :: digits => digits
    | digits => digits
  (Text.parseNat digits).filter (fun value => value < 2 ^ 64)

/-- The text a request's signature covers, before the timestamp. -/
def canonicalBody (domain : CanonicalDomain) (method uriPath : String) (body : List UInt8)
    : List UInt8 :=
  if domain = .admin then
    utf8 "xperp/v1/admin|" ++ utf8 method ++ utf8 "|" ++ utf8 uriPath ++ utf8 "|" ++ body
    ++ utf8 "|"
  else if method.toList.map Char.toUpper = "GET".toList then utf8 uriPath
  else if body.isEmpty then utf8 "xperp/v1/login|" ++ utf8 uriPath ++ utf8 "|"
  else body

def requireHeader (headers : Headers) (name missing : String) : Except String String :=
  match headers name with
  | some value => .ok value
  | none => .error missing

/-- Accept or refuse the timestamp of a request at clock time `now`, in seconds. -/
def checkDrift (timestamp : String) (now : Nat) : Except String Unit :=
  match parseU64 timestamp with
  | none => .error "invalid X-XRPL-Timestamp"
  | some ts =>
      let drift := max now ts - min now ts
      if maxTimestampDriftSecs < drift then
        .error s!"request expired: timestamp drift {drift}s (max {maxTimestampDriftSecs}s)"
      else .ok ()

def verifyRequestWith (headers : Headers) (method : String) (body : List UInt8)
    (uriPath : String) (domain : CanonicalDomain) (now : Nat)
    : Except String AuthenticatedUser := do
  let address ← requireHeader headers "x-xrpl-address" "missing X-XRPL-Address header"
  let pubkeyHex ← requireHeader headers "x-xrpl-publickey" "missing X-XRPL-PublicKey header"
  let sigHex ← requireHeader headers "x-xrpl-signature" "missing X-XRPL-Signature header"
  let timestamp ← requireHeader headers "x-xrpl-timestamp"
    "missing X-XRPL-Timestamp header (required for replay protection)"
  checkDrift timestamp now
  if address.toList.head? ≠ some 'r' ∨ address.utf8ByteSize < 25 ∨ 35 < address.utf8ByteSize then
    .error "invalid XRPL address format"
  else if pubkeyHex.utf8ByteSize ≠ 66 then
    .error "invalid public key length (expected 66 hex chars)"
  else
    match Hex.decode pubkeyHex with
    | none => .error "invalid public key hex"
    | some pubkey =>
        let derived := deriveAddress crypto pubkey
        if derived ≠ address then
          .error s!"address mismatch: header={address}, derived from pubkey={derived}"
        else
          let hash := crypto.sha256 (canonicalBody domain method uriPath body ++ utf8 timestamp)
          match Hex.decode sigHex with
          | none => .error "invalid signature hex"
          | some sig => do
              verifyXrplSig crypto pubkey sig hash
              .ok ⟨address⟩

def verifyRequest (headers : Headers) (method : String) (body : List UInt8) (uriPath : String)
    (now : Nat) : Except String AuthenticatedUser :=
  verifyRequestWith crypto headers method body uriPath .public now

/-- The binding the middleware keeps for a signed request that carries a body. -/
def requestBinding (headers : Headers) (body : List UInt8) (user : AuthenticatedUser)
    : OrderSignatureBinding where
  signedBodyHex := Hex.encode body
  signatureHex := (headers "x-xrpl-signature").getD ""
  timestamp := (headers "x-xrpl-timestamp").getD ""
  signerAddress := user.xrplAddress
  signerPubkeyHex := (headers "x-xrpl-publickey").getD ""

/-- Everything an accepted request has shown. -/
theorem verifyRequest_ok {headers : Headers} {method : String} {body : List UInt8}
    {uriPath : String} {now : Nat} {user : AuthenticatedUser}
    (accepted : verifyRequest crypto headers method body uriPath now = .ok user)
    : headers "x-xrpl-address" = some user.xrplAddress
      ∧ ∃ pubkeyHex sigHex timestamp pubkey sig,
          headers "x-xrpl-publickey" = some pubkeyHex
          ∧ headers "x-xrpl-signature" = some sigHex
          ∧ headers "x-xrpl-timestamp" = some timestamp
          ∧ Hex.decode pubkeyHex = some pubkey
          ∧ Hex.decode sigHex = some sig
          ∧ deriveAddress crypto pubkey = user.xrplAddress
          ∧ verifyXrplSig crypto pubkey sig
              (crypto.sha256 (canonicalBody .public method uriPath body ++ utf8 timestamp))
            = .ok () := by
  have required : ∀ {name missing value : String},
      requireHeader headers name missing = .ok value → headers name = some value := by
    intro name missing value found
    simp only [requireHeader] at found
    split at found
    · rename_i present
      rw [present, Except.ok.inj found]
    · cases found
  simp only [verifyRequest, verifyRequestWith, Except.bind_eq_ok_iff] at accepted
  obtain ⟨address, hasAddress, pubkeyHex, hasKey, sigHex, hasSig, timestamp, hasTime, _, _,
    checks⟩ := accepted
  split_ifs at checks with malformed longKey
  split at checks
  · cases checks
  · rename_i pubkey keyBytes
    split_ifs at checks with mismatch
    split at checks
    · cases checks
    · rename_i sig sigBytes
      obtain ⟨_, valid, named⟩ := Except.bind_eq_ok_iff.mp checks
      obtain rfl : ⟨address⟩ = user := Except.ok.inj named
      exact ⟨required hasAddress, pubkeyHex, sigHex, timestamp, pubkey, sig, required hasKey,
        required hasSig, required hasTime, keyBytes, sigBytes, not_not.mp mismatch, valid⟩

-----------------------------------------------------------------------------------------
-- Sample signatures
-----------------------------------------------------------------------------------------

/-- A byte string as a number, with a leading one that keeps zeros in front. -/
def bytesNat (bytes : List UInt8) : Nat :=
  bytes.foldl (fun value byte => value * 256 + byte.toNat) 1

def natBytes (length value : Nat) : List UInt8 :=
  (List.range length).reverse.map (fun index => UInt8.ofNat (value / 256 ^ index))

/-- Digests that occur when the sample signatures are checked, by input. -/
def sampleDigests : List (Nat × Nat) :=
  [(0x01039997a497d964fc1a62885b05a51166a65a90df00492c8d7cf61d6accf54803be,
      0x9178dcad9b36c30f27da86faaf8a1c5e069d44bf5cd631c8c78ce70e035f93c5),
    (0x010033b94b70bbd434f0ad01925669bedf3469832b58,
      0xd739c16a0ed346b0632602a16bae799231b58bc96a77fd794273f58578902b46),
    (0x01d739c16a0ed346b0632602a16bae799231b58bc96a77fd794273f58578902b46,
      0xfa851a2ff911234af002300d2a3818648b4b0f1648a8e39560f9de00569efa9e),
    (0x01024edfcf9dfe6c0b5c83d1ab3f78d1b39a46ebac6798e08e19761f5ed89ec83c10,
      0xd70d5f8597d01fadd7226c7ab3dc42c45699f557a81cbe061bae573611413ca6),
    (0x01007c8aa0f9f7cf2cf41457213f8089e95b8f96d2d0,
      0xeb818087f84a93f02d45b7936e73455ab8901f87ca3cc7c59d8cf4b5bd7fa914),
    (0x01eb818087f84a93f02d45b7936e73455ab8901f87ca3cc7c59d8cf4b5bd7fa914,
      0x71148bb03cdd9e48fd69de35192fca1e1c8036bea8941ff2d21a231a83f7765c),
    (0x017b22757365725f6964223a22726e355653483758486e705757624e646f5a34466b475858715a374d397275756157222c2273696465223a2273656c6c222c227072696365223a22312e30222c2273697a65223a22312e30227d31373630303030303030,
      0x0606e4ea57fd393e98e25cebfc2a267e7ded3eea10e7919efdf7f5fe96b8f0e0),
    (0x017b22757365725f6964223a2272554d576974347a737a707648714d746970763847545138735a34776e6e4361656a222c2273696465223a22627579222c227072696365223a22312e30222c2273697a65223a22312e30227d31373630303030303030,
      0xc159b7ed9aab5c4191a3a85912a08ed36b669e33a8bbfb93cffd5f7d711c0c20),
    (0x017b22757365725f6964223a2272554d576974347a737a707648714d746970763847545138735a34776e6e4361656a227d31373630303030303030,
      0xa81ff9fde9bbc32172d301c0161eada02bf228921facb0f0a340ac17316b5d91)]

def sampleAccountIds : List (Nat × Nat) :=
  [(0x019178dcad9b36c30f27da86faaf8a1c5e069d44bf5cd631c8c78ce70e035f93c5,
      0x33b94b70bbd434f0ad01925669bedf3469832b58),
    (0x01d70d5f8597d01fadd7226c7ab3dc42c45699f557a81cbe061bae573611413ca6,
      0x7c8aa0f9f7cf2cf41457213f8089e95b8f96d2d0)]

def sampleAddresses : List (Nat × String) :=
  [(0x010033b94b70bbd434f0ad01925669bedf3469832b58fa851a2f, "rn5VSH7XHnpWWbNdoZ4FkGXXqZ7M9ruuaW"),
    (0x01007c8aa0f9f7cf2cf41457213f8089e95b8f96d2d071148bb0, "rUMWit4zszpvHqMtipv8GTQ8sZ4wnnCaej")]

/-- Public key, hash and signature of each signed body. -/
def sampleSignatures : List (Nat × Nat × Nat) :=
  [(0x01039997a497d964fc1a62885b05a51166a65a90df00492c8d7cf61d6accf54803be,
      0x010606e4ea57fd393e98e25cebfc2a267e7ded3eea10e7919efdf7f5fe96b8f0e0,
      0x0130440220744419f5d3094b5d3052c04181569fce1541f358b61cad471776de19ae363f8d022078b4db356cac3e9910a185b82944c847b9467894130d8194fcc34337dbef6aa0),
    (0x01024edfcf9dfe6c0b5c83d1ab3f78d1b39a46ebac6798e08e19761f5ed89ec83c10,
      0x01c159b7ed9aab5c4191a3a85912a08ed36b669e33a8bbfb93cffd5f7d711c0c20,
      0x013045022100aae85abe85536bc0b1119b81c59d0ddee75094dc4b8b18b87823990f59a6405602200ec4377eba1b87eb9734fbecb0f91b50982b31c77642cb50f25fbd155f74d0c3),
    (0x01024edfcf9dfe6c0b5c83d1ab3f78d1b39a46ebac6798e08e19761f5ed89ec83c10,
      0x01a81ff9fde9bbc32172d301c0161eada02bf228921facb0f0a340ac17316b5d91,
      0x0130440220375e643b8e6797bf939422c35d65ea3240b92eb41a5fc3d8a3305b4fc077d5ab02200a62d311c5787c98418eb94e4e036de10fb46ea6a8594959ffa3fac1b5e3487f)]

/-- The libraries on the sample inputs. -/
def sampleCrypto : Crypto where
  sha256 := fun bytes => natBytes 32 ((sampleDigests.lookup (bytesNat bytes)).getD 0)
  sha512 := fun _ => []
  ripemd160 := fun bytes => natBytes 20 ((sampleAccountIds.lookup (bytesNat bytes)).getD 0)
  base58 := fun bytes => (sampleAddresses.lookup (bytesNat bytes)).getD ""
  secp256k1Key := fun pubkey => sampleSignatures.any (fun entry => entry.1 = bytesNat pubkey)
  derSignature := fun sig => sampleSignatures.any (fun entry => entry.2.2 = bytesNat sig)
  verifyPrehash := fun pubkey hash sig =>
    sampleSignatures.contains (bytesNat pubkey, bytesNat hash, bytesNat sig)
  ed25519Key := fun _ => false
  verifyStrict := fun _ _ _ => false

def makerAddress : String := "rn5VSH7XHnpWWbNdoZ4FkGXXqZ7M9ruuaW"

def takerAddress : String := "rUMWit4zszpvHqMtipv8GTQ8sZ4wnnCaej"

def makerPubkey : List UInt8 :=
  natBytes 33 0x039997a497d964fc1a62885b05a51166a65a90df00492c8d7cf61d6accf54803be

def takerPubkey : List UInt8 :=
  natBytes 33 0x024edfcf9dfe6c0b5c83d1ab3f78d1b39a46ebac6798e08e19761f5ed89ec83c10

/-- The bytes of `{"user_id":"rn5VSH7XHnpWWbNdoZ4FkGXXqZ7M9ruuaW","side":"sell","price":"1.0","size":"1.0"}`. -/
def sellOneBody : List UInt8 :=
  natBytes 89
    0x7b22757365725f6964223a22726e355653483758486e705757624e646f5a34466b475858715a374d397275756157222c2273696465223a2273656c6c222c227072696365223a22312e30222c2273697a65223a22312e30227d

/-- The maker signed an order to sell one at one. -/
def sellOneBinding : OrderSignatureBinding :=
  signedBinding sellOneBody
    (natBytes 70
      0x30440220744419f5d3094b5d3052c04181569fce1541f358b61cad471776de19ae363f8d022078b4db356cac3e9910a185b82944c847b9467894130d8194fcc34337dbef6aa0)
    "1760000000" makerAddress makerPubkey

theorem sellOneBinding_verifies : verifySignatureOnly sampleCrypto sellOneBinding = .ok () := by
  rw [sellOneBinding, verifySignatureOnly_signedBinding]
  decide +kernel

/-- The bytes of `{"user_id":"rUMWit4zszpvHqMtipv8GTQ8sZ4wnnCaej","side":"buy","price":"1.0","size":"1.0"}`. -/
def buyOneBody : List UInt8 :=
  natBytes 88
    0x7b22757365725f6964223a2272554d576974347a737a707648714d746970763847545138735a34776e6e4361656a222c2273696465223a22627579222c227072696365223a22312e30222c2273697a65223a22312e30227d

/-- The taker signed an order to buy one at one. -/
def buyOneBinding : OrderSignatureBinding :=
  signedBinding buyOneBody
    (natBytes 71
      0x3045022100aae85abe85536bc0b1119b81c59d0ddee75094dc4b8b18b87823990f59a6405602200ec4377eba1b87eb9734fbecb0f91b50982b31c77642cb50f25fbd155f74d0c3)
    "1760000000" takerAddress takerPubkey

theorem buyOneBinding_verifies : verifySignatureOnly sampleCrypto buyOneBinding = .ok () := by
  rw [buyOneBinding, verifySignatureOnly_signedBinding]
  decide +kernel

/-- The bytes of `{"user_id":"rUMWit4zszpvHqMtipv8GTQ8sZ4wnnCaej"}`. -/
def closeOneBody : List UInt8 :=
  natBytes 48
    0x7b22757365725f6964223a2272554d576974347a737a707648714d746970763847545138735a34776e6e4361656a227d

/-- The taker signed a close. -/
def closeOneBinding : OrderSignatureBinding :=
  signedBinding closeOneBody
    (natBytes 70
      0x30440220375e643b8e6797bf939422c35d65ea3240b92eb41a5fc3d8a3305b4fc077d5ab02200a62d311c5787c98418eb94e4e036de10fb46ea6a8594959ffa3fac1b5e3487f)
    "1760000000" takerAddress takerPubkey

theorem closeOneBinding_verifies : verifySignatureOnly sampleCrypto closeOneBinding = .ok () := by
  rw [closeOneBinding, verifySignatureOnly_signedBinding]
  decide +kernel

end PerpDex
