import PerpDex.Lib.Der
import PerpDex.Lib.Json
import PerpDex.Membership.Ceremony

/-! Co-signing: how the handlers of the gossip node turn a reply of the local enclave into the
answer that a collector counts.
All of them read the two integers of the signature alike and write them as a distinguished
encoding, whatever was read.
-/

namespace PerpDex

namespace Cosigning

open PerpDex.Membership Wire

/-- `encode_integer`: the length is narrowed to a byte. -/
def encodeInteger (bytes : List UInt8) : List UInt8 :=
  let stripped :=
    match bytes.findIdx? (· ≠ 0) with
    | some position => bytes.drop position
    | none => [0]
  if stripped.headD 0 &&& 0x80 ≠ 0 then
    0x02 :: UInt8.ofNat (stripped.length + 1) :: 0x00 :: stripped
  else 0x02 :: UInt8.ofNat stripped.length :: stripped

def derEncodeSignature (r s : List UInt8) : List UInt8 :=
  let rTlv := encodeInteger r
  let sTlv := encodeInteger s
  0x30 :: UInt8.ofNat (rTlv.length + sTlv.length) :: (rTlv ++ sTlv)

/-- What a handler uses of the local signer in its answer. -/
structure LocalSigner where
  compressedPubkey : String
  xrplAddress : String

structure WithdrawalClaim where
  userId : String
  amountFp8 : String

/-- What posting to the local enclave comes to. -/
inductive EnclaveCall where
  | noClient (cause : String)
  | unsent (cause : String)
  | unreadable (cause : String)
  | replied (body : Json)

/-- `membership_sign_error`, and `reject` in the transaction handler. -/
def membershipSignError (signer : LocalSigner) (text : String) : SigningMessage :=
  .response signer.xrplAddress none none (some text)

/-- One of the two integers of a reply; what is missing or no hexadecimal text counts as no
bytes.
-/
def signatureBytes (body : Json) (key : String) : List UInt8 :=
  (Hex.decode ((((body.index "signature").index key).asStr).getD "")).getD []

/-- The answer to an enclave call under a public key; `jsonText` is how a value is printed. -/
def answer (jsonText : Json → String) (signer : LocalSigner) (pubkey : String)
    : EnclaveCall → SigningMessage
  | .noClient cause => membershipSignError signer ("http client: " ++ cause)
  | .unsent cause => membershipSignError signer ("enclave request: " ++ cause)
  | .unreadable cause => membershipSignError signer ("enclave response parse: " ++ cause)
  | .replied body =>
      if (body.index "status").asStr ≠ some "success" then
        membershipSignError signer
          ("enclave: " ++ jsonText ((body.get "message").getD body))
      else
        .response signer.xrplAddress
          (some
            (Hex.encodeUpper
              (derEncodeSignature (signatureBytes body "r") (signatureBytes body "s"))))
          (some pubkey) none

/-- What `handle_signing_request` checks before it calls the enclave: the policy and the codec
have spoken, and the request carries what the enclave needs for the transaction's type.
-/
def checkSigningRequest (policy : Except String Unit)
    (serialized : Except String (List UInt8)) (unsignedTx : Json)
    (quorumBundle : Option String) (claim : Option WithdrawalClaim) : Except String Unit := do
  policy.mapError ("policy: " ++ ·)
  if !unsignedTx.isObject then throw "unsigned_tx is not a JSON object"
  let _ ← serialized.mapError ("serialise for signing failed: " ++ ·)
  let txType := ((unsignedTx.get "TransactionType").bind Json.asStr).getD ""
  if txType = "Payment" then
    if claim.isNone then
      throw
        ("Payment request carries no withdrawal claim (user_id + amount_fp8) —"
          ++ "                          the enclave co-sign checks both against its own state"
          ++ " and will not                          sign a payment it cannot verify")
  else if txType = "SignerListSet" then
    if quorumBundle.isNone then
      throw
        ("SignerListSet request carries no quorum_bundle — the enclave governance path requires"
          ++ " the β1 bundle for this epoch")
  else throw ("disallowed TransactionType: " ++ txType)

section Handlers

variable (jsonText : Json → String) (uppercase : String → String)

/-- Payments and changes of the signer list; the only handler that writes its key in upper
case.
-/
def handleSigningRequest (signer : LocalSigner) (checked : Except String Unit)
    (call : EnclaveCall) : SigningMessage :=
  match checked with
  | .error text => membershipSignError signer text
  | .ok _ => answer jsonText signer (uppercase signer.compressedPubkey) call

def handlePathADelegationRequest (signer : LocalSigner) (call : EnclaveCall) : SigningMessage :=
  answer jsonText signer signer.compressedPubkey call

def handleMembershipEpochRequest (signer : LocalSigner) (call : EnclaveCall) : SigningMessage :=
  answer jsonText signer signer.compressedPubkey call

def handleMrenclaveGovernanceRequest (signer : LocalSigner) (call : EnclaveCall)
    : SigningMessage :=
  answer jsonText signer signer.compressedPubkey call

end Handlers

-----------------------------------------------------------------------------------------
-- The encoder
-----------------------------------------------------------------------------------------

/-- Without the zeros in front, but with one byte at least. -/
def significant : List UInt8 → List UInt8
  | [] => [0]
  | first :: rest => if first = 0 then significant rest else first :: rest

theorem significant_eq (bytes : List UInt8)
    : significant bytes
      = ((bytes.findIdx? (· ≠ 0)).map (fun position => bytes.drop position)).getD [0] := by
  induction bytes with
  | nil => rfl
  | cons first rest ih =>
      by_cases zero : first = 0
      · simp [significant, List.findIdx?_cons, zero, ih, Option.map_map, Function.comp_def]
      · simp [significant, List.findIdx?_cons, zero]

theorem beValue_significant (bytes : List UInt8)
    : beValue (significant bytes) = beValue bytes := by
  induction bytes with
  | nil => rfl
  | cons first rest ih =>
      by_cases zero : first = 0
      · rw [significant, if_pos zero, ih, beValue_cons, zero]
        simp
      · rw [significant, if_neg zero]

theorem length_significant (bytes : List UInt8)
    : (significant bytes).length ≤ max 1 bytes.length := by
  induction bytes with
  | nil => exact le_rfl
  | cons first rest ih =>
      by_cases zero : first = 0
      · rw [significant, if_pos zero, List.length_cons]
        omega
      · rw [significant, if_neg zero]
        exact le_max_right _ _

/-- What is left is a zero alone or begins with another byte. -/
theorem significant_cases (bytes : List UInt8)
    : significant bytes = [0]
      ∨ ∃ first rest, significant bytes = first :: rest ∧ first ≠ 0 := by
  induction bytes with
  | nil => exact .inl rfl
  | cons first rest ih =>
      by_cases zero : first = 0
      · rw [significant, if_pos zero]
        exact ih
      · rw [significant, if_neg zero]
        exact .inr ⟨first, rest, rfl, zero⟩

theorem signBit_iff : ∀ first : UInt8, first &&& 0x80 ≠ 0 ↔ 128 ≤ first := by
  decide +kernel

/-- An integer is written as the minimal content of its value. -/
theorem exists_encodeInteger_eq (bytes : List UInt8)
    : ∃ content, Der.minimal content ∧ beValue content = beValue bytes
      ∧ content.length ≤ max 1 bytes.length + 1
      ∧ encodeInteger bytes = Der.element Der.integerTag content := by
  have size := length_significant bytes
  have value := beValue_significant bytes
  have stripped : encodeInteger bytes
      = if (significant bytes).headD 0 &&& 0x80 ≠ 0 then
          0x02 :: UInt8.ofNat ((significant bytes).length + 1) :: 0x00 :: significant bytes
        else 0x02 :: UInt8.ofNat (significant bytes).length :: significant bytes := by
    rw [significant_eq, encodeInteger]
    cases bytes.findIdx? (· ≠ 0) <;> rfl
  rcases significant_cases bytes with zero | ⟨first, rest, shape, nonzero⟩
  · rw [zero] at size value stripped
    exact ⟨[0], rfl, value, by omega, stripped⟩
  · rw [shape] at size value stripped
    by_cases signed : 128 ≤ first
    · rw [List.headD_cons, if_pos ((signBit_iff first).mpr signed)] at stripped
      refine ⟨0 :: first :: rest, ?_, ?_, ?_, stripped⟩
      · simp [Der.minimal, signed]
      · rw [beValue_cons, value]
        simp
      · rw [List.length_cons]
        omega
    · rw [List.headD_cons, if_neg (fun set => signed ((signBit_iff first).mp set))] at stripped
      refine ⟨first :: rest, ?_, value, by omega, stripped⟩
      have clear : first < 128 := by simpa using signed
      cases rest <;> simp [Der.minimal, clear, nonzero]

/-- Integers of up to 60 bytes are written so that reading gives them back. -/
theorem decode_derEncodeSignature {r s : List UInt8} (rFits : r.length ≤ 60)
    (sFits : s.length ≤ 60)
    : Der.decode (derEncodeSignature r s) = some (beValue r, beValue s) := by
  obtain ⟨left, leftMinimal, leftValue, leftSize, leftWritten⟩ := exists_encodeInteger_eq r
  obtain ⟨right, rightMinimal, rightValue, rightSize, rightWritten⟩ := exists_encodeInteger_eq s
  refine Der.decode_eq_some_iff.mpr
    ⟨left, right, leftMinimal, rightMinimal, leftValue, rightValue, ?_, ?_⟩
  · simp only [Der.element, List.length_append, List.length_cons]
    omega
  · rw [derEncodeSignature, leftWritten, rightWritten]
    show _ = Der.sequenceTag
      :: UInt8.ofNat (Der.element Der.integerTag left ++ Der.element Der.integerTag right).length
      :: _
    rw [List.length_append]
    rfl

/-- Two integers of at most 32 bytes take 8 to 72 bytes. -/
theorem length_derEncodeSignature {r s : List UInt8} (rFits : r.length ≤ 32)
    (sFits : s.length ≤ 32)
    : 8 ≤ (derEncodeSignature r s).length ∧ (derEncodeSignature r s).length ≤ 72 := by
  obtain ⟨left, leftMinimal, _, leftSize, leftWritten⟩ := exists_encodeInteger_eq r
  obtain ⟨right, rightMinimal, _, rightSize, rightWritten⟩ := exists_encodeInteger_eq s
  have leftBytes : left ≠ [] := by
    rintro rfl
    cases leftMinimal
  have rightBytes : right ≠ [] := by
    rintro rfl
    cases rightMinimal
  have leftLong := List.length_pos_iff.mpr leftBytes
  have rightLong := List.length_pos_iff.mpr rightBytes
  rw [derEncodeSignature, leftWritten, rightWritten]
  simp only [Der.element, List.length_append, List.length_cons]
  omega

-----------------------------------------------------------------------------------------
-- The answers
-----------------------------------------------------------------------------------------

/-- A reply signs with two integers: it reports success and has both as hexadecimal texts of
32 bytes.
-/
structure SignedWith (reply : Json) (r s : List UInt8) : Prop where
  success : (reply.index "status").asStr = some "success"
  rHex : ((reply.index "signature").index "r").asStr.bind Hex.decode = some r
  sHex : ((reply.index "signature").index "s").asStr.bind Hex.decode = some s
  rSize : r.length = 32
  sSize : s.length = 32

/-- Bytes that are the one strict encoding of two integers, of a length that collectors accept. -/
structure IsEncodingOf (r s der : List UInt8) : Prop where
  decodes : Der.decode der = some (beValue r, beValue s)
  unique : ∀ other, Der.decode other = some (beValue r, beValue s) → other = der
  long : 8 ≤ der.length
  short : der.length ≤ 72

/-- An answer carries the signature of the reply, or an error where the reply has none. -/
structure NeverFabricated (reply : Json) (message : SigningMessage) : Prop where
  signed : ∀ r s, SignedWith reply r s →
    ∃ address der pubkey, IsEncodingOf r s der
      ∧ message = .response address (some (Hex.encodeUpper der)) (some pubkey) none
  refused : (¬ ∃ r s, SignedWith reply r s) →
    ∃ address text, message = .response address none none (some text)

theorem signatureBytes_eq {reply : Json} {key : String} {bytes : List UInt8}
    (hex : ((reply.index "signature").index key).asStr.bind Hex.decode = some bytes)
    : signatureBytes reply key = bytes := by
  obtain ⟨text, isText, decoded⟩ := Option.bind_eq_some_iff.mp hex
  rw [signatureBytes, isText, Option.getD_some, decoded, Option.getD_some]

theorem isEncodingOf_derEncodeSignature {r s : List UInt8} (rSize : r.length = 32)
    (sSize : s.length = 32)
    : IsEncodingOf r s (derEncodeSignature r s) := by
  have decodes : Der.decode (derEncodeSignature r s) = some (beValue r, beValue s) :=
    decode_derEncodeSignature (by omega) (by omega)
  have size := length_derEncodeSignature rSize.le sSize.le
  exact ⟨decodes, fun other same => Der.decode_injective same decodes, size.1, size.2⟩

section Answers

variable {jsonText : Json → String} {signer : LocalSigner} {pubkey : String} {reply : Json}

theorem answer_of_success (success : (reply.index "status").asStr = some "success")
    : answer jsonText signer pubkey (.replied reply)
      = .response signer.xrplAddress
          (some
            (Hex.encodeUpper
              (derEncodeSignature (signatureBytes reply "r") (signatureBytes reply "s"))))
          (some pubkey) none :=
  if_neg (not_not.mpr success)

/-- One reply is answered with its signature or an error exactly if it has one whenever it
reports success.
-/
theorem answer_neverFabricated_iff
    : NeverFabricated reply (answer jsonText signer pubkey (.replied reply))
      ↔ ((reply.index "status").asStr = some "success" → ∃ r s, SignedWith reply r s) := by
  constructor
  · intro never success
    by_contra unsigned
    obtain ⟨_, _, refused⟩ := never.refused unsigned
    rw [answer_of_success success] at refused
    cases refused
  · intro honest
    refine ⟨fun r s signed => ?_, fun unsigned => ?_⟩
    · rw [answer_of_success signed.success, signatureBytes_eq signed.rHex,
        signatureBytes_eq signed.sHex]
      exact ⟨_, _, pubkey, isEncodingOf_derEncodeSignature signed.rSize signed.sSize, rfl⟩
    · have failed : (reply.index "status").asStr ≠ some "success" :=
        fun success => unsigned (honest success)
      exact ⟨_, _, if_pos failed⟩

end Answers

/-- The handlers answer with the signature of the reply or an error exactly if the reply, when
it reports success, has both integers as hexadecimal texts of 32 bytes.
-/
theorem cosigners_neverFabricate_iff (jsonText : Json → String) (uppercase : String → String)
    (signer : LocalSigner) (policy : Except String Unit)
    (serialized : Except String (List UInt8)) (unsignedTx : Json)
    (quorumBundle : Option String) (claim : Option WithdrawalClaim)
    (passed : checkSigningRequest policy serialized unsignedTx quorumBundle claim = .ok ())
    (reply : Json)
    : (NeverFabricated reply
          (handleSigningRequest jsonText uppercase signer
            (checkSigningRequest policy serialized unsignedTx quorumBundle claim)
            (.replied reply))
        ↔ ((reply.index "status").asStr = some "success" → ∃ r s, SignedWith reply r s))
      ∧ (NeverFabricated reply
          (handlePathADelegationRequest jsonText signer (.replied reply))
        ↔ ((reply.index "status").asStr = some "success" → ∃ r s, SignedWith reply r s))
      ∧ (NeverFabricated reply
          (handleMembershipEpochRequest jsonText signer (.replied reply))
        ↔ ((reply.index "status").asStr = some "success" → ∃ r s, SignedWith reply r s))
      ∧ (NeverFabricated reply
          (handleMrenclaveGovernanceRequest jsonText signer (.replied reply))
        ↔ ((reply.index "status").asStr = some "success" → ∃ r s, SignedWith reply r s)) := by
  refine ⟨?_, answer_neverFabricated_iff, answer_neverFabricated_iff,
    answer_neverFabricated_iff⟩
  rw [passed]
  exact answer_neverFabricated_iff

def sampleSigner : LocalSigner where
  compressedPubkey := "02ab"
  xrplAddress := "rSigner"

def sampleClaim : WithdrawalClaim where
  userId := "user"
  amountFp8 := "100000000"

def samplePayment : Json := .object [("TransactionType", .string "Payment")]

/-- Success and no signature. -/
def bareSuccess : Json := .object [("status", .string "success")]

/-- Witness: `cosigners_neverFabricate_iff` for a payment with its claim. -/
theorem cosigners_neverFabricate_iff_payment
    : checkSigningRequest (.ok ()) (.ok []) samplePayment none (some sampleClaim) = .ok ()
      ∧ (NeverFabricated bareSuccess
            (handleSigningRequest (fun _ => "") id sampleSigner
              (checkSigningRequest (.ok ()) (.ok []) samplePayment none (some sampleClaim))
              (.replied bareSuccess))
          ↔ ((bareSuccess.index "status").asStr = some "success"
            → ∃ r s, SignedWith bareSuccess r s)) :=
  ⟨rfl,
    (cosigners_neverFabricate_iff (fun _ => "") id sampleSigner (.ok ()) (.ok []) samplePayment
      none (some sampleClaim) rfl bareSuccess).1⟩

/-- A reply without a signature is answered with the encoding of two zeros. -/
theorem bareSuccess_fabricated
    : handleSigningRequest (fun _ => "") id sampleSigner
          (checkSigningRequest (.ok ()) (.ok []) samplePayment none (some sampleClaim))
          (.replied bareSuccess)
        = .response "rSigner" (some "3006020100020100") (some "02ab") none
      ∧ handleMembershipEpochRequest (fun _ => "") sampleSigner (.replied bareSuccess)
        = .response "rSigner" (some "3006020100020100") (some "02ab") none
      ∧ ¬ NeverFabricated bareSuccess
          (handleSigningRequest (fun _ => "") id sampleSigner
            (checkSigningRequest (.ok ()) (.ok []) samplePayment none (some sampleClaim))
            (.replied bareSuccess))
      ∧ ¬ NeverFabricated bareSuccess
          (handleMembershipEpochRequest (fun _ => "") sampleSigner (.replied bareSuccess)) := by
  have unsigned : ¬ ∃ r s, SignedWith bareSuccess r s := by
    rintro ⟨r, s, signed⟩
    cases signed.rHex
  have payment : handleSigningRequest (fun _ => "") id sampleSigner
      (checkSigningRequest (.ok ()) (.ok []) samplePayment none (some sampleClaim))
      (.replied bareSuccess)
      = .response "rSigner" (some "3006020100020100") (some "02ab") none := by
    decide +kernel
  have membership : handleMembershipEpochRequest (fun _ => "") sampleSigner
      (.replied bareSuccess)
      = .response "rSigner" (some "3006020100020100") (some "02ab") none := by
    decide +kernel
  refine ⟨payment, membership, fun never => ?_, fun never => ?_⟩
  · obtain ⟨_, _, refused⟩ := never.refused unsigned
    rw [payment] at refused
    cases refused
  · obtain ⟨_, _, refused⟩ := never.refused unsigned
    rw [membership] at refused
    cases refused

end Cosigning

end PerpDex
