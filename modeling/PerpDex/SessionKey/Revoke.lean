import PerpDex.Auth.Signature
import PerpDex.Lib.Json

/-! The revocation of a leaked session key.
The key is rotated to a value nobody holds, after a look through the node's configuration for
the keys that are in use. Files that cannot be read are passed over in that look; what stands
in for them is that some key must have been found.
-/

namespace PerpDex

namespace SessionKey

-----------------------------------------------------------------------------------------
-- Keys
-----------------------------------------------------------------------------------------

/-- The hash and the JSON reader. -/
structure Libraries where
  sha256 : List UInt8 → List UInt8
  fromStr : String → Option Json

/-- Without surrounding blanks and one `0x`, in lower case. -/
def normalise (raw : String) : String :=
  let bare :=
    match Text.trim raw.toList with
    | '0' :: 'x' :: rest => rest
    | '0' :: 'X' :: rest => rest
    | text => text
  String.ofList (bare.map Char.toLower)

/-- The label of a key: the first 16 digits of the hash. -/
def digest (libraries : Libraries) (raw : String) : String :=
  String.ofList ((Hex.encodeChars (libraries.sha256 (utf8 (normalise raw)))).take 16)

def isAsciiHexdigit (char : Char) : Bool := (Hex.digitValue char).isSome

def validateShape (raw : String) : Except String String :=
  let n := normalise raw
  if n.utf8ByteSize ≠ 64 ∨ n.toList.all isAsciiHexdigit = false then
    .error ("session key must be 32 bytes of hex (64 hex chars, `0x` optional); got "
      ++ toString n.utf8ByteSize ++ " characters. Nothing was sent.")
  else .ok n

-----------------------------------------------------------------------------------------
-- Keys in use
-----------------------------------------------------------------------------------------

/-- A file of the directory: its name, and what reading it as text gives. -/
structure DirFile where
  fileName : String
  content : Except String String

/-- What follows the last point of a name, unless the name begins there. -/
def extension (fileName : String) : Option String :=
  let chars := fileName.toList
  let after := (chars.reverse.takeWhile (fun char => char ≠ '.')).reverse
  let before := (chars.reverse.dropWhile (fun char => char ≠ '.')).drop 1
  if fileName = ".." ∨ before = [] then none else some (String.ofList after)

section InUse

variable (libraries : Libraries)

/-- A string under `session_key`, unless there is nothing in it. -/
def keyDigests (value : Json) : Finset String :=
  match value.asStr with
  | some text => if normalise text = "" then ∅ else {digest libraries text}
  | none => ∅

mutual

/-- The keys anywhere in a value. What stands under `session_key` is a key or nothing. -/
def collectSessionKeys : Json → Finset String
  | .object members => collectMembers members
  | .array elements => collectElements elements
  | _ => ∅

def collectMembers : List (String × Json) → Finset String
  | [] => ∅
  | (key, value) :: rest =>
      (if key = "session_key" then keyDigests libraries value else collectSessionKeys value)
        ∪ collectMembers rest

def collectElements : List Json → Finset String
  | [] => ∅
  | value :: rest => collectSessionKeys value ∪ collectElements rest

end

/-- The keys of one file; one that is not JSON, by name or by content, or cannot be read has
none.
-/
def fileDigests (file : DirFile) : Finset String :=
  if extension file.fileName = some "json" then
    match file.content with
    | .ok text =>
        match libraries.fromStr text with
        | some value => collectSessionKeys libraries value
        | none => ∅
    | .error _ => ∅
  else ∅

def entryDigests : List (Except String DirFile) → Except String (Finset String)
  | [] => .ok ∅
  | .error reason :: _ => .error reason
  | .ok file :: rest =>
      match entryDigests rest with
      | .ok others => .ok (fileDigests libraries file ∪ others)
      | .error reason => .error reason

/-- The keys of all files of a directory. -/
def inUseDigests (dir : String) (readDir : Except String (List (Except String DirFile)))
    : Except String (Finset String) :=
  match readDir with
  | .error reason => .error ("cannot read the in-use config directory " ++ dir ++ ": " ++ reason)
  | .ok entries => entryDigests libraries entries

end InUse

def refuseIfInUse (keyDigest : String) (inUse : Finset String) (dir : String)
    : Except String Unit :=
  if inUse = ∅ then
    .error ("found NO session keys under " ++ dir ++ " — refusing to continue. "
      ++ "An empty in-use set would make the safety check vacuous, and the key being revoked "
      ++ "could be the one this cluster is running on. Point --in-use-dir at the directory "
      ++ "holding signers_config.json.")
  else if keyDigest ∈ inUse then
    .error ("REFUSING: the key " ++ keyDigest ++ " is IN USE by this node ("
      ++ toString inUse.card ++ " in-use key(s) found under " ++ dir ++ "). Rotating it "
      ++ "would break the running cluster. If this key really is meant to be retired, take it "
      ++ "out of the config and restart first.")
  else .ok ()

-----------------------------------------------------------------------------------------
-- Verdicts
-----------------------------------------------------------------------------------------

inductive Authenticates where
  | yes
  | no
deriving DecidableEq

inductive Verdict where
  | alreadyDead
  | revoked (newDigest : String)
  | rotatedButStillLive
  | rotationRefused (http : Nat)
deriving DecidableEq

def Verdict.credentialIsDead : Verdict → Bool
  | .alreadyDead => true
  | .revoked _ => true
  | _ => false

def Verdict.needsAttention : Verdict → Bool
  | .rotatedButStillLive => true
  | .rotationRefused _ => true
  | _ => false

def classify (pre : Authenticates) (regenHttp : Option Nat) (regenNewDigest : Option String)
    (post : Option Authenticates) : Verdict :=
  if pre = .no then .alreadyDead
  else match regenHttp with
    | some 200 =>
        match post with
        | some .no => .revoked (regenNewDigest.getD "unknown")
        | _ => .rotatedButStillLive
    | some code => .rotationRefused code
    | none => .rotationRefused 0

/-- Any status but 200 counts as a refusal. -/
def authenticates (status : Nat) : Authenticates := if status = 200 then .yes else .no

-----------------------------------------------------------------------------------------
-- The calls
-----------------------------------------------------------------------------------------

inductive Route where
  | validateSessionKey
  | regenerateSessionKey
deriving DecidableEq

/-- A call of the enclave for an account and a key, and the status of its answer. -/
structure Exchange where
  route : Route
  address : String
  sessionKey : String
  status : Except String Nat

/-- What the surroundings give: the check of the URL, the files, the client, the answers of
the enclave (the second with the new key in its body), and the writing of the new key.
-/
structure Host where
  ensureLoopbackUrl : Except String Unit
  keyFile : Except String String
  readDir : Except String (List (Except String DirFile))
  httpClient : Except String Unit
  validateBefore : Except String Nat
  regenerate : Except String (Nat × Option String)
  validateAfter : Except String Nat
  write : String → String → Except String Unit
  setPermissions : String → Except String Unit

/-- The three calls against the enclave. -/
def attempt (libraries : Libraries) (host : Host) (address key : String)
    : List Exchange × Except String (Verdict × Option String) :=
  match host.httpClient with
  | .error reason => ([], .error reason)
  | .ok () =>
      let body := "0x" ++ key
      let first : Exchange := ⟨.validateSessionKey, address, body, host.validateBefore⟩
      match host.validateBefore with
      | .error reason =>
          ([first],
            .error ("failed to reach the enclave /pool/validate-session-key: " ++ reason))
      | .ok before =>
          if authenticates before = .no then ([first], .ok (.alreadyDead, none))
          else
            let second : Exchange :=
              ⟨.regenerateSessionKey, address, body, host.regenerate.map Prod.fst⟩
            match host.regenerate with
            | .error reason =>
                ([first, second],
                  .error ("failed to reach the enclave /pool/regenerate-session-key: "
                    ++ reason))
            | .ok (code, sessionKey) =>
                if code ≠ 200 then
                  ([first, second],
                    .ok (classify (authenticates before) (some code) none none, none))
                else
                  let newKey := sessionKey.map normalise
                  let newDigest := newKey.map (digest libraries)
                  let third : Exchange :=
                    ⟨.validateSessionKey, address, body, host.validateAfter⟩
                  match host.validateAfter with
                  | .error reason =>
                      ([first, second, third],
                        .error ("failed to re-check the old key after rotation: " ++ reason))
                  | .ok after =>
                      ([first, second, third],
                        .ok (classify (authenticates before) (some code) newDigest
                          (some (authenticates after)), newKey))

/-- The line of the transcript that says what became of the key. -/
structure ResultLine where
  key : String
  account : String
  dead : Bool
  attention : Bool
deriving DecidableEq

structure Outcome where
  exchanges : List Exchange
  report : Option ResultLine
  result : Except String Unit

/-- What the verdict makes of the command, once it is reported. -/
def conclude (host : Host) (saveNew : Option String) (keyDigest : String)
    (newKey : Option String) : Verdict → Except String Unit
  | .alreadyDead => .ok ()
  | .revoked _ =>
      match saveNew with
      | none => .ok ()
      | some path =>
          match host.write path ("0x" ++ newKey.getD "" ++ "\n") with
          | .error reason => .error ("cannot write " ++ path ++ ": " ++ reason)
          | .ok () =>
              match host.setPermissions path with
              | .error reason => .error ("cannot chmod 0600 " ++ path ++ ": " ++ reason)
              | .ok () => .ok ()
  | .rotatedButStillLive =>
      .error ("the enclave reported a successful rotation for " ++ keyDigest
        ++ " BUT THE OLD KEY STILL AUTHENTICATES. The credential is NOT revoked. "
        ++ "Do not record this as done — re-check the enclave and this node's pool state.")
  | .rotationRefused http =>
      .error ("the key " ++ keyDigest ++ " authenticated, so the account IS in this node's "
        ++ "pool, but the rotation was refused with HTTP " ++ toString http
        ++ ". The credential is still live.")

/-- What is checked before anything is sent; the key if nothing is wrong. -/
def admitKey (libraries : Libraries) (host : Host) (address keyFile inUseDir : String)
    : Except String String :=
  match host.ensureLoopbackUrl with
  | .error reason => .error ("the enclave API is loopback-only (O-L4): " ++ reason)
  | .ok () =>
      if ¬ (address.utf8ByteSize = 42 ∧ address.startsWith "0x" = true) then
        .error ("--address must be 0x followed by 40 hex characters, "
          ++ "as the enclave pool keys accounts")
      else match host.keyFile with
        | .error reason => .error ("cannot read the key file " ++ keyFile ++ ": " ++ reason)
        | .ok raw => do
            let key ← validateShape raw
            let inUse ← inUseDigests libraries inUseDir host.readDir
            refuseIfInUse (digest libraries key) inUse inUseDir
            .ok key

def revokeSessionKey (libraries : Libraries) (host : Host) (address keyFile inUseDir : String)
    (saveNew : Option String) : Outcome :=
  match admitKey libraries host address keyFile inUseDir with
  | .error reason => ⟨[], none, .error reason⟩
  | .ok key =>
      let keyDigest := digest libraries key
      let tried := attempt libraries host address key
      match tried.2 with
      | .error reason => ⟨tried.1, none, .error reason⟩
      | .ok (verdict, newKey) =>
          { exchanges := tried.1
            report :=
              some ⟨keyDigest, address, verdict.credentialIsDead, verdict.needsAttention⟩
            result := conclude host saveNew keyDigest newKey verdict }

end SessionKey

end PerpDex
