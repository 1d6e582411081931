import PerpDex.SessionKey.Revoke

/-! What a revocation can be relied on for.
The rotation is never sent for a key that was found in use. A file that cannot be read or
parsed takes no part in that, and neither does an answer of the enclave that decides nothing.
-/

namespace PerpDex

namespace SessionKey

-----------------------------------------------------------------------------------------
-- Keys that are found
-----------------------------------------------------------------------------------------

/-- A text stands under `session_key` somewhere in a value, reached through arrays and other
members.
-/
inductive HoldsKey (text : String) : Json → Prop where
  | here {members : List (String × Json)} (member : ("session_key", .string text) ∈ members)
    : HoldsKey text (.object members)
  | member {members : List (String × Json)} {key : String} {value : Json}
      (member : (key, value) ∈ members) (other : key ≠ "session_key")
      (holds : HoldsKey text value)
    : HoldsKey text (.object members)
  | element {elements : List Json} {value : Json} (member : value ∈ elements)
      (holds : HoldsKey text value)
    : HoldsKey text (.array elements)

section Found

variable {libraries : Libraries}

theorem collectMembers_of_mem {members : List (String × Json)} {key : String} {value : Json}
    (member : (key, value) ∈ members)
    : (if key = "session_key" then keyDigests libraries value
        else collectSessionKeys libraries value) ⊆ collectMembers libraries members := by
  induction members with
  | nil => cases member
  | cons first rest ih =>
      obtain ⟨name, held⟩ := first
      rw [collectMembers]
      rcases List.mem_cons.mp member with same | later
      · cases same
        exact Finset.subset_union_left
      · exact (ih later).trans Finset.subset_union_right

theorem collectElements_of_mem {elements : List Json} {value : Json}
    (member : value ∈ elements)
    : collectSessionKeys libraries value ⊆ collectElements libraries elements := by
  induction elements with
  | nil => cases member
  | cons first rest ih =>
      rw [collectElements]
      rcases List.mem_cons.mp member with rfl | later
      · exact Finset.subset_union_left
      · exact (ih later).trans Finset.subset_union_right

/-- Every key that a value holds is collected. -/
theorem HoldsKey.mem_collect {text : String} {value : Json} (holds : HoldsKey text value)
    (nonempty : normalise text ≠ "")
    : digest libraries text ∈ collectSessionKeys libraries value := by
  induction holds with
  | here member =>
      rw [collectSessionKeys]
      apply collectMembers_of_mem member
      rw [if_pos rfl, keyDigests]
      simp [Json.asStr, nonempty]
  | member member other _ ih =>
      rw [collectSessionKeys]
      apply collectMembers_of_mem member
      rw [if_neg other]
      exact ih
  | element member _ ih =>
      rw [collectSessionKeys]
      exact collectElements_of_mem member ih

/-- The keys of a directory are those of its first file and of the others. -/
theorem entryDigests_cons {first : Except String DirFile} {rest : List (Except String DirFile)}
    {inUse : Finset String} (collected : entryDigests libraries (first :: rest) = .ok inUse)
    : ∃ file others, first = .ok file ∧ entryDigests libraries rest = .ok others
      ∧ inUse = fileDigests libraries file ∪ others := by
  cases first with
  | error reason => cases collected
  | ok file =>
      rw [entryDigests] at collected
      cases inRest : entryDigests libraries rest with
      | error reason =>
          rw [inRest] at collected
          cases collected
      | ok others =>
          rw [inRest] at collected
          cases collected
          exact ⟨file, others, rfl, rfl, rfl⟩

/-- A file of JSON that was read and parsed has its keys among those of the directory. -/
theorem entryDigests_of_mem {entries : List (Except String DirFile)} {inUse : Finset String}
    (collected : entryDigests libraries entries = .ok inUse) {file : DirFile}
    (listed : .ok file ∈ entries)
    : fileDigests libraries file ⊆ inUse := by
  induction entries generalizing inUse with
  | nil => cases listed
  | cons first rest ih =>
      obtain ⟨held, others, rfl, inRest, rfl⟩ := entryDigests_cons collected
      rcases List.mem_cons.mp listed with same | later
      · cases same
        exact Finset.subset_union_left
      · exact (ih inRest later).trans Finset.subset_union_right

/-- A directory of which the keys are known has been listed without an error. -/
theorem entryDigests_listed {entries : List (Except String DirFile)} {inUse : Finset String}
    (collected : entryDigests libraries entries = .ok inUse)
    : ∃ files : List DirFile, entries = files.map .ok := by
  induction entries generalizing inUse with
  | nil => exact ⟨[], rfl⟩
  | cons first rest ih =>
      obtain ⟨held, others, rfl, inRest, -⟩ := entryDigests_cons collected
      obtain ⟨files, rfl⟩ := ih inRest
      exact ⟨held :: files, rfl⟩

theorem HoldsKey.cons {text : String} {members : List (String × Json)}
    (holds : HoldsKey text (.object members)) (first : String × Json)
    : HoldsKey text (.object (first :: members)) := by
  cases holds with
  | here member => exact .here (List.mem_cons_of_mem first member)
  | member member other holds => exact .member (List.mem_cons_of_mem first member) other holds

theorem HoldsKey.consElement {text : String} {elements : List Json}
    (holds : HoldsKey text (.array elements)) (first : Json)
    : HoldsKey text (.array (first :: elements)) := by
  cases holds with
  | element member holds => exact .element (List.mem_cons_of_mem first member) holds

/-- What stands under `session_key` is collected only if it is a text with something in it. -/
theorem mem_keyDigests {label : String} {value : Json}
    (member : label ∈ keyDigests libraries value)
    : ∃ text, value = .string text ∧ normalise text ≠ "" := by
  cases value with
  | string text =>
      refine ⟨text, rfl, fun nothing => ?_⟩
      simp [keyDigests, Json.asStr, nothing] at member
  | _ => simp [keyDigests, Json.asStr] at member

/-- A key that is collected below an object is its own, or one that a member holds.
Witness: induction on the members.
-/
theorem holds_of_mem_members {label : String} {members : List (String × Json)}
    (each : ∀ entry ∈ members, label ∈ collectSessionKeys libraries entry.2 →
      ∃ text, HoldsKey text entry.2 ∧ normalise text ≠ "")
    (collected : label ∈ collectMembers libraries members)
    : ∃ text, HoldsKey text (.object members) ∧ normalise text ≠ "" := by
  induction members with
  | nil => simp [collectMembers] at collected
  | cons entry rest ih =>
      rw [collectMembers] at collected
      rcases Finset.mem_union.mp collected with here | later
      · by_cases isKey : entry.1 = "session_key"
        · rw [if_pos isKey] at here
          obtain ⟨text, isText, nonempty⟩ := mem_keyDigests here
          have own : ("session_key", .string text) ∈ entry :: rest := by
            rw [← isText, ← isKey]
            exact List.mem_cons_self
          exact ⟨text, .here own, nonempty⟩
        · rw [if_neg isKey] at here
          obtain ⟨text, holds, nonempty⟩ := each entry List.mem_cons_self here
          exact ⟨text, .member List.mem_cons_self isKey holds, nonempty⟩
      · have others := fun other member => each other (List.mem_cons_of_mem entry member)
        obtain ⟨text, holds, nonempty⟩ := ih others later
        exact ⟨text, holds.cons entry, nonempty⟩

/-- A key that is collected below an array is one that an element holds.
Witness: induction on the elements.
-/
theorem holds_of_mem_elements {label : String} {elements : List Json}
    (each : ∀ value ∈ elements, label ∈ collectSessionKeys libraries value →
      ∃ text, HoldsKey text value ∧ normalise text ≠ "")
    (collected : label ∈ collectElements libraries elements)
    : ∃ text, HoldsKey text (.array elements) ∧ normalise text ≠ "" := by
  induction elements with
  | nil => simp [collectElements] at collected
  | cons value rest ih =>
      rw [collectElements] at collected
      rcases Finset.mem_union.mp collected with here | later
      · obtain ⟨text, holds, nonempty⟩ := each value List.mem_cons_self here
        exact ⟨text, .element List.mem_cons_self holds, nonempty⟩
      · have others := fun other member => each other (List.mem_cons_of_mem value member)
        obtain ⟨text, holds, nonempty⟩ := ih others later
        exact ⟨text, holds.consElement value, nonempty⟩

/-- Only keys that a value holds are collected. -/
theorem holds_of_mem_collect {label : String}
    : ∀ value, label ∈ collectSessionKeys libraries value
      → ∃ text, HoldsKey text value ∧ normalise text ≠ ""
  | .object members, collected => by
      rw [collectSessionKeys] at collected
      exact holds_of_mem_members (fun entry member => holds_of_mem_collect entry.2) collected
  | .array elements, collected => by
      rw [collectSessionKeys] at collected
      exact holds_of_mem_elements (fun value member => holds_of_mem_collect value) collected
  | .null, collected => by simp [collectSessionKeys] at collected
  | .bool _, collected => by simp [collectSessionKeys] at collected
  | .number _, collected => by simp [collectSessionKeys] at collected
  | .string _, collected => by simp [collectSessionKeys] at collected
termination_by value => sizeOf value
decreasing_by
  · have inside := List.sizeOf_lt_of_mem member
    have below : sizeOf entry.2 < sizeOf entry := by
      cases entry
      simp
    simp only [Json.object.sizeOf_spec]
    omega
  · have inside := List.sizeOf_lt_of_mem member
    simp only [Json.array.sizeOf_spec]
    omega

end Found

/-- A file is JSON by name and by content, and holds a text as a session key. -/
def FileHolds (libraries : Libraries) (file : DirFile) (held : String) : Prop :=
  extension file.fileName = some "json"
  ∧ ∃ text value, file.content = .ok text ∧ libraries.fromStr text = some value
    ∧ HoldsKey held value

section Files

variable {libraries : Libraries}

theorem FileHolds.mem_fileDigests {file : DirFile} {held : String}
    (holds : FileHolds libraries file held) (nonempty : normalise held ≠ "")
    : digest libraries held ∈ fileDigests libraries file := by
  obtain ⟨isJson, text, value, isText, isValue, inside⟩ := holds
  rw [fileDigests, if_pos isJson, isText]
  dsimp only
  rw [isValue]
  exact inside.mem_collect nonempty

theorem fileHolds_of_mem {file : DirFile} {label : String}
    (member : label ∈ fileDigests libraries file)
    : ∃ held, FileHolds libraries file held ∧ normalise held ≠ "" := by
  unfold fileDigests at member
  split at member
  case isFalse => cases Finset.notMem_empty _ member
  case isTrue isJson =>
    split at member
    case h_2 => cases Finset.notMem_empty _ member
    case h_1 text isText =>
      split at member
      case h_2 => cases Finset.notMem_empty _ member
      case h_1 value isValue =>
        obtain ⟨held, holds, nonempty⟩ := holds_of_mem_collect value member
        exact ⟨held, ⟨isJson, text, value, isText, isValue, holds⟩, nonempty⟩

/-- A key of the directory is held by one of its files. -/
theorem fileHolds_of_mem_entries {files : List DirFile} {inUse : Finset String}
    (collected : entryDigests libraries (files.map .ok) = .ok inUse) {label : String}
    (member : label ∈ inUse)
    : ∃ file ∈ files, ∃ held, FileHolds libraries file held ∧ normalise held ≠ "" := by
  induction files generalizing inUse with
  | nil =>
      cases collected
      cases Finset.notMem_empty _ member
  | cons first rest ih =>
      obtain ⟨held, others, same, inRest, rfl⟩ := entryDigests_cons collected
      cases same
      rcases Finset.mem_union.mp member with here | later
      · exact ⟨first, List.mem_cons_self, fileHolds_of_mem here⟩
      · obtain ⟨file, listed, held⟩ := ih inRest later
        exact ⟨file, List.mem_cons_of_mem first listed, held⟩

end Files

-----------------------------------------------------------------------------------------
-- The key that is given
-----------------------------------------------------------------------------------------

theorem hexdigit_clean {char : Char} (digit : isAsciiHexdigit char = true)
    : Text.isWhiteSpace char = false ∧ char ≠ 'x' ∧ char ≠ 'X' := by
  have range : (48 ≤ char.toNat ∧ char.toNat ≤ 57) ∨ (97 ≤ char.toNat ∧ char.toNat ≤ 102)
      ∨ (65 ≤ char.toNat ∧ char.toNat ≤ 70) := by
    simp only [isAsciiHexdigit, Hex.digitValue] at digit
    split at digit
    case isTrue decimal => exact .inl decimal
    case isFalse =>
      split at digit
      case isTrue lower => exact .inr (.inl lower)
      case isFalse =>
        split at digit
        case isTrue upper => exact .inr (.inr upper)
        case isFalse => cases digit
  refine ⟨?_, ?_, ?_⟩
  · simp only [Text.isWhiteSpace, Bool.or_eq_false_iff, Bool.and_eq_false_iff,
      decide_eq_false_iff_not]
    omega
  · rintro rfl
    revert range
    decide
  · rintro rfl
    revert range
    decide

/-- Hexadecimal text in lower case is its own normal form. -/
theorem normalise_eq_self {text : String}
    (digits : ∀ char ∈ text.toList, isAsciiHexdigit char = true)
    (lower : text.toList.map Char.toLower = text.toList)
    : normalise text = text := by
  have trimmed : Text.trim text.toList = text.toList :=
    Text.trim_eq_self (fun char member => (hexdigit_clean (digits char member)).1)
  unfold normalise
  rw [trimmed]
  split
  case h_1 rest same =>
    have clean := hexdigit_clean (digits 'x' (by simp [same]))
    exact absurd rfl clean.2.1
  case h_2 rest same =>
    have clean := hexdigit_clean (digits 'X' (by simp [same]))
    exact absurd rfl clean.2.2
  case h_3 =>
    dsimp only
    rw [lower, String.ofList_toList]

theorem toLower_normalise (raw : String)
    : (normalise raw).toList.map Char.toLower = (normalise raw).toList := by
  simp [normalise, Function.comp_def]

/-- A key of the right shape is the normal form of what was given, and its own. -/
theorem validateShape_eq_ok {raw key : String} (valid : validateShape raw = .ok key)
    : key = normalise raw ∧ normalise key = key ∧ key ≠ "" := by
  unfold validateShape at valid
  dsimp only at valid
  split at valid
  case isTrue => cases valid
  case isFalse shaped =>
    cases valid
    obtain ⟨size, digits⟩ := not_or.mp shaped
    refine ⟨rfl, normalise_eq_self ?_ (toLower_normalise raw), fun nothing => size ?_⟩
    · exact List.all_eq_true.mp (Bool.not_eq_false _ ▸ digits)
    · rw [nothing]
      decide

-----------------------------------------------------------------------------------------
-- Safety of a revocation
-----------------------------------------------------------------------------------------

/-- The rotation is sent only if the directory was listed, some key was found in it, and none
of the files that were read and parsed holds the key that was given.
-/
def SentSafely (libraries : Libraries) (host : Host) (outcome : Outcome) : Prop :=
  (∃ exchange ∈ outcome.exchanges, exchange.route = .regenerateSessionKey)
  → ∃ (raw : String) (files : List DirFile),
      host.keyFile = .ok raw ∧ host.readDir = .ok (files.map .ok)
      ∧ (∃ file ∈ files, ∃ held, FileHolds libraries file held ∧ normalise held ≠ "")
      ∧ ∀ file ∈ files, ∀ held, FileHolds libraries file held → normalise held ≠ normalise raw

/-- The last answer of the enclave about the key. -/
def lastValidation (exchanges : List Exchange) : Option (Except String Nat) :=
  (exchanges.filter (fun exchange => exchange.route = .validateSessionKey)).getLast?.map
    Exchange.status

/-- The enclave decides about the key whenever it is asked: it accepts or refuses it. -/
def Decided (exchanges : List Exchange) : Prop :=
  ∀ exchange ∈ exchanges, exchange.route = .validateSessionKey
  → exchange.status = .ok 200 ∨ exchange.status = .ok 400

/-- The key is reported dead only if the enclave refused it in its last answer. -/
def DeadMeansRefused (outcome : Outcome) : Prop :=
  ∀ line, outcome.report = some line → line.dead = true → Decided outcome.exchanges
  → lastValidation outcome.exchanges = some (.ok 400)

section Safety

variable {libraries : Libraries} {host : Host} {address keyFile inUseDir key : String}

/-- What has been checked by the time a key is admitted. -/
theorem admitKey_eq_ok (admitted : admitKey libraries host address keyFile inUseDir = .ok key)
    : ∃ raw inUse, host.keyFile = .ok raw ∧ validateShape raw = .ok key
      ∧ inUseDigests libraries inUseDir host.readDir = .ok inUse
      ∧ inUse ≠ ∅ ∧ digest libraries key ∉ inUse := by
  unfold admitKey at admitted
  split at admitted
  case h_1 => cases admitted
  case h_2 =>
    split at admitted
    case isTrue => cases admitted
    case isFalse =>
      split at admitted
      case h_1 => cases admitted
      case h_2 raw isRaw =>
        obtain ⟨shaped, isShaped, rest⟩ := Except.bind_eq_ok_iff.mp admitted
        obtain ⟨inUse, isInUse, rest⟩ := Except.bind_eq_ok_iff.mp rest
        obtain ⟨_, unused, same⟩ := Except.bind_eq_ok_iff.mp rest
        cases same
        refine ⟨raw, inUse, isRaw, isShaped, isInUse, ?_⟩
        unfold refuseIfInUse at unused
        split at unused
        case isTrue => cases unused
        case isFalse some =>
          split at unused
          case isTrue => cases unused
          case isFalse free => exact ⟨some, free⟩

/-- An admitted key is none that a file was found to hold. -/
theorem admitKey_safe (admitted : admitKey libraries host address keyFile inUseDir = .ok key)
    : ∃ (raw : String) (files : List DirFile),
      host.keyFile = .ok raw ∧ host.readDir = .ok (files.map .ok)
      ∧ (∃ file ∈ files, ∃ held, FileHolds libraries file held ∧ normalise held ≠ "")
      ∧ ∀ file ∈ files, ∀ held, FileHolds libraries file held
        → normalise held ≠ normalise raw := by
  obtain ⟨raw, inUse, isRaw, isKey, isInUse, some, free⟩ := admitKey_eq_ok admitted
  obtain ⟨isNormal, normal, nonempty⟩ := validateShape_eq_ok isKey
  unfold inUseDigests at isInUse
  split at isInUse
  case h_1 => cases isInUse
  case h_2 entries listed =>
    obtain ⟨files, rfl⟩ := entryDigests_listed isInUse
    refine ⟨raw, files, isRaw, listed, ?_, fun file member held holds same => free ?_⟩
    · obtain ⟨label, member⟩ := Finset.nonempty_of_ne_empty some
      exact fileHolds_of_mem_entries isInUse member
    · -- equal normal forms have equal labels, and the label of a held key is collected
      have sameKey : normalise held = key := same.trans isNormal.symm
      have sameDigest : digest libraries key = digest libraries held := by
        rw [digest, digest, normal, sameKey]
      rw [sameDigest]
      have inFile := holds.mem_fileDigests (by rw [sameKey]; exact nonempty)
      exact entryDigests_of_mem isInUse (List.mem_map_of_mem member) inFile

/-- A verdict that the key is dead follows an answer other than 200. -/
theorem attempt_dead {exchanges : List Exchange} {verdict : Verdict} {newKey : Option String}
    (tried : attempt libraries host address key = (exchanges, .ok (verdict, newKey)))
    (dead : verdict.credentialIsDead = true)
    : ∃ status, lastValidation exchanges = some (.ok status) ∧ status ≠ 200 := by
  unfold attempt at tried
  split at tried
  case h_1 => cases tried
  case h_2 =>
    dsimp only at tried
    split at tried
    case h_1 => cases tried
    case h_2 before answered =>
      split at tried
      case isTrue refused =>
        cases tried
        refine ⟨before, by simp [lastValidation, answered], ?_⟩
        rintro rfl
        cases refused
      case isFalse accepted =>
        split at tried
        case h_1 => cases tried
        case h_2 code sessionKey rotated =>
          split at tried
          case isTrue failed =>
            cases tried
            have refused : classify (authenticates before) (some code) none none
                = .rotationRefused code := by
              unfold classify
              rw [if_neg accepted]
              split
              case h_1 same =>
                cases same
                exact absurd rfl failed
              case h_2 same =>
                cases same
                rfl
              case h_3 nothing => cases nothing
            rw [refused] at dead
            cases dead
          case isFalse rotates =>
            split at tried
            case h_1 => cases tried
            case h_2 after checked =>
              cases tried
              refine ⟨after, by simp [lastValidation, checked], ?_⟩
              rintro rfl
              obtain rfl : code = 200 := not_not.mp rotates
              have yes : authenticates before = .yes := by
                cases isPre : authenticates before with
                | yes => rfl
                | no => exact absurd isPre accepted
              rw [yes] at dead
              cases dead

theorem status_of_lastValidation {exchanges : List Exchange} {status : Except String Nat}
    (last : lastValidation exchanges = some status)
    : ∃ exchange ∈ exchanges, exchange.route = .validateSessionKey
      ∧ exchange.status = status := by
  obtain ⟨exchange, isLast, same⟩ := Option.map_eq_some_iff.mp last
  obtain ⟨member, isRoute⟩ := List.mem_filter.mp (List.mem_of_getLast? isLast)
  exact ⟨exchange, member, of_decide_eq_true isRoute, same⟩

end Safety

/-- A revocation is safe in both directions, as far as files can be read and the enclave
decides.
-/
theorem revocation_safe (libraries : Libraries) (host : Host) (address keyFile inUseDir : String)
    (saveNew : Option String)
    : SentSafely libraries host
        (revokeSessionKey libraries host address keyFile inUseDir saveNew)
      ∧ DeadMeansRefused (revokeSessionKey libraries host address keyFile inUseDir saveNew) := by
  unfold revokeSessionKey
  cases admitted : admitKey libraries host address keyFile inUseDir with
  | error reason =>
      refine ⟨?_, fun line report => (by cases report)⟩
      rintro ⟨exchange, member, -⟩
      cases member
  | ok key =>
      refine ⟨fun _ => admitKey_safe admitted, ?_⟩
      dsimp only
      cases tried : attempt libraries host address key with
      | mk exchanges result =>
          cases result with
          | error reason => exact fun line report => (by cases report)
          | ok concluded =>
              obtain ⟨verdict, newKey⟩ := concluded
              intro line report dead decided
              cases report
              obtain ⟨status, last, refused⟩ := attempt_dead tried dead
              obtain ⟨exchange, member, isRoute, isStatus⟩ := status_of_lastValidation last
              refine last.trans ?_
              rcases decided exchange member isRoute with accepted | isRefused
              · rw [isStatus] at accepted
                exact absurd (Except.ok.inj accepted) refused
              · rw [← isStatus, isRefused]

/-- A key of 32 equal bytes. -/
def uniformKey (digit : Char) : String := String.ofList (List.replicate 64 digit)

/-- A configuration with a key in it. -/
def liveConfig : String :=
  "\x7b\"local_signer\":\x7b\"session_key\":\"0x" ++ uniformKey '2' ++ "\"\x7d\x7d"

/-- A configuration with the leaked key in it and a comma too many. -/
def brokenConfig : String := "\x7b\"session_key\":\"0x" ++ uniformKey '1' ++ "\",\x7d"

def sampleHashes : List (String × Nat) := [
  (uniformKey '1', 0x3138bb9bc78df27c473ecfd1410f7bd45ebac1f59cf3ff9cfe4db77aab7aedd3),
  (uniformKey '2', 0x4f2e8d65483c641648cdb374ae9d8abd368d269e4ddffe092a8237b8162cddd6),
  (uniformKey '3', 0x79bd7d7fd684b399857c582b1b7172ddf277d4fe1b027ec52b28da3ae381e675)
]

/-- The libraries on the sample inputs. -/
def sampleLibraries : Libraries where
  sha256 := fun bytes =>
    natBytes 32 (((sampleHashes.find? (fun entry => utf8 entry.1 = bytes)).map Prod.snd).getD 0)
  fromStr := fun text =>
    if text = liveConfig then
      some (.object [("local_signer",
        .object [("session_key", .string ("0x" ++ uniformKey '2'))])])
    else none

/-- A node with some files, whose enclave accepts the leaked key, rotates it, and refuses it
from then on.
-/
def sampleHost (files : List DirFile) : Host where
  ensureLoopbackUrl := .ok ()
  keyFile := .ok ("0x" ++ uniformKey '1' ++ "\n")
  readDir := .ok (files.map .ok)
  httpClient := .ok ()
  validateBefore := .ok 200
  regenerate := .ok (200, some ("0x" ++ uniformKey '3'))
  validateAfter := .ok 400
  write := fun _ _ => .ok ()
  setPermissions := fun _ => .ok ()

def sampleRevocation (files : List DirFile) : Outcome :=
  revokeSessionKey sampleLibraries (sampleHost files)
    "0x1111111111111111111111111111111111111111" "key" "/perp" none

/-- A leaked key that is not in use is revoked and reported dead. -/
theorem revocation_safe_leakedKey
    : (sampleRevocation [⟨"signers_config.json", .ok liveConfig⟩]).report
        = some ⟨"3138bb9bc78df27c", "0x1111111111111111111111111111111111111111", true, false⟩
      ∧ SentSafely sampleLibraries (sampleHost [⟨"signers_config.json", .ok liveConfig⟩])
        (sampleRevocation [⟨"signers_config.json", .ok liveConfig⟩])
      ∧ DeadMeansRefused (sampleRevocation [⟨"signers_config.json", .ok liveConfig⟩]) :=
  ⟨by decide +kernel, revocation_safe _ _ _ _ _ _⟩

/-- The rotation is sent although a configuration cannot be parsed, and it is the one that has
the key.
-/
theorem rotation_sent_past_broken_file
    : (sampleRevocation
          [⟨"signers_config.json", .ok liveConfig⟩, ⟨"broken.json", .ok brokenConfig⟩]).exchanges.map
          Exchange.route
        = [.validateSessionKey, .regenerateSessionKey, .validateSessionKey]
      ∧ extension "broken.json" = some "json"
      ∧ (sampleLibraries.fromStr brokenConfig).isNone = true := by
  decide +kernel

end SessionKey

end PerpDex
