import PerpDex.Auth.Signature
import PerpDex.Lib.DecimalText
import PerpDex.Lib.Except
import PerpDex.Lib.Run
import PerpDex.Lib.Wire

/-! The operator roster: how a node loads it when it starts, and which versions a node runs
with over its starts.
-/

namespace PerpDex

namespace OperatorRoster

-----------------------------------------------------------------------------------------
-- The roster and its invariants
-----------------------------------------------------------------------------------------

inductive RosterError where
  | missing (path : String)
  | malformed (reason : String)
  | empty
  | wrongCluster (file running : String)
  | rollback (inForce offered : UInt64)
  | signatureUnverified (reason : String)
  | signatureInvalid (reason : String)
deriving DecidableEq

structure OperatorEntry where
  handle : String
  xrplAddress : String
  ops : List String
deriving DecidableEq

structure Roster where
  version : UInt64
  clusterEscrow : String
  operators : List OperatorEntry
  opThresholds : List (String × UInt32)
deriving DecidableEq

/-- The invariants that need no signature. -/
def Roster.checkInvariants (roster : Roster) (runningEscrow : String)
    (versionInForce : Option UInt64) : Except RosterError Unit :=
  if roster.operators.isEmpty then .error .empty
  else if roster.clusterEscrow ≠ runningEscrow then
    .error (.wrongCluster roster.clusterEscrow runningEscrow)
  else
    match versionInForce with
    | some inForce =>
        if roster.version ≤ inForce then .error (.rollback inForce roster.version) else .ok ()
    | none => .ok ()

-----------------------------------------------------------------------------------------
-- Loading
-----------------------------------------------------------------------------------------

/-- `BAKED_GOV_PUB`. -/
def bakedGovPub : List UInt8 :=
  [0xb4, 0x8b, 0xbc, 0x35, 0x33, 0x8d, 0xf4, 0x1a, 0x09, 0xeb, 0x32, 0x0d, 0x18, 0xce, 0xf8,
    0xff, 0x78, 0x89, 0xe4, 0x9b, 0x2e, 0x4b, 0xbf, 0x21, 0x29, 0x55, 0x4a, 0x6d, 0xa1, 0x19,
    0x5e, 0x65]

/-- What a load relies on outside the program: base64, the TOML reader, the wording of an
encoding error, and `ssh-keygen -Y verify` over an allowed-signers line, the payload and the
content of the signature file.
-/
structure Tools where
  base64Encode : List UInt8 → String
  base64Decode : String → Option (List UInt8)
  toml : String → Except String Roster
  notUtf8 : List UInt8 → String
  verify : String → List UInt8 → List UInt8 → Except RosterError Unit

def rosterIdentity : String := "perp-cluster-operator"

/-- The pieces of a text between white space. -/
def splitWhitespace (text : String) : List String :=
  ((text.toList.splitOnP Text.isWhiteSpace).filter (fun piece => !piece.isEmpty)).map
    String.ofList

/-- A bare public key is given the fixed principal. -/
def allowedSignersLine (pubkeyLine : String) : String :=
  let line := String.ofList (Text.trim pubkeyLine.toList)
  let first := (splitWhitespace line).headD ""
  if first.startsWith "ssh-" || first.startsWith "ecdsa-" || first.startsWith "sk-" then
    rosterIdentity ++ " " ++ line
  else line

/-- Exactly one well-formed `ssh-ed25519` key. -/
def readEd25519 : Wire.Reader (List UInt8) := do
  let algoLen ← Wire.uintBe 4
  let algo ← Wire.take algoLen
  Wire.require (algo = utf8 "ssh-ed25519")
  let keyLen ← Wire.uintBe 4
  Wire.require (keyLen = 32)
  Wire.take 32

section Load

variable (tools : Tools)

def ed25519RawFromSshPubkey (line : String) : Option (List UInt8) := do
  let blob ←
    match splitWhitespace line with
    | "ssh-ed25519" :: blob :: _ => some blob
    | "ssh-ed25519" :: [] => none
    | _ :: "ssh-ed25519" :: blob :: _ => some blob
    | _ => none
  Wire.whole readEd25519 (← tools.base64Decode blob)

/-- The compiled-in key as a public-key line. -/
def bakedOperatorPubLine : String :=
  "ssh-ed25519 "
    ++ tools.base64Encode
      ([0, 0, 0, 11] ++ utf8 "ssh-ed25519" ++ [0, 0, 0, 32] ++ bakedGovPub)

/-- The signature is checked over the raw bytes before anything is parsed. -/
def loadBytesWithPubkey (bytes signature : List UInt8) (pubkey runningEscrow : String)
    (versionInForce : Option UInt64) : Except RosterError Roster := do
  tools.verify (allowedSignersLine pubkey) bytes signature
  let text ← okOr (String.fromUTF8? ⟨bytes.toArray⟩)
    (.malformed s!"roster is not UTF-8: {tools.notUtf8 bytes}")
  let roster ← (tools.toml text).mapError .malformed
  roster.checkInvariants runningEscrow versionInForce
  .ok roster

/-- A file named on the command line; `content` is its bytes or why it cannot be read. -/
structure NamedFile where
  path : String
  content : Except String (List UInt8)

/-- The `--operator-pub` file is not trusted, but has to hold the compiled-in key. -/
def crossCheck : Option NamedFile → Except RosterError Unit
  | none => .ok ()
  | some file =>
      match file.content with
      | .error reason =>
          .error (.signatureUnverified s!"--operator-pub {file.path} unreadable: {reason}")
      | .ok bytes =>
          match String.fromUTF8? ⟨bytes.toArray⟩ with
          | none =>
              .error
                (.signatureUnverified
                  s!"--operator-pub {file.path} unreadable: stream did not contain valid UTF-8")
          | some line =>
              if ed25519RawFromSshPubkey tools line = some bakedGovPub then .ok ()
              else
                .error
                  (.signatureUnverified
                    (s!"--operator-pub {file.path} does not encode the compiled-in governance "
                      ++ "key — refusing (the file is no longer a trust root; drop the flag or "
                      ++ "fix the file)"))

/-- `load_baked`. -/
def loadBaked (rosterFile : NamedFile) (signature : List UInt8) (crossCheckPub : Option NamedFile)
    (runningEscrow : String) (versionInForce : Option UInt64) : Except RosterError Roster := do
  crossCheck tools crossCheckPub
  let bytes ← rosterFile.content.mapError
    (fun reason => RosterError.missing s!"{rosterFile.path}: {reason}")
  loadBytesWithPubkey tools bytes signature (bakedOperatorPubLine tools) runningEscrow
    versionInForce

/-- What a node is started with. -/
structure Start where
  /-- The `--operator-roster` file and the content of its signature file. -/
  operatorRoster : Option (NamedFile × List UInt8)
  operatorPub : Option NamedFile

/-- The authority of the admin surfaces; none serves nothing. -/
structure RosterAuthority where
  roster : Option Roster
deriving DecidableEq

/-- The authority a node builds when it starts. Nothing of an earlier start is read. -/
def rosterAuthority (escrowAddress : String) (start : Start) : RosterAuthority :=
  match start.operatorRoster with
  | none => { roster := none }
  | some (file, signature) =>
      match loadBaked tools file signature start.operatorPub escrowAddress none with
      | .ok roster => { roster := some roster }
      | .error _ => { roster := none }

end Load

-----------------------------------------------------------------------------------------
-- The rosters a node runs with
-----------------------------------------------------------------------------------------

section Starts

variable (tools : Tools) (escrowAddress : String)

/-- The file a start is given and the roster the node then serves its admin surfaces under. -/
def servedUnder (start : Start) : Option (List UInt8 × Roster) := do
  let roster ← (rosterAuthority tools escrowAddress start).roster
  let offered ← start.operatorRoster
  let bytes ← offered.1.content.toOption
  some (bytes, roster)

/-- A roster for this cluster, with operators, that carries the operator's signature. -/
structure Genuine (bytes signature : List UInt8) (roster : Roster) : Prop where
  signed
    : tools.verify (allowedSignersLine (bakedOperatorPubLine tools)) bytes signature = .ok ()
  parsed
    : ∃ text, String.fromUTF8? ⟨bytes.toArray⟩ = some text ∧ tools.toml text = .ok roster
  operated : roster.operators ≠ []
  bound : roster.clusterEscrow = escrowAddress

/-- The start is given a genuine roster, and nothing else that keeps it from loading. -/
structure Offers (start : Start) (bytes : List UInt8) (roster : Roster) : Prop where
  genuine
    : ∃ path signature, start.operatorRoster = some (⟨path, .ok bytes⟩, signature)
      ∧ Genuine tools escrowAddress bytes signature roster
  crossChecked : crossCheck tools start.operatorPub = .ok ()

end Starts

/-- When the file changes the version grows. -/
def Forward (earlier later : List UInt8 × Roster) : Prop :=
  earlier.1 ≠ later.1 → earlier.2.version < later.2.version

/-- The version does not fall. -/
def NotBelow (earlier later : List UInt8 × Roster) : Prop :=
  earlier.2.version ≤ later.2.version

instance : Trans NotBelow NotBelow NotBelow := ⟨UInt64.le_trans⟩

/-- Over the starts of a node the versions grow whenever the file changes, and no version is
below one that was in force before.
-/
structure NoRollback (served : List (List UInt8 × Roster)) : Prop where
  forward : served.IsChain Forward
  neverBelow : served.Pairwise NotBelow

theorem checkInvariants_ok_iff {roster : Roster} {escrow : String} {inForce : Option UInt64}
    : roster.checkInvariants escrow inForce = .ok ()
      ↔ roster.operators ≠ [] ∧ roster.clusterEscrow = escrow
        ∧ ∀ version ∈ inForce, version < roster.version := by
  by_cases empty : roster.operators = []
  · simp [Roster.checkInvariants, empty]
  by_cases foreign : roster.clusterEscrow = escrow
  · cases inForce with
    | none => simp [Roster.checkInvariants, empty, foreign]
    | some version =>
        by_cases old : roster.version ≤ version
        · simp [Roster.checkInvariants, empty, foreign, old, UInt64.not_lt.mpr old]
        · simp [Roster.checkInvariants, empty, foreign, old, UInt64.not_le.mp old]
  · simp [Roster.checkInvariants, empty, foreign]

/-- Exactly the genuine rosters are loaded that are newer than the one named in force. -/
theorem loadBytesWithPubkey_ok_iff {tools : Tools} {bytes signature : List UInt8}
    {escrow : String} {inForce : Option UInt64} {roster : Roster}
    : loadBytesWithPubkey tools bytes signature (bakedOperatorPubLine tools) escrow inForce
        = .ok roster
      ↔ Genuine tools escrow bytes signature roster
        ∧ ∀ version ∈ inForce, version < roster.version := by
  rw [loadBytesWithPubkey]
  constructor
  · intro loaded
    obtain ⟨_, signed, loaded⟩ := Except.bind_eq_ok_iff.mp loaded
    obtain ⟨text, decoded, loaded⟩ := Except.bind_eq_ok_iff.mp loaded
    obtain ⟨read, parsed, loaded⟩ := Except.bind_eq_ok_iff.mp loaded
    obtain ⟨_, checked, loaded⟩ := Except.bind_eq_ok_iff.mp loaded
    obtain rfl := Except.ok.inj loaded
    obtain ⟨operated, bound, newer⟩ := checkInvariants_ok_iff.mp checked
    refine ⟨⟨signed, ⟨text, ?_, ?_⟩, operated, bound⟩, newer⟩
    · cases valid : String.fromUTF8? ⟨bytes.toArray⟩ with
      | none =>
          rw [valid] at decoded
          cases decoded
      | some found =>
          rw [valid] at decoded
          exact congrArg some (Except.ok.inj decoded)
    · cases result : tools.toml text with
      | error reason =>
          rw [result] at parsed
          cases parsed
      | ok found =>
          rw [result] at parsed
          exact congrArg Except.ok (Except.ok.inj parsed)
  · rintro ⟨⟨signed, ⟨text, decoded, parsed⟩, operated, bound⟩, newer⟩
    have checked := checkInvariants_ok_iff.mpr ⟨operated, bound, newer⟩
    simp only [signed, decoded, parsed, checked, okOr, Except.mapError, bind, Except.bind]

/-- A node serves under exactly the roster that its start offers. -/
theorem servedUnder_eq_some_iff {tools : Tools} {escrow : String} {start : Start}
    {bytes : List UInt8} {roster : Roster}
    : servedUnder tools escrow start = some (bytes, roster)
      ↔ Offers tools escrow start bytes roster := by
  constructor
  · intro served
    cases given : start.operatorRoster with
    | none => simp [servedUnder, rosterAuthority, given] at served
    | some offered =>
        obtain ⟨⟨path, content⟩, signature⟩ := offered
        cases loaded : loadBaked tools ⟨path, content⟩ signature start.operatorPub escrow none with
        | error reason => simp [servedUnder, rosterAuthority, given, loaded] at served
        | ok found =>
            obtain ⟨_, crossChecked, read⟩ := Except.bind_eq_ok_iff.mp loaded
            cases content with
            | error reason => cases read
            | ok held =>
                simp only [servedUnder, rosterAuthority, given, loaded, Except.toOption,
                  Option.bind_eq_bind, Option.bind_some, Option.some_inj, Prod.mk.injEq] at served
                obtain ⟨rfl, rfl⟩ := served
                exact ⟨⟨path, signature, given, (loadBytesWithPubkey_ok_iff.mp read).1⟩,
                  crossChecked⟩
  · rintro ⟨⟨path, signature, given, genuine⟩, crossChecked⟩
    have loaded : loadBaked tools ⟨path, .ok bytes⟩ signature start.operatorPub escrow none
        = .ok roster := by
      have read := loadBytesWithPubkey_ok_iff.mpr
        ⟨genuine, fun version (inForce : version ∈ (none : Option UInt64)) => nomatch inForce⟩
      simp only [loadBaked, crossChecked, Except.mapError, bind, Except.bind]
      exact read
    simp [servedUnder, rosterAuthority, given, loaded, Except.toOption]

/-- One file holds one roster. -/
theorem Offers.roster_unique {tools : Tools} {escrow : String} {first second : Start}
    {bytes : List UInt8} {left right : Roster} (offersLeft : Offers tools escrow first bytes left)
    (offersRight : Offers tools escrow second bytes right)
    : left = right := by
  obtain ⟨_, _, _, leftGenuine⟩ := offersLeft.genuine
  obtain ⟨_, _, _, rightGenuine⟩ := offersRight.genuine
  obtain ⟨leftText, leftDecoded, leftParsed⟩ := leftGenuine.parsed
  obtain ⟨rightText, rightDecoded, rightParsed⟩ := rightGenuine.parsed
  obtain rfl := Option.some_inj.mp (leftDecoded.symm.trans rightDecoded)
  exact Except.ok.inj (leftParsed.symm.trans rightParsed)

section Run

variable (tools : Tools) (escrow : String)

/-- What a node last served under, after one more start. -/
def afterStart (last : Option (List UInt8 × Roster)) (start : Start)
    : Option (List UInt8 × Roster) :=
  (servedUnder tools escrow start).or last

/-- The start does not offer a genuine roster that is other than, and not newer than, the
one the node last served under.
-/
def NotRolledBack (last : Option (List UInt8 × Roster)) (start : Start) : Prop :=
  ∀ bytes roster, Offers tools escrow start bytes roster
    → ∀ earlier ∈ last, Forward earlier (bytes, roster)

end Run

/-- Along a run the versions go forward exactly if no start rolls them back.
Witness: induction on the starts; a start that loads nothing changes nothing.
-/
theorem along_iff_forward (tools : Tools) (escrow : String) (starts : List Start)
    (last : Option (List UInt8 × Roster))
    : Along (afterStart tools escrow) (NotRolledBack tools escrow) last starts
      ↔ (last.toList ++ starts.filterMap (servedUnder tools escrow)).IsChain Forward := by
  induction starts generalizing last with
  | nil => cases last <;> simp [Along]
  | cons start rest ih =>
      rw [Along, ih, List.filterMap_cons]
      cases served : servedUnder tools escrow start with
      | none =>
          have kept : NotRolledBack tools escrow last start := by
            intro bytes roster offers
            rw [servedUnder_eq_some_iff.mpr offers] at served
            cases served
          rw [afterStart, served, Option.none_or]
          exact and_iff_right kept
      | some next =>
          have offers : Offers tools escrow start next.1 next.2 :=
            servedUnder_eq_some_iff.mp served
          have condition : NotRolledBack tools escrow last start
              ↔ ∀ earlier ∈ last, Forward earlier next := by
            constructor
            · intro kept
              exact kept next.1 next.2 offers
            · intro forward bytes roster others
              have same := servedUnder_eq_some_iff.mpr others
              rw [served] at same
              rw [← Option.some_inj.mp same]
              exact forward
          rw [condition, afterStart, served, Option.some_or]
          cases last with
          | none => simp
          | some earlier => simp

/-- Rosters of starts that go forward never fall below an earlier version. -/
theorem neverBelow_of_forward {tools : Tools} {escrow : String} {starts : List Start}
    (forward : (starts.filterMap (servedUnder tools escrow)).IsChain Forward)
    : (starts.filterMap (servedUnder tools escrow)).Pairwise NotBelow := by
  have stepwise : (starts.filterMap (servedUnder tools escrow)).IsChain NotBelow := by
    refine forward.imp_of_mem_imp ?_
    intro earlier later inEarlier inLater step
    obtain ⟨first, -, firstServed⟩ := List.mem_filterMap.mp inEarlier
    obtain ⟨second, -, secondServed⟩ := List.mem_filterMap.mp inLater
    by_cases same : earlier.1 = later.1
    · have offersFirst : Offers tools escrow first earlier.1 earlier.2 :=
        servedUnder_eq_some_iff.mp firstServed
      have offersSecond : Offers tools escrow second later.1 later.2 :=
        servedUnder_eq_some_iff.mp secondServed
      rw [same] at offersFirst
      rw [NotBelow, offersFirst.roster_unique offersSecond]
      exact UInt64.le_refl _
    · exact UInt64.le_of_lt (step same)
  exact List.isChain_iff_pairwise.mp stepwise

/-- A node is not rolled back over its starts exactly if no start offers it, after a roster
it has served under, a genuine one that is other and not newer.
-/
theorem no_rollback_iff (tools : Tools) (escrow : String) (starts : List Start)
    : NoRollback (starts.filterMap (servedUnder tools escrow))
      ↔ Along (afterStart tools escrow) (NotRolledBack tools escrow) none starts := by
  rw [along_iff_forward]
  constructor
  · intro kept
    exact kept.forward
  · intro forward
    exact ⟨forward, neverBelow_of_forward forward⟩

/-- The text of a roster with one operator. -/
def rosterText (version address : String) : String :=
  "version = " ++ version ++ "\ncluster_escrow = \"rEscrow\"\noperators = [\x7b handle = \"op\", "
    ++ "xrpl_address = \"" ++ address ++ "\", ops = [\"membership-change\"] \x7d]"

def oneOperator (version : UInt64) (address : String) : Roster where
  version
  clusterEscrow := "rEscrow"
  operators := [⟨"op", address, ["membership-change"]⟩]
  opThresholds := []

/-- The libraries on the compiled-in key and two rosters that it has both signed. -/
def sampleTools : Tools where
  base64Encode := fun _ =>
    "AAAAC3NzaC1lZDI1NTE5AAAAILSLvDUzjfQaCesyDRjO+P94ieSbLku/ISlVSm2hGV5l"
  base64Decode := fun _ => none
  toml := fun text =>
    if text = rosterText "5" "rNew" then .ok (oneOperator 5 "rNew")
    else if text = rosterText "4" "rOld" then .ok (oneOperator 4 "rOld")
    else .error "expected a roster"
  notUtf8 := fun _ => ""
  verify := fun _ _ signature =>
    if signature = [1] then .ok () else .error (.signatureInvalid "exit 255")

/-- A start with a signed roster. -/
def startWith (text : String) : Start where
  operatorRoster := some (⟨"cluster_roster.toml", .ok (utf8 text)⟩, [1])
  operatorPub := none

theorem rosterText_ne : rosterText "4" "rOld" ≠ rosterText "5" "rNew" := by
  intro same
  simp only [rosterText, String.append_assoc, String.append_right_inj] at same
  have heads := congrArg (fun text => text.toList.head?) same
  simp only [String.toList_append] at heads
  have distinct : some '4' = some '5' := heads
  cases distinct

/-- The bytes of a text read as that text. -/
theorem fromUTF8?_utf8 (text : String)
    : String.fromUTF8? ⟨(utf8 text).toArray⟩ = some text := by
  have bytes : (⟨(utf8 text).toArray⟩ : ByteArray) = text.toByteArray := by
    rw [utf8]
    rfl
  rw [bytes, String.fromUTF8?, dif_pos text.isValidUTF8]
  rfl

/-- Both rosters are genuine, so a start with either serves under it. -/
theorem servedUnder_sample {text : String} {version : UInt64} {address : String}
    (parsed : sampleTools.toml text = .ok (oneOperator version address))
    : servedUnder sampleTools "rEscrow" (startWith text)
      = some (utf8 text, oneOperator version address) := by
  refine servedUnder_eq_some_iff.mpr ⟨⟨_, _, rfl, ?_⟩, rfl⟩
  exact ⟨rfl, ⟨text, fromUTF8?_utf8 text, parsed⟩, List.cons_ne_nil _ _, rfl⟩

theorem served_samples
    : [startWith (rosterText "5" "rNew"), startWith (rosterText "4" "rOld")].filterMap
        (servedUnder sampleTools "rEscrow")
      = [(utf8 (rosterText "5" "rNew"), oneOperator 5 "rNew"),
        (utf8 (rosterText "4" "rOld"), oneOperator 4 "rOld")] := by
  have newer : sampleTools.toml (rosterText "5" "rNew") = .ok (oneOperator 5 "rNew") := by
    dsimp only [sampleTools]
    rw [if_pos rfl]
  have older : sampleTools.toml (rosterText "4" "rOld") = .ok (oneOperator 4 "rOld") := by
    dsimp only [sampleTools]
    rw [if_neg rosterText_ne, if_pos rfl]
  rw [List.filterMap_cons_some (servedUnder_sample newer),
    List.filterMap_cons_some (servedUnder_sample older), List.filterMap_nil]

/-- A node that has run with version 5 serves under the older version 4 after a restart. -/
theorem restart_rolls_back
    : ¬ NoRollback
        ([startWith (rosterText "5" "rNew"), startWith (rosterText "4" "rOld")].filterMap
          (servedUnder sampleTools "rEscrow")) := by
  rw [served_samples]
  intro kept
  have below : (5 : UInt64) ≤ 4 :=
    (List.pairwise_cons.mp kept.neverBelow).1 _ List.mem_cons_self
  exact absurd below (by decide)

end OperatorRoster

end PerpDex
