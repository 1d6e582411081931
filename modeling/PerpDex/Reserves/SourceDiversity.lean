import PerpDex.Auth.Signature
import PerpDex.Lib.Distinct
import PerpDex.Lib.Except
import PerpDex.Lib.Url

/-! The diversity of sources in the ceremony of the reserves baseline.
Every operator observes the ledger through an endpoint of its own; two endpoints are told apart
by a hash of what is left of their text without the scheme and the path.
-/

namespace PerpDex

namespace Reserves

/-- One node of the ceremony's roster. -/
structure BaselineNode where
  compressedPubkeyHex : String
  xrplEndpoint : String

/-- Without the first of the schemes that stands in front. -/
def stripScheme (lower : List Char) : List Char :=
  if "https://".toList.isPrefixOf lower then lower.drop 8
  else if "http://".toList.isPrefixOf lower then lower.drop 7
  else if "wss://".toList.isPrefixOf lower then lower.drop 6
  else if "ws://".toList.isPrefixOf lower then lower.drop 5
  else lower

/-- The text of an endpoint that is hashed; no slash is left at its end. -/
def hostText (url : String) : List Char :=
  (stripScheme ((Text.trim url.toList).map Char.toLower)).takeWhile (· ≠ '/')

section Fingerprints

variable (sha256 : List UInt8 → List UInt8)

/-- The first eight bytes of the hash of a text. -/
def truncated (text : List Char) : List UInt8 := (sha256 (utf8 (String.ofList text))).take 8

def endpointFingerprint (url : String) : String := Hex.encode (truncated sha256 (hostText url))

def enforceDistinctEndpoints (endpoints : List String) : Except String (List String) :=
  let fps := endpoints.map (endpointFingerprint sha256)
  let distinct := fps.dedup.length
  if distinct ≠ endpoints.length then
    .error
      ("C-Q1.1: " ++ toString endpoints.length ++ " configured baseline endpoints resolve to only "
        ++ toString distinct ++ " distinct XRPL source(s) — refuse (each node MUST query a"
        ++ " distinct source, else it is N-signers-one-source)")
  else .ok fps

def assertDistinctSources (fingerprints : List String) (quorum : Nat) : Except String Nat :=
  let distinct := fingerprints.dedup.length
  if distinct < quorum then
    .error
      ("diversity: " ++ toString fingerprints.length ++ " accepted signature(s) span only "
        ++ toString distinct ++ " distinct XRPL source(s), need ≥" ++ toString quorum
        ++ " — refuse (N-signers-one-source)")
  else .ok distinct

/-- The first node of the roster with a public key, in letters of either case. -/
def owner (roster : List BaselineNode) (pk : List UInt8) : Option BaselineNode :=
  roster.find? (fun node => Hex.eqIgnoreAsciiCase node.compressedPubkeyHex (Hex.encode pk))

/-- The fingerprint that an accepted key stands for. -/
def attributed (roster : List BaselineNode) (pk : List UInt8) : Except String String :=
  match owner roster pk with
  | some node => .ok (endpointFingerprint sha256 node.xrplEndpoint)
  | none =>
      .error
        ("accepted baseline signature from pubkey " ++ Hex.encode pk
          ++ " not in the ceremony roster — refuse (cannot attribute it to a distinct XRPL"
          ++ " source)")

/-- The distinct fingerprints come in the order in which they were first seen. -/
def assertBundleDiversity (acceptedPubkeys : List (List UInt8)) (roster : List BaselineNode)
    (quorum : Nat) : Except String (List String) := do
  let fps ← acceptedPubkeys.mapM (attributed sha256 roster)
  let _ ← assertDistinctSources fps quorum
  pure fps.eraseDups

end Fingerprints

-----------------------------------------------------------------------------------------
-- What an endpoint denotes and what it spells
-----------------------------------------------------------------------------------------

section Sources

variable (toAscii : List Char → Option (List Char))

/-- The host and the effective port of an endpoint; a text that is no URL of the web has none. -/
def sourceOf (endpoint : String) : Option Url := Url.parse toAscii endpoint

example
    : sourceOf Url.lowerPlain "https://167772165" = sourceOf Url.lowerPlain "wss://10.0.0.5/a" :=
  by decide +kernel

/-- An endpoint has this text between the slashes of its scheme and the next slash, in lower
case; without one of the schemes, it begins with it.
-/
def Spells (endpoint : String) (body : List Char) : Prop :=
  '/' ∉ body
  ∧ ∃ rest,
      (∀ char, rest.head? = some char → char = '/')
      ∧ ((∃ scheme ∈ ["https".toList, "http".toList, "wss".toList, "ws".toList],
            (Text.trim endpoint.toList).map Char.toLower
            = scheme ++ ("://".toList ++ (body ++ rest)))
          ∨ (∀ scheme ∈ ["https".toList, "http".toList, "wss".toList, "ws".toList],
              ¬ scheme ++ "://".toList <+: (Text.trim endpoint.toList).map Char.toLower)
            ∧ (Text.trim endpoint.toList).map Char.toLower = body ++ rest)

/-- Two endpoints have the same text there: user information, host and port are written alike,
and so is a query or a fragment right behind them.
-/
def SpelledAlike (left right : String) : Prop := ∃ body, Spells left body ∧ Spells right body

theorem stripScheme_append {scheme : List Char} (rest : List Char)
    (web : scheme ∈ ["https".toList, "http".toList, "wss".toList, "ws".toList])
    : stripScheme (scheme ++ ("://".toList ++ rest)) = rest := by
  fin_cases web <;> rfl

theorem stripScheme_cases (lower : List Char)
    : (∃ scheme ∈ ["https".toList, "http".toList, "wss".toList, "ws".toList],
        lower = scheme ++ ("://".toList ++ stripScheme lower))
      ∨ (∀ scheme ∈ ["https".toList, "http".toList, "wss".toList, "ws".toList],
          ¬ scheme ++ "://".toList <+: lower)
        ∧ stripScheme lower = lower := by
  have found : ∀ {scheme rest : List Char},
      scheme ∈ ["https".toList, "http".toList, "wss".toList, "ws".toList] →
      lower = scheme ++ ("://".toList ++ rest) →
      ∃ scheme ∈ ["https".toList, "http".toList, "wss".toList, "ws".toList],
        lower = scheme ++ ("://".toList ++ stripScheme lower) := by
    rintro scheme rest web rfl
    exact ⟨scheme, web, by rw [stripScheme_append rest web]⟩
  by_cases web : ∃ scheme ∈ ["https".toList, "http".toList, "wss".toList, "ws".toList],
      scheme ++ "://".toList <+: lower
  · obtain ⟨scheme, isWeb, rest, split⟩ := web
    exact .inl (found isWeb (by rw [← split, List.append_assoc]))
  · have none : ∀ scheme ∈ ["https".toList, "http".toList, "wss".toList, "ws".toList],
        ¬ scheme ++ "://".toList <+: lower :=
      fun scheme isWeb begins => web ⟨scheme, isWeb, begins⟩
    have differs : ∀ scheme ∈ ["https".toList, "http".toList, "wss".toList, "ws".toList],
        ¬ (scheme ++ "://".toList).isPrefixOf lower = true :=
      fun scheme isWeb begins => none scheme isWeb (List.isPrefixOf_iff_prefix.mp begins)
    refine .inr ⟨none, ?_⟩
    have https : ¬ "https://".toList.isPrefixOf lower = true := differs "https".toList (by decide)
    have http : ¬ "http://".toList.isPrefixOf lower = true := differs "http".toList (by decide)
    have wss : ¬ "wss://".toList.isPrefixOf lower = true := differs "wss".toList (by decide)
    have ws : ¬ "ws://".toList.isPrefixOf lower = true := differs "ws".toList (by decide)
    rw [stripScheme, if_neg https, if_neg http, if_neg wss, if_neg ws]

/-- The hashed text of an endpoint is what it spells. -/
theorem spells_iff {endpoint : String} {body : List Char}
    : Spells endpoint body ↔ hostText endpoint = body := by
  have cut : ∀ rest : List Char, '/' ∉ body → (∀ char, rest.head? = some char → char = '/') →
      (body ++ rest).takeWhile (· ≠ '/') = body := by
    intro rest noSlash ends
    refine Text.takeWhile_append (fun char member => ?_) (fun char first => ?_)
    · exact decide_eq_true (fun same => noSlash (same ▸ member))
    · rw [ends char first]
      rfl
  constructor
  · rintro ⟨noSlash, rest, ends, ⟨scheme, web, split⟩ | ⟨none, split⟩⟩
    · rw [hostText, split, stripScheme_append _ web, cut rest noSlash ends]
    · rcases stripScheme_cases ((Text.trim endpoint.toList).map Char.toLower) with
        ⟨scheme, web, begins⟩ | ⟨-, same⟩
      · exact absurd ⟨_, (List.append_assoc _ _ _).trans begins.symm⟩ (none scheme web)
      · rw [hostText, same, split, cut rest noSlash ends]
  · rintro rfl
    refine ⟨fun member => ?_, (stripScheme ((Text.trim endpoint.toList).map Char.toLower)).dropWhile
      (· ≠ '/'), fun char first => ?_, ?_⟩
    · have other := List.mem_takeWhile_imp member
      simp at other
    · have stops := List.head?_dropWhile_not (· ≠ '/')
        (stripScheme ((Text.trim endpoint.toList).map Char.toLower))
      rw [first] at stops
      simpa using stops
    · rw [hostText, List.takeWhile_append_dropWhile]
      exact (stripScheme_cases _).imp id (fun plain => ⟨plain.1, plain.2.symm⟩)

theorem spelledAlike_iff {left right : String}
    : SpelledAlike left right ↔ hostText left = hostText right := by
  constructor
  · rintro ⟨body, isLeft, isRight⟩
    rw [spells_iff.mp isLeft, spells_iff.mp isRight]
  · exact fun same => ⟨hostText right, spells_iff.mpr same, spells_iff.mpr rfl⟩

end Sources

-----------------------------------------------------------------------------------------
-- What the checks accept
-----------------------------------------------------------------------------------------

section Checks

variable {sha256 : List UInt8 → List UInt8}

/-- As many fingerprints as texts that are hashed. -/
theorem length_dedup_fingerprints {endpoints : List String}
    (injective : Set.InjOn (truncated sha256) {text | text ∈ endpoints.map hostText})
    : (endpoints.map (endpointFingerprint sha256)).dedup.length
      = (endpoints.map hostText).dedup.length := by
  have apart : Set.InjOn (fun text => Hex.encode (truncated sha256 text))
      {text | text ∈ endpoints.map hostText} := by
    intro left leftInside right rightInside same
    have decoded := congrArg Hex.decode same
    rw [Hex.decode_encode, Hex.decode_encode] at decoded
    exact injective leftInside rightInside (Option.some.inj decoded)
  have steps : endpoints.map (endpointFingerprint sha256)
      = (endpoints.map hostText).map (fun text => Hex.encode (truncated sha256 text)) := by
    rw [List.map_map]
    rfl
  rw [steps, Distinct.length_dedup_map apart]

theorem enforceDistinctEndpoints_isOk_iff {endpoints : List String}
    (injective : Set.InjOn (truncated sha256) {text | text ∈ endpoints.map hostText})
    : (∃ fps, enforceDistinctEndpoints sha256 endpoints = .ok fps)
      ↔ (endpoints.map hostText).Nodup := by
  have count := length_dedup_fingerprints injective
  rw [← Distinct.length_dedup_eq_iff, List.length_map, ← count]
  unfold enforceDistinctEndpoints
  dsimp only
  split
  case isTrue fewer => exact iff_of_false (fun given => by cases given.choose_spec) fewer
  case isFalse distinct => exact iff_of_true ⟨_, rfl⟩ (not_not.mp distinct)

/-- The nodes that the accepted keys belong to. -/
def owners (roster : List BaselineNode) (acceptedPubkeys : List (List UInt8))
    : List BaselineNode :=
  acceptedPubkeys.filterMap (owner roster)

theorem mapM_attributed {roster : List BaselineNode} {acceptedPubkeys : List (List UInt8)}
    (owned : ∀ pk ∈ acceptedPubkeys, owner roster pk ≠ none)
    : acceptedPubkeys.mapM (attributed sha256 roster)
      = .ok ((owners roster acceptedPubkeys).map
          (fun node => endpointFingerprint sha256 node.xrplEndpoint)) := by
  induction acceptedPubkeys with
  | nil => rfl
  | cons pk others ih =>
      have later := ih (fun other member => owned other (List.mem_cons_of_mem pk member))
      obtain ⟨node, found⟩ := Option.ne_none_iff_exists'.mp (owned pk List.mem_cons_self)
      have here : attributed sha256 roster pk
          = .ok (endpointFingerprint sha256 node.xrplEndpoint) := by
        rw [attributed, found]
      have first : owners roster (pk :: others) = node :: owners roster others :=
        List.filterMap_cons_some found
      rw [List.mapM_cons, here, later, first]
      rfl

theorem exists_attributed_iff {roster : List BaselineNode} {pk : List UInt8}
    : (∃ fp, attributed sha256 roster pk = .ok fp) ↔ owner roster pk ≠ none := by
  unfold attributed
  cases owner roster pk with
  | none => exact iff_of_false (fun given => by cases given.choose_spec) (fun owned => owned rfl)
  | some node => exact iff_of_true ⟨_, rfl⟩ (Option.some_ne_none node)

theorem assertDistinctSources_isOk_iff {fingerprints : List String} {quorum : Nat}
    : (∃ count, assertDistinctSources fingerprints quorum = .ok count)
      ↔ quorum ≤ fingerprints.dedup.length := by
  unfold assertDistinctSources
  dsimp only
  split
  case isTrue few => exact iff_of_false (fun given => by cases given.choose_spec) (by omega)
  case isFalse enough => exact iff_of_true ⟨_, rfl⟩ (by omega)

theorem assertBundleDiversity_isOk_iff {roster : List BaselineNode}
    {acceptedPubkeys : List (List UInt8)} {quorum : Nat}
    : (∃ fps, assertBundleDiversity sha256 acceptedPubkeys roster quorum = .ok fps)
      ↔ (∀ pk ∈ acceptedPubkeys, owner roster pk ≠ none)
        ∧ quorum ≤ ((owners roster acceptedPubkeys).map
            (fun node => endpointFingerprint sha256 node.xrplEndpoint)).dedup.length := by
  constructor
  · intro given
    obtain ⟨result, passed⟩ := given
    obtain ⟨fps, traversed, passed⟩ := Except.bind_eq_ok_iff.mp passed
    obtain ⟨count, distinct, _⟩ := Except.bind_eq_ok_iff.mp passed
    have owned : ∀ pk ∈ acceptedPubkeys, owner roster pk ≠ none :=
      fun pk member =>
        exists_attributed_iff.mp (Except.exists_mapM_eq_ok_iff.mp ⟨fps, traversed⟩ pk member)
    rw [mapM_attributed owned] at traversed
    rw [Except.ok.inj traversed]
    exact ⟨owned, assertDistinctSources_isOk_iff.mp ⟨count, distinct⟩⟩
  · intro given
    obtain ⟨owned, enough⟩ := given
    obtain ⟨count, distinct⟩ := assertDistinctSources_isOk_iff.mpr enough
    exact ⟨_, Except.bind_eq_ok_iff.mpr ⟨_, mapM_attributed owned,
      Except.bind_eq_ok_iff.mpr ⟨count, distinct, rfl⟩⟩⟩

end Checks

-----------------------------------------------------------------------------------------
-- Distinct sources
-----------------------------------------------------------------------------------------

section Diversity

variable (toAscii : List Char → Option (List Char))

/-- All endpoints denote a source, and no two of them the same. -/
def DistinctSources (endpoints : List String) : Prop :=
  (∀ endpoint ∈ endpoints, sourceOf toAscii endpoint ≠ none)
  ∧ (endpoints.map (sourceOf toAscii)).Nodup

/-- Accepted keys belong to a quorum of roster members with distinct sources. -/
def QuorumOfSources (acceptedPubkeys : List (List UInt8)) (roster : List BaselineNode)
    (quorum : Nat) : Prop :=
  ∃ members : List BaselineNode, quorum ≤ members.length
    ∧ (∀ node ∈ members, ∃ pk ∈ acceptedPubkeys, owner roster pk = some node)
    ∧ DistinctSources toAscii (members.map (·.xrplEndpoint))

/-- Two endpoints that denote one source are spelled alike. -/
def NotRespelled (left right : String) : Prop :=
  sourceOf toAscii left = sourceOf toAscii right → SpelledAlike left right

/-- The endpoints of the owners of the accepted keys. -/
def ownedEndpoints (roster : List BaselineNode) (acceptedPubkeys : List (List UInt8))
    : List String :=
  (owners roster acceptedPubkeys).map (·.xrplEndpoint)

/-- How many different texts they spell. -/
def spellings (roster : List BaselineNode) (acceptedPubkeys : List (List UInt8)) : Nat :=
  ((ownedEndpoints roster acceptedPubkeys).map hostText).dedup.length

/-- How many different sources they denote. -/
def sources (roster : List BaselineNode) (acceptedPubkeys : List (List UInt8)) : Nat :=
  ((ownedEndpoints roster acceptedPubkeys).filterMap (sourceOf toAscii)).dedup.length

variable {toAscii}

/-- Endpoints with different hashed texts denote different sources exactly if all of them denote
one and no two of them spell one source differently.
-/
theorem distinctSources_iff {endpoints : List String} (distinct : (endpoints.map hostText).Nodup)
    : DistinctSources toAscii endpoints
      ↔ (∀ endpoint ∈ endpoints, sourceOf toAscii endpoint ≠ none)
        ∧ endpoints.Pairwise (NotRespelled toAscii) := by
  rw [List.Nodup, List.pairwise_map] at distinct
  rw [DistinctSources, List.Nodup, List.pairwise_map]
  refine and_congr_right (fun _ => ⟨fun apart => ?_, fun alike => ?_⟩)
  · exact apart.imp (fun different same => absurd same different)
  · refine (alike.and distinct).imp ?_
    rintro left right ⟨notRespelled, differentTexts⟩ same
    exact differentTexts (spelledAlike_iff.mp (notRespelled same))

theorem length_dedup_owners {sha256 : List UInt8 → List UInt8} {roster : List BaselineNode}
    {acceptedPubkeys : List (List UInt8)}
    (injective : Set.InjOn (truncated sha256)
      {text | text ∈ (roster.map (·.xrplEndpoint)).map hostText})
    : ((owners roster acceptedPubkeys).map
          (fun node => endpointFingerprint sha256 node.xrplEndpoint)).dedup.length
      = spellings roster acceptedPubkeys := by
  have owned : Set.InjOn (truncated sha256)
      {text | text ∈ (ownedEndpoints roster acceptedPubkeys).map hostText} := by
    refine injective.mono (fun text member => ?_)
    obtain ⟨endpoint, listed, rfl⟩ := List.mem_map.mp member
    obtain ⟨node, isOwner, rfl⟩ := List.mem_map.mp listed
    obtain ⟨pk, _, found⟩ := List.mem_filterMap.mp isOwner
    exact List.mem_map_of_mem (List.mem_map_of_mem (List.mem_of_find?_eq_some found))
  have count := length_dedup_fingerprints owned
  rw [ownedEndpoints, List.map_map] at count
  exact count

/-- There is a quorum of owners with distinct sources exactly if there are as many sources. -/
theorem quorumOfSources_iff {roster : List BaselineNode} {acceptedPubkeys : List (List UInt8)}
    {quorum : Nat}
    : QuorumOfSources toAscii acceptedPubkeys roster quorum
      ↔ quorum ≤ sources toAscii roster acceptedPubkeys := by
  have denoting : ((owners roster acceptedPubkeys).filter
        (fun node => (sourceOf toAscii node.xrplEndpoint).isSome)).map
          (fun node => sourceOf toAscii node.xrplEndpoint)
      = ((ownedEndpoints roster acceptedPubkeys).filterMap (sourceOf toAscii)).map some := by
    rw [ownedEndpoints]
    induction owners roster acceptedPubkeys with
    | nil => rfl
    | cons node rest ih =>
        cases denoted : sourceOf toAscii node.xrplEndpoint with
        | none => simp [denoted, ih]
        | some source => simp [denoted, ih]
  have count : sources toAscii roster acceptedPubkeys
      = (((owners roster acceptedPubkeys).filter
          (fun node => (sourceOf toAscii node.xrplEndpoint).isSome)).map
            (fun node => sourceOf toAscii node.xrplEndpoint)).dedup.length := by
    rw [denoting, Distinct.length_dedup_map ((Option.some_injective _).injOn), sources]
  rw [count, ← Distinct.exists_distinct_iff, QuorumOfSources]
  refine exists_congr (fun members => and_congr_right (fun _ => ?_))
  simp only [DistinctSources, List.mem_map, forall_exists_index, and_imp,
    forall_apply_eq_imp_iff₂, List.map_map, List.mem_filter, Option.isSome_iff_ne_none, owners,
    List.mem_filterMap]
  constructor
  · rintro ⟨owned, denote, distinct⟩
    exact ⟨fun node member => ⟨owned node member, denote node member⟩, distinct⟩
  · rintro ⟨each, distinct⟩
    exact ⟨fun node member => (each node member).1, fun node member => (each node member).2,
      distinct⟩

theorem map_some_filterMap_sourceOf {endpoints : List String}
    (denote : ∀ endpoint ∈ endpoints, sourceOf toAscii endpoint ≠ none)
    : (endpoints.filterMap (sourceOf toAscii)).map some = endpoints.map (sourceOf toAscii) := by
  induction endpoints with
  | nil => rfl
  | cons endpoint rest ih =>
      obtain ⟨source, isSource⟩ :=
        Option.ne_none_iff_exists'.mp (denote endpoint List.mem_cons_self)
      have later := ih (fun other member => denote other (List.mem_cons_of_mem endpoint member))
      rw [List.filterMap_cons_some isSource, List.map_cons, List.map_cons, isSource, later]

/-- Where all owners denote a source, the sources are counted with the endpoints. -/
theorem sources_eq {roster : List BaselineNode} {acceptedPubkeys : List (List UInt8)}
    (denote : ∀ endpoint ∈ ownedEndpoints roster acceptedPubkeys,
      sourceOf toAscii endpoint ≠ none)
    : sources toAscii roster acceptedPubkeys
      = ((ownedEndpoints roster acceptedPubkeys).map (sourceOf toAscii)).dedup.length := by
  rw [← map_some_filterMap_sourceOf denote,
    Distinct.length_dedup_map ((Option.some_injective _).injOn), sources]

/-- Owners that keep what is asked of a list spell no more texts than they denote sources.
Witness: how a source is spelled does not depend on the owner.
-/
theorem spellings_le_sources {roster : List BaselineNode} {acceptedPubkeys : List (List UInt8)}
    (denote : ∀ endpoint ∈ ownedEndpoints roster acceptedPubkeys,
      sourceOf toAscii endpoint ≠ none)
    (alike : (ownedEndpoints roster acceptedPubkeys).Pairwise (NotRespelled toAscii))
    : spellings roster acceptedPubkeys ≤ sources toAscii roster acceptedPubkeys := by
  rw [sources_eq denote]
  have alikeTexts : (ownedEndpoints roster acceptedPubkeys).Pairwise (fun left right =>
      sourceOf toAscii left = sourceOf toAscii right → hostText left = hostText right) :=
    alike.imp (fun notRespelled same => spelledAlike_iff.mp (notRespelled same))
  have flipped : (ownedEndpoints roster acceptedPubkeys).Pairwise (fun right left =>
      sourceOf toAscii left = sourceOf toAscii right → hostText left = hostText right) :=
    alikeTexts.imp (fun given same => (given same.symm).symm)
  have determined := alikeTexts.forall_of_forall_of_flip (fun _ _ _ => rfl) flipped
  exact Distinct.length_dedup_le
    (fun left leftMember right rightMember => determined leftMember rightMember)

end Diversity

/-- Where the hash keeps the texts apart: the endpoints that are accepted denote distinct sources
exactly if two are spelled alike, or all denote a source and no two spell one differently. An
accepted bundle has a quorum of sources exactly if a key has no owner or the quorum is not
above the number of sources that the owners denote and within the number of texts they spell;
it has one for every quorum exactly if a key has no owner or there are no more texts than
sources, as where all owners denote a source and no two spell one differently.
-/
theorem source_diversity_iff (sha256 : List UInt8 → List UInt8)
    (toAscii : List Char → Option (List Char)) (endpoints : List String)
    (acceptedPubkeys : List (List UInt8)) (roster : List BaselineNode)
    (injective : Set.InjOn (truncated sha256)
      {text | text ∈ (endpoints ++ roster.map (·.xrplEndpoint)).map hostText})
    : (((∃ fps, enforceDistinctEndpoints sha256 endpoints = .ok fps)
            → DistinctSources toAscii endpoints)
        ↔ ¬ endpoints.Pairwise (fun left right => ¬ SpelledAlike left right)
          ∨ (∀ endpoint ∈ endpoints, sourceOf toAscii endpoint ≠ none)
            ∧ endpoints.Pairwise (NotRespelled toAscii))
      ∧ (∀ quorum,
          ((∃ fps, assertBundleDiversity sha256 acceptedPubkeys roster quorum = .ok fps)
              → QuorumOfSources toAscii acceptedPubkeys roster quorum)
          ↔ (∃ pk ∈ acceptedPubkeys, owner roster pk = none)
            ∨ ¬ (sources toAscii roster acceptedPubkeys < quorum
              ∧ quorum ≤ spellings roster acceptedPubkeys))
      ∧ ((∀ quorum,
            (∃ fps, assertBundleDiversity sha256 acceptedPubkeys roster quorum = .ok fps)
              → QuorumOfSources toAscii acceptedPubkeys roster quorum)
        ↔ (∃ pk ∈ acceptedPubkeys, owner roster pk = none)
          ∨ spellings roster acceptedPubkeys ≤ sources toAscii roster acceptedPubkeys)
      ∧ ((∀ endpoint ∈ ownedEndpoints roster acceptedPubkeys,
            sourceOf toAscii endpoint ≠ none) →
          (ownedEndpoints roster acceptedPubkeys).Pairwise (NotRespelled toAscii) →
            spellings roster acceptedPubkeys ≤ sources toAscii roster acceptedPubkeys) := by
  have apart : Set.InjOn (truncated sha256)
      {text | text ∈ (roster.map (·.xrplEndpoint)).map hostText} := by
    refine injective.mono (fun text member => ?_)
    rw [Set.mem_ofPred_eq, List.map_append]
    exact List.mem_append_right _ member
  have bundle : ∀ quorum,
      ((∃ fps, assertBundleDiversity sha256 acceptedPubkeys roster quorum = .ok fps)
          → QuorumOfSources toAscii acceptedPubkeys roster quorum)
      ↔ (∃ pk ∈ acceptedPubkeys, owner roster pk = none)
        ∨ ¬ (sources toAscii roster acceptedPubkeys < quorum
          ∧ quorum ≤ spellings roster acceptedPubkeys) := by
    intro quorum
    rw [quorumOfSources_iff, assertBundleDiversity_isOk_iff, length_dedup_owners apart]
    constructor
    · intro reaches
      by_cases owned : ∀ pk ∈ acceptedPubkeys, owner roster pk ≠ none
      · exact .inr (fun between => absurd (reaches ⟨owned, between.2⟩) (by omega))
      · push Not at owned
        exact .inl owned
    · rintro (⟨pk, accepted, unowned⟩ | outside) ⟨owned, spelled⟩
      · exact absurd unowned (owned pk accepted)
      · exact Nat.le_of_not_lt (fun few => outside ⟨few, spelled⟩)
  refine ⟨?_, bundle, ?_, spellings_le_sources⟩
  · have listed : Set.InjOn (truncated sha256) {text | text ∈ endpoints.map hostText} := by
      refine injective.mono (fun text member => ?_)
      rw [Set.mem_ofPred_eq, List.map_append]
      exact List.mem_append_left _ member
    have distinct : endpoints.Pairwise (fun left right => ¬ SpelledAlike left right)
        ↔ (endpoints.map hostText).Nodup := by
      rw [List.Nodup, List.pairwise_map]
      exact List.Pairwise.iff (fun _ _ => not_congr spelledAlike_iff)
    rw [enforceDistinctEndpoints_isOk_iff listed, distinct, ← imp_iff_not_or]
    exact forall_congr' (fun different => distinctSources_iff different)
  · constructor
    · intro each
      by_cases unowned : ∃ pk ∈ acceptedPubkeys, owner roster pk = none
      · exact .inl unowned
      · have outside := ((bundle (spellings roster acceptedPubkeys)).mp
          (each (spellings roster acceptedPubkeys))).resolve_left unowned
        exact .inr (Nat.le_of_not_lt (fun few => outside ⟨few, le_rfl⟩))
    · rintro given quorum
      refine (bundle quorum).mpr (given.imp id (fun enough between => ?_))
      omega

def sampleEndpoints : List String := ["https://xrpl.example", "https://xrpl.example:443"]

def sampleRoster : List BaselineNode :=
  [{ compressedPubkeyHex := "02", xrplEndpoint := "https://xrpl.example" },
    { compressedPubkeyHex := "03", xrplEndpoint := "https://xrpl.example:443" }]

/-- A stand-in for the hash that keeps the sample texts apart. -/
theorem injOn_sample
    : Set.InjOn (truncated List.reverse)
        {text | text ∈ (sampleEndpoints ++ sampleRoster.map (·.xrplEndpoint)).map hostText} := by
  have texts : (sampleEndpoints ++ sampleRoster.map (·.xrplEndpoint)).map hostText
      = ["xrpl.example".toList, "xrpl.example:443".toList, "xrpl.example".toList,
        "xrpl.example:443".toList] := by
    decide +kernel
  have apart : truncated List.reverse "xrpl.example".toList
      ≠ truncated List.reverse "xrpl.example:443".toList := by
    decide +kernel
  have two : ∀ text ∈ ["xrpl.example".toList, "xrpl.example:443".toList, "xrpl.example".toList,
      "xrpl.example:443".toList],
      text = "xrpl.example".toList ∨ text = "xrpl.example:443".toList := by
    decide
  rw [texts]
  intro left leftInside right rightInside same
  rcases two left leftInside with rfl | rfl
  · rcases two right rightInside with rfl | rfl
    · rfl
    · exact absurd same apart
  · rcases two right rightInside with rfl | rfl
    · exact absurd same.symm apart
    · rfl

/-- Witness: `source_diversity_iff` for two spellings of one endpoint and a quorum of one. -/
theorem source_diversity_iff_sample
    : ((∃ fps, assertBundleDiversity List.reverse [[2], [3]] sampleRoster 1 = .ok fps)
          → QuorumOfSources Url.lowerPlain [[2], [3]] sampleRoster 1)
        ↔ (∃ pk ∈ [[2], [3]], owner sampleRoster pk = none)
          ∨ ¬ (sources Url.lowerPlain sampleRoster [[2], [3]] < 1
            ∧ 1 ≤ spellings sampleRoster [[2], [3]]) :=
  (source_diversity_iff List.reverse Url.lowerPlain sampleEndpoints [[2], [3]] sampleRoster
    injOn_sample).2.1 1

/-- An endpoint with its default port written out counts as a second source. -/
theorem defaultPort_counts_twice
    : Set.InjOn (truncated List.reverse)
          {text | text ∈ (sampleEndpoints ++ sampleRoster.map (·.xrplEndpoint)).map hostText}
      ∧ (∃ fps, enforceDistinctEndpoints List.reverse sampleEndpoints = .ok fps)
      ∧ ¬ DistinctSources Url.lowerPlain sampleEndpoints
      ∧ (∃ fps, assertBundleDiversity List.reverse [[2], [3]] sampleRoster 2 = .ok fps)
      ∧ ¬ QuorumOfSources Url.lowerPlain [[2], [3]] sampleRoster 2 := by
  have same : sourceOf Url.lowerPlain "https://xrpl.example"
      = sourceOf Url.lowerPlain "https://xrpl.example:443" := by
    decide +kernel
  refine ⟨injOn_sample, ⟨_, rfl⟩, fun distinct => ?_, ⟨_, rfl⟩, fun reached => ?_⟩
  · have apart := distinct.2
    simp [sampleEndpoints, same] at apart
  · have one : sources Url.lowerPlain sampleRoster [[2], [3]] = 1 := by decide +kernel
    have enough := quorumOfSources_iff.mp reached
    omega

end Reserves

end PerpDex
