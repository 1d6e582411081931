import PerpDex.Lib.Url

/-! The three guards that keep calls of the enclave on the local host.
One parses the URL, one splits its text and one searches the text for a name; the URL parser is
a parameter.
-/

namespace PerpDex

namespace LoopbackUrl

/-- `http_helpers::ensure_loopback_url`; `parse` gives the host of a URL as its parser does. -/
def ensureLoopbackUrl (parse : String → Except String (Option String)) (url : String)
    : Except String Unit := do
  match ← (parse url).mapError ("invalid url: " ++ ·) with
  | none => throw ("url has no host: " ++ url)
  | some host =>
      let inner := host.toList.tail.dropLast
      let bareHost := if host.toList = '[' :: (inner ++ [']']) then inner else host.toList
      if host = "localhost" then pure ()
      else if (Url.parseIpv4 bareHost).any (·.head? = some 127) then pure ()
      else if Url.parseIpv6 bareHost = some Url.loopback6 then pure ()
      else throw ("expected loopback host, got '" ++ host ++ "' in " ++ url)

/-- The text between the first two occurrences of a text, or the whole. -/
def second (needle text : List Char) : List Char :=
  ((Text.afterFirst needle text).map (Text.beforeFirst needle)).getD text

/-- The host as the text is split: a bracket up to its closing, anything else up to a colon. -/
def splitHost : List Char → List Char
  | '[' :: rest => rest.takeWhile (· ≠ ']')
  | authority => authority.takeWhile (· ≠ ':')

/-- `upgrade_corpus::check_loopback`; `debug` is how a text is quoted in an error. -/
def checkLoopback (debug : String → String) (base : String) : Except String Unit :=
  let authority := (second "://".toList base.toList).takeWhile (· ≠ '/')
  let host := String.ofList (splitHost authority)
  if host = "localhost" ∨ host = "127.0.0.1" ∨ host = "::1" then .ok ()
  else
    .error
      ("upgrade-corpus refuses a non-loopback base: " ++ debug host ++ ". This drives a REAL"
        ++ " Path-A migration — export plus import, and on a real run OLD is retired. It is only"
        ++ " ever aimed at two throwaway SIM servers on this host.")

/-- The test of the enclave URL in `handle_frost_round`, with the status of its refusal. -/
def checkEnclaveUrl (enclaveUrl : String) : Except (Nat × String) Unit :=
  if "127.0.0.1".toList <:+: enclaveUrl.toList ∨ "localhost".toList <:+: enclaveUrl.toList then
    .ok ()
  else .error (400, "enclave_url must be loopback")

-----------------------------------------------------------------------------------------
-- Loopback hosts
-----------------------------------------------------------------------------------------

/-- `localhost`, an address in 127.0.0.0/8, or `::1`. -/
def IsLoopback : Url.Host → Prop
  | .domain name => name = "localhost".toList
  | .ipv4 value => value / 256 ^ 3 = 127
  | .ipv6 groups => groups = Url.loopback6

/-- The text shows the host: a name as it is, an address in dots or in brackets. -/
def Shows (shown : String) : Url.Host → Prop
  | .domain name => shown = String.ofList name
  | .ipv4 value =>
      Url.parseIpv4 shown.toList
      = some [value / 256 ^ 3, value / 256 ^ 2 % 256, value / 256 % 256, value % 256]
  | .ipv6 groups =>
      ∃ inner, shown.toList = '[' :: (inner ++ [']']) ∧ Url.parseIpv6 inner = some groups

/-- What is relied on of the URL parser: it gives the host of the URL that a text is, in a form
that shows it.
-/
def ParsesTo (parse : String → Except String (Option String)) (text : String) (url : Url) : Prop :=
  ∃ shown, parse text = .ok (some shown) ∧ Shows shown url.host

/-- A guard that accepts a URL only if its host is loopback, so that the guard that parses it
accepts it too.
-/
def SoundFor (parse : String → Except String (Option String)) (accepted : Prop) (text : String)
    (url : Url) : Prop :=
  accepted → IsLoopback url.host ∧ ensureLoopbackUrl parse text = .ok ()

/-- A name of the local host at the start, up to a colon, a slash or the end; or in brackets,
where the closing one may be missing.
-/
def StartsLocal (chars : List Char) : Prop :=
  (∃ name ∈ ["localhost".toList, "127.0.0.1".toList], ∃ rest,
    chars = name ++ rest ∧ ∀ char, rest.head? = some char → char = ':' ∨ char = '/')
  ∨ ∃ name ∈ ["localhost".toList, "127.0.0.1".toList, "::1".toList], ∃ rest,
      chars = '[' :: (name ++ rest)
      ∧ ∀ char, rest.head? = some char →
          char = ']' ∨ char = '/' ∨ "://".toList.isPrefixOf rest = true

/-- The authority stands right behind the first colon and its two slashes, and has no user. -/
def Direct (text : String) : Prop :=
  ∃ front rest, text.toList = front ++ ("://".toList ++ rest) ∧ Url.IsDirect front rest

/-- A name of the local host stands behind the first separator of a scheme, but the host is read
elsewhere or behind a user.
-/
def Disguised (text : String) : Prop :=
  (∃ front rest, Text.FirstAt "://".toList text.toList front rest ∧ StartsLocal rest)
  ∧ ¬ Direct text

/-- A name of the local host occurs, and is not the host as it is written. -/
def MentionsElsewhere (text : String) : Prop :=
  ∃ name ∈ ["127.0.0.1".toList, "localhost".toList],
    name <:+: text.toList ∧ Url.hostOf text ≠ name

-----------------------------------------------------------------------------------------
-- The parsing guard
-----------------------------------------------------------------------------------------

theorem parseIpv4_bracket (rest : List Char) : Url.parseIpv4 ('[' :: rest) = none := by
  have first : ∀ piece : List Char, Url.parseOctet ('[' :: piece) = none := by
    intro piece
    have noDigit : Text.parseNat ('[' :: piece) = none := if_neg (by simp)
    rw [Url.parseOctet, noDigit]
    exact ite_self none
  have pieces : ∃ piece others, ('[' :: rest).splitOn '.' = ('[' :: piece) :: others := by
    rw [List.splitOn_cons_eq_if_modifyHead]
    cases split : rest.splitOn '.' with
    | nil => exact absurd split (List.splitOn_ne_nil '.' rest)
    | cons piece others => exact ⟨piece, others, rfl⟩
  obtain ⟨piece, others, split⟩ := pieces
  rw [Url.parseIpv4, split, List.mapM_cons, first]
  rfl

/-- The guard that parses the URL accepts every loopback host. -/
theorem ensureLoopbackUrl_eq_ok {parse : String → Except String (Option String)} {text : String}
    {url : Url} (parses : ParsesTo parse text url) (loopback : IsLoopback url.host)
    : ensureLoopbackUrl parse text = .ok () := by
  obtain ⟨shown, parsed, shows⟩ := parses
  rw [ensureLoopbackUrl, parsed]
  cases same : url.host with
  | domain name =>
      rw [same] at shows loopback
      have isName : name = "localhost".toList := loopback
      have isShown : shown = String.ofList name := shows
      rw [isShown, isName]
      rfl
  | ipv4 value =>
      rw [same] at shows loopback
      have address : Url.parseIpv4 shown.toList = some _ := shows
      have block : value / 256 ^ 3 = 127 := loopback
      have bare : ∀ inner, shown.toList ≠ '[' :: (inner ++ [']']) := by
        intro inner bracket
        rw [bracket, parseIpv4_bracket] at address
        cases address
      have accepted : (Url.parseIpv4 shown.toList).any (·.head? = some 127) = true := by
        rw [address, block]
        rfl
      show (if shown = "localhost" then _ else _) = _
      rw [if_neg (bare _), if_pos accepted]
      exact ite_self _
  | ipv6 groups =>
      rw [same] at shows loopback
      obtain ⟨inner, bracket, address⟩ := shows
      have isLoopback : groups = Url.loopback6 := loopback
      have stripped : shown.toList.tail.dropLast = inner := by simp [bracket]
      show (if shown = "localhost" then _ else _) = _
      rw [stripped, if_pos bracket]
      split
      · rfl
      · split
        · rfl
        · exact if_pos (isLoopback ▸ address)

-----------------------------------------------------------------------------------------
-- The splitting guard
-----------------------------------------------------------------------------------------

/-- The hosts that the splitting guard lets through. -/
def localNames : List (List Char) := ["localhost".toList, "127.0.0.1".toList, "::1".toList]

theorem checkLoopback_eq_ok_iff {debug : String → String} {base : String}
    : checkLoopback debug base = .ok ()
      ↔ splitHost ((second "://".toList base.toList).takeWhile (· ≠ '/')) ∈ localNames := by
  have named : ∀ (chars : List Char) (name : String),
      String.ofList chars = name ↔ chars = name.toList :=
    fun chars name => by rw [← String.toList_inj, String.toList_ofList]
  have members : ∀ host : List Char,
      (String.ofList host = "localhost" ∨ String.ofList host = "127.0.0.1"
        ∨ String.ofList host = "::1") ↔ host ∈ localNames := by
    intro host
    rw [named, named, named, localNames, List.mem_cons, List.mem_cons, List.mem_singleton]
  unfold checkLoopback
  simp only [members]
  split
  case isTrue inside => exact iff_of_true rfl inside
  case isFalse outside => exact iff_of_false (fun same => by cases same) outside

/-- The text in front of the first place where a test holds. -/
def upTo (stops : List Char → Bool) : List Char → List Char
  | [] => []
  | char :: rest => if stops (char :: rest) then [] else char :: upTo stops rest

/-- A port or a path. -/
def endsName (chars : List Char) : Bool :=
  match chars with
  | [] => false
  | char :: _ => char = ':' || char = '/'

/-- A closing bracket, a path or another separator of a scheme. -/
def endsBracket (chars : List Char) : Bool :=
  match chars with
  | [] => false
  | char :: _ => char = ']' || char = '/' || "://".toList.isPrefixOf chars

theorem exists_upTo_append (stops : List Char → Bool) (chars : List Char)
    : ∃ rest, chars = upTo stops chars ++ rest ∧ (rest = [] ∨ stops rest = true) := by
  induction chars with
  | nil => exact ⟨[], rfl, .inl rfl⟩
  | cons char chars ih =>
      by_cases here : stops (char :: chars) = true
      · exact ⟨char :: chars, by rw [upTo, if_pos here]; rfl, .inr here⟩
      · obtain ⟨rest, split, ends⟩ := ih
        refine ⟨rest, ?_, ends⟩
        rw [upTo, if_neg here, List.cons_append, ← split]

/-- What the guard compares when there is no bracket, by induction over the text. -/
theorem splitHost_plain {chars : List Char} (head : chars.head? ≠ some '[')
    : splitHost ((Text.beforeFirst "://".toList chars).takeWhile (· ≠ '/'))
      = upTo endsName chars := by
  have cut : ∀ text : List Char,
      ((Text.beforeFirst "://".toList text).takeWhile (· ≠ '/')).takeWhile (· ≠ ':')
        = upTo endsName text := by
    intro text
    induction text with
    | nil => rfl
    | cons char text ih =>
        rw [Text.beforeFirst, upTo]
        by_cases slash : char = '/'
        · subst slash
          simp [endsName, List.isPrefixOf]
        · by_cases colon : char = ':'
          · subst colon
            split
            · simp [endsName]
            · simp [endsName]
          · have noSeparator : ¬ "://".toList.isPrefixOf (char :: text) = true := by
              simp [List.isPrefixOf, Ne.symm colon]
            rw [if_neg noSeparator]
            simpa [endsName, slash, colon] using ih
  rw [← cut chars]
  cases chars with
  | nil => rfl
  | cons char chars =>
      have other : char ≠ '[' := fun same => head (congrArg some same)
      rw [Text.beforeFirst]
      split
      · rfl
      · by_cases slash : char = '/'
        · subst slash
          rfl
        · rw [List.takeWhile_cons_of_pos (by simpa using slash), splitHost]
          intro _ same
          exact other (List.cons.inj same).1

/-- What it compares behind a bracket, by induction over the text. -/
theorem splitHost_bracket (chars : List Char)
    : splitHost ((Text.beforeFirst "://".toList ('[' :: chars)).takeWhile (· ≠ '/'))
      = upTo endsBracket chars := by
  have cut : ∀ text : List Char,
      ((Text.beforeFirst "://".toList text).takeWhile (· ≠ '/')).takeWhile (· ≠ ']')
        = upTo endsBracket text := by
    intro text
    induction text with
    | nil => rfl
    | cons char text ih =>
        rw [Text.beforeFirst, upTo]
        by_cases separator : "://".toList.isPrefixOf (char :: text) = true
        · rw [if_pos separator, if_pos (by simp only [endsBracket, separator, Bool.or_true])]
          rfl
        · rw [if_neg separator]
          by_cases slash : char = '/'
          · subst slash
            simp [endsBracket]
          · by_cases closing : char = ']'
            · subst closing
              simp [endsBracket]
            · have goesOn : ¬ endsBracket (char :: text) = true := by
                simp only [endsBracket, slash, closing, separator, decide_false, Bool.or_false,
                  not_false_eq_true, Bool.false_eq_true]
              rw [if_neg goesOn, List.takeWhile_cons_of_pos (by simpa using slash),
                List.takeWhile_cons_of_pos (by simpa using closing), ih]
  have noSeparator : ¬ "://".toList.isPrefixOf ('[' :: chars) = true := by simp [List.isPrefixOf]
  rw [Text.beforeFirst, if_neg noSeparator, List.takeWhile_cons_of_pos (by decide), splitHost, cut]

/-- The shapes of what the guard lets through. -/
theorem splitHost_mem_iff (chars : List Char)
    : splitHost ((Text.beforeFirst "://".toList chars).takeWhile (· ≠ '/')) ∈ localNames
      ↔ StartsLocal chars := by
  by_cases bracket : chars.head? = some '['
  · obtain ⟨rest, rfl⟩ : ∃ rest, chars = '[' :: rest := by
      cases chars with
      | nil => cases bracket
      | cons first rest => exact ⟨rest, congrArg (· :: rest) (Option.some.inj bracket)⟩
    rw [splitHost_bracket]
    constructor
    · intro accepted
      obtain ⟨after, split, ends⟩ := exists_upTo_append endsBracket rest
      refine .inr ⟨_, accepted, after, congrArg ('[' :: ·) split, fun char first => ?_⟩
      cases after with
      | nil => cases first
      | cons other after =>
          obtain rfl : other = char := Option.some.inj first
          have stops := ends.resolve_left (by simp)
          simpa [endsBracket, or_assoc] using stops
    · rintro (⟨name, isName, after, same, -⟩ | ⟨name, isName, after, same, ends⟩)
      · rcases List.mem_pair.mp isName with rfl | rfl
        · cases (List.cons.inj same).1
        · cases (List.cons.inj same).1
      · rw [(List.cons.inj same).2]
        have stops : after = [] ∨ endsBracket after = true := by
          cases after with
          | nil => exact .inl rfl
          | cons first after =>
              refine .inr ?_
              simpa [endsBracket, or_assoc] using ends first rfl
        have read : upTo endsBracket (name ++ after) = name := by
          have ended : upTo endsBracket after = [] := by
            rcases stops with rfl | stops
            · rfl
            · cases after with
              | nil => rfl
              | cons first after => rw [upTo, if_pos stops]
          simp only [List.mem_cons, List.not_mem_nil, or_false] at isName
          rcases isName with rfl | rfl | rfl
          · simp [upTo, endsBracket, ended, List.isPrefixOf]
          · simp [upTo, endsBracket, ended, List.isPrefixOf]
          · simp [upTo, endsBracket, ended, List.isPrefixOf]
        rw [read]
        exact isName
  · rw [splitHost_plain bracket]
    constructor
    · intro accepted
      obtain ⟨after, split, ends⟩ := exists_upTo_append endsName chars
      have noColon : ':' ∉ upTo endsName chars := by
        clear accepted split ends bracket
        induction chars with
        | nil => exact List.not_mem_nil
        | cons char chars ih =>
            rw [upTo]
            split
            · exact List.not_mem_nil
            · rename_i goesOn
              have other : ':' ≠ char := by
                rintro rfl
                simp [endsName] at goesOn
              simp [other, ih]
      refine .inl ⟨upTo endsName chars, ?_, after, split, fun char first => ?_⟩
      · simp only [localNames, List.mem_cons, List.not_mem_nil, or_false] at accepted ⊢
        rcases accepted with same | same | same
        · exact .inl same
        · exact .inr same
        · rw [same] at noColon
          exact absurd (by decide) noColon
      · cases after with
        | nil => cases first
        | cons other after =>
            obtain rfl : other = char := Option.some.inj first
            have stops := ends.resolve_left (by simp)
            simpa [endsName] using stops
    · rintro (⟨name, isName, after, rfl, ends⟩ | ⟨name, -, after, rfl, -⟩)
      · have ended : upTo endsName after = [] := by
          cases after with
          | nil => rfl
          | cons first after => rw [upTo, if_pos (by simpa [endsName] using ends first rfl)]
        rcases List.mem_pair.mp isName with rfl | rfl
        · have read : upTo endsName ("localhost".toList ++ after) = "localhost".toList := by
            simp [upTo, endsName, ended]
          rw [read]
          exact List.mem_cons_self
        · have read : upTo endsName ("127.0.0.1".toList ++ after) = "127.0.0.1".toList := by
            simp [upTo, endsName, ended]
          rw [read]
          exact List.mem_cons_of_mem _ List.mem_cons_self
      · exact absurd rfl bracket


/-- In front of the first separator, nothing is cut. -/
theorem splitOnce_front {separator : Char} {front : List Char} (absent : separator ∉ front)
    (rest : List Char)
    : Text.splitOnce separator (front ++ rest)
      = (Text.splitOnce separator rest).map (fun (before, after) => (front ++ before, after)) := by
  induction front with
  | nil =>
      rw [List.nil_append]
      cases Text.splitOnce separator rest with
      | none => rfl
      | some parts => rfl
  | cons char front ih =>
      have other : char ≠ separator := fun same => absent (same ▸ List.mem_cons_self)
      have later := ih (fun member => absent (List.mem_cons_of_mem char member))
      rw [List.cons_append, Text.splitOnce, if_neg other, later, Option.map_map]
      rfl

section Parsed

variable {toAscii : List Char → Option (List Char)} {text : String} {url : Url}

/-- A scheme of the web is shorter than a name of the local host, and begins with a letter. -/
theorem scheme_of_parsed (parsed : Url.parse toAscii text = some url)
    : ∃ scheme behind,
        Text.splitOnce ':' (Url.clean text.toList) = some (scheme, behind)
        ∧ scheme.length ≤ 5 ∧ scheme.head? ≠ some '[' := by
  obtain ⟨scheme, behind, usual, _, split, known, _⟩ := Url.parse_eq_some_iff.mp parsed
  have web : scheme.map Char.toLower
      ∈ ["http".toList, "ws".toList, "https".toList, "wss".toList] := by
    rw [Url.defaultPort] at known
    simp only [List.mem_cons, List.not_mem_nil, or_false]
    split at known
    case isTrue plain => exact plain.elim .inl (fun socket => .inr (.inl socket))
    case isFalse =>
      split at known
      case isTrue secure => exact .inr (.inr secure)
      case isFalse => cases known
  have each : ∀ name ∈ ["http".toList, "ws".toList, "https".toList, "wss".toList],
      name.length ≤ 5 ∧ name.head? ≠ some '[' := by
    decide
  obtain ⟨short, letter⟩ := each _ web
  refine ⟨scheme, behind, split, by simpa using short, fun bracket => letter ?_⟩
  rw [List.head?_map, bracket]
  rfl

/-- No separator of a scheme in a URL, no local host. -/
theorem not_mem_of_noSeparator (parsed : Url.parse toAscii text = some url)
    : splitHost (text.toList.takeWhile (· ≠ '/')) ∉ localNames := by
  obtain ⟨scheme, behind, split, short, letter⟩ := scheme_of_parsed parsed
  intro accepted
  by_cases bracket : text.toList.head? = some '['
  · obtain ⟨rest, same⟩ : ∃ rest, text.toList = ['['] ++ rest := by
      cases chars : text.toList with
      | nil =>
          rw [chars] at bracket
          cases bracket
      | cons first rest =>
          rw [chars] at bracket
          exact ⟨rest, congrArg (· :: rest) (Option.some.inj bracket)⟩
    have noControl : ∀ char ∈ ['['], Url.isControlOrSpace char = false := by
      intro char member
      rw [List.mem_singleton.mp member]
      rfl
    rw [same, Url.clean_append (by simp) noControl, splitOnce_front (by decide)] at split
    obtain ⟨parts, _, isScheme⟩ := Option.map_eq_some_iff.mp split
    rw [← (Prod.mk.inj isScheme).1] at letter
    exact letter rfl
  · generalize isName : splitHost (text.toList.takeWhile (· ≠ '/')) = name at accepted
    have front : name <+: text.toList ∧ ':' ∉ name := by
      have head : (text.toList.takeWhile (· ≠ '/')).head? ≠ some '[' := by
        cases chars : text.toList with
        | nil => simp
        | cons first rest =>
            rw [chars] at bracket
            by_cases slash : first = '/'
            · simp [slash]
            · rw [List.takeWhile_cons_of_pos (by simpa using slash)]
              exact bracket
      have plain : splitHost (text.toList.takeWhile (· ≠ '/'))
          = (text.toList.takeWhile (· ≠ '/')).takeWhile (· ≠ ':') := by
        cases chars : text.toList.takeWhile (· ≠ '/') with
        | nil => rfl
        | cons first rest =>
            rw [chars] at head
            rw [splitHost]
            intro _ same
            exact head (congrArg some (List.cons.inj same).1)
      rw [← isName, plain]
      refine ⟨(List.takeWhile_prefix _).trans (List.takeWhile_prefix _), fun inside => ?_⟩
      have other := List.mem_takeWhile_imp inside
      simp at other
    obtain ⟨⟨rest, same⟩, noColon⟩ := front
    have known : name.length = 9 ∧ ∀ char ∈ name, Url.isControlOrSpace char = false := by
      simp only [localNames, List.mem_cons, List.not_mem_nil, or_false] at accepted
      rcases accepted with rfl | rfl | rfl
      · refine ⟨rfl, fun char member => ?_⟩
        fin_cases member <;> rfl
      · refine ⟨rfl, fun char member => ?_⟩
        fin_cases member <;> rfl
      · exact absurd (by decide) noColon
    have nonempty : name ≠ [] := by
      rintro rfl
      cases known.1
    rw [← same, Url.clean_append nonempty known.2, splitOnce_front noColon] at split
    obtain ⟨parts, _, isScheme⟩ := Option.map_eq_some_iff.mp split
    rw [← (Prod.mk.inj isScheme).1, List.length_append, known.1] at short
    omega

/-- The URLs that the splitting guard lets through. -/
theorem checkLoopback_accepts_iff (parsed : Url.parse toAscii text = some url)
    {debug : String → String}
    : checkLoopback debug text = .ok ()
      ↔ ∃ front rest, Text.FirstAt "://".toList text.toList front rest ∧ StartsLocal rest := by
  rw [checkLoopback_eq_ok_iff, second]
  cases found : Text.afterFirst "://".toList text.toList with
  | none =>
      refine iff_of_false (not_mem_of_noSeparator parsed) ?_
      rintro ⟨front, rest, first, -⟩
      rw [(Text.afterFirst_eq_some_iff (by decide)).mpr ⟨front, first⟩] at found
      cases found
  | some rest =>
      obtain ⟨front, first⟩ := (Text.afterFirst_eq_some_iff (by decide)).mp found
      rw [Option.map_some, Option.getD_some, splitHost_mem_iff]
      constructor
      · exact fun starts => ⟨front, rest, first, starts⟩
      · rintro ⟨other, behind, firstToo, starts⟩
        rw [(first.unique firstToo).2]
        exact starts

/-- Where a name of the local host is the host as it is written, it is the host. -/
theorem isLoopback_of_named (lowers : Url.LowersPlain toAscii)
    (parsed : Url.parse toAscii text = some url) {name : List Char}
    (isName : name ∈ ["localhost".toList, "127.0.0.1".toList]) (written : Url.hostOf text = name)
    : IsLoopback url.host := by
  obtain ⟨_, _, _, _, _, _, host, _⟩ := Url.parse_eq_some_iff.mp parsed
  rw [written] at host
  rcases List.mem_pair.mp isName with rfl | rfl
  · have read : Url.parseHost toAscii "localhost".toList = some (.domain "localhost".toList) := by
      show (toAscii "localhost".toList).bind _ = _
      rw [lowers _ (by decide)]
      rfl
    rw [← Option.some.inj (read.symm.trans host)]
    rfl
  · have read : Url.parseHost toAscii "127.0.0.1".toList = some (.ipv4 0x7F000001) := by
      show (toAscii "127.0.0.1".toList).bind _ = _
      rw [lowers _ (by decide)]
      rfl
    rw [← Option.some.inj (read.symm.trans host)]
    exact (by decide : 0x7F000001 / 256 ^ 3 = 127)

/-- What is cleaned and cut of a text that begins with a character of its own. -/
theorem takeWhile_cleanEnd_cons {char : Char} (other : Url.isControlOrSpace char = false)
    (rest : List Char)
    : (Url.cleanEnd (char :: rest)).takeWhile (fun next => !Url.endsAuthority next)
      = if Url.endsAuthority char then []
        else char :: (Url.cleanEnd rest).takeWhile (fun next => !Url.endsAuthority next) := by
  have cleaned := Url.cleanEnd_append_cons other [] rest
  rw [List.nil_append, List.filter_nil, List.nil_append] at cleaned
  rw [cleaned]
  cases ends : Url.endsAuthority char with
  | true => simp [ends]
  | false => simp [ends]

/-- A host that is read right behind the scheme and starts with a name of the local host is
loopback, by the cases of what follows the name.
-/
theorem isLoopback_of_direct (lowers : Url.LowersPlain toAscii)
    (parsed : Url.parse toAscii text = some url) {front rest : List Char}
    (split : text.toList = front ++ ("://".toList ++ rest)) (direct : Url.IsDirect front rest)
    (starts : StartsLocal rest)
    : IsLoopback url.host := by
  rcases starts with ⟨name, isName, more, rfl, ends⟩ | ⟨name, isName, more, rfl, ends⟩
  · have plain : name ≠ [] ∧ (∀ char ∈ name, Url.isControlOrSpace char = false
        ∧ Url.isSlash char = false ∧ Url.endsAuthority char = false)
        ∧ ∀ char ∈ name, char ∉ ":[]".toList := by
      rcases List.mem_pair.mp isName with rfl | rfl
      · refine ⟨by decide, fun char member => ?_, fun char member => ?_⟩
        · fin_cases member <;> decide
        · fin_cases member <;> decide
      · refine ⟨by decide, fun char member => ?_, fun char member => ?_⟩
        · fin_cases member <;> decide
        · fin_cases member <;> decide
    refine isLoopback_of_named lowers parsed isName ?_
    rw [Url.hostOf_direct split direct plain.1 plain.2.1, Url.splitPort_append plain.2.2]
    have nothing : (Url.splitPort false
        ((Url.cleanEnd more).takeWhile (fun next => !Url.endsAuthority next))).1 = [] := by
      cases more with
      | nil => rfl
      | cons first more =>
          rcases ends first rfl with rfl | rfl
          · rw [takeWhile_cleanEnd_cons (by decide), if_neg (by decide)]
            rfl
          · rw [takeWhile_cleanEnd_cons (by decide), if_pos (by decide)]
            rfl
    rw [nothing, List.append_nil]
  · have plain : (∀ char ∈ '[' :: name, Url.isControlOrSpace char = false
        ∧ Url.isSlash char = false ∧ Url.endsAuthority char = false) ∧ ']' ∉ name := by
      simp only [List.mem_cons, List.not_mem_nil, or_false] at isName
      rcases isName with rfl | rfl | rfl
      · refine ⟨fun char member => ?_, by decide⟩
        fin_cases member <;> decide
      · refine ⟨fun char member => ?_, by decide⟩
        fin_cases member <;> decide
      · refine ⟨fun char member => ?_, by decide⟩
        fin_cases member <;> decide
    obtain ⟨_, _, _, _, _, _, host, _⟩ := Url.parse_eq_some_iff.mp parsed
    have written := @Url.hostOf_direct text front ('[' :: name) more split direct (by simp) plain.1
    have shape : ∀ behind,
        (Url.cleanEnd more).takeWhile (fun next => !Url.endsAuthority next) = behind →
        (∃ others, behind = ']' :: others) ∨ behind = [] ∨ behind = [':'] := by
      rintro behind rfl
      cases more with
      | nil => exact .inr (.inl rfl)
      | cons first more =>
          rcases ends first rfl with rfl | rfl | separator
          · rw [takeWhile_cleanEnd_cons (by decide), if_neg (by decide)]
            exact .inl ⟨_, rfl⟩
          · rw [takeWhile_cleanEnd_cons (by decide), if_pos (by decide)]
            exact .inr (.inl rfl)
          · obtain ⟨others, same⟩ := Text.isPrefixOf_iff.mp separator
            obtain ⟨rfl, rfl⟩ : first = ':' ∧ more = '/' :: '/' :: others := List.cons.inj same
            rw [takeWhile_cleanEnd_cons (by decide), if_neg (by decide),
              takeWhile_cleanEnd_cons (by decide), if_pos (by decide)]
            exact .inr (.inr rfl)
    generalize isBehind : (Url.cleanEnd more).takeWhile (fun next => !Url.endsAuthority next)
      = behind at written
    have bracket : (Url.splitPort false ('[' :: name ++ behind)).1
        = '[' :: (name ++ (Url.splitPort true behind).1) := by
      rw [← Url.splitPort_inside plain.2]
      simp [Url.splitPort]
    rw [written, bracket, Url.parseHost] at host
    split at host
    case isFalse => cases host
    case isTrue closed =>
      obtain ⟨groups, address, isHost⟩ := Option.map_eq_some_iff.mp host
      have inner := List.dropLast_append_getLast? ']' closed
      have noBracket := Url.closing_notMem_of_parseIpv6 address
      rcases shape behind isBehind with ⟨others, rfl⟩ | rfl | rfl
      · have same : (name ++ (Url.splitPort true (']' :: others)).1).dropLast = name := by
          have cut := congrArg (List.takeWhile (· ≠ ']')) inner
          rw [Text.takeWhile_ne_split noBracket [], Url.splitPort] at cut
          exact cut.trans (Text.takeWhile_ne_split plain.2 _)
        rw [same] at address
        rw [← isHost]
        simp only [List.mem_cons, List.not_mem_nil, or_false] at isName
        rcases isName with rfl | rfl | rfl
        · cases address
        · cases address
        · exact (Option.some.inj address).symm
      · have last : ']' ∈ name ++ (Url.splitPort true []).1 := List.mem_of_getLast? closed
        rw [Url.splitPort, List.append_nil] at last
        exact absurd last plain.2
      · have colon : (name ++ (Url.splitPort true [':']).1).getLast? = some ':' :=
          List.getLast?_concat
        rw [colon] at closed
        cases closed

theorem checkLoopback_sound_iff {parse : String → Except String (Option String)}
    (lowers : Url.LowersPlain toAscii) (parsed : Url.parse toAscii text = some url)
    (parses : ParsesTo parse text url) (debug : String → String)
    : SoundFor parse (checkLoopback debug text = .ok ()) text url
      ↔ (Disguised text → IsLoopback url.host) := by
  rw [SoundFor, checkLoopback_accepts_iff parsed]
  constructor
  · exact fun sound disguised => (sound disguised.1).1
  · intro honest accepted
    have loopback : IsLoopback url.host := by
      by_cases direct : Direct text
      · obtain ⟨front, rest, split, isDirect⟩ := direct
        obtain ⟨other, behind, first, starts⟩ := accepted
        have found := (Text.afterFirst_eq_some_iff (by decide)).mpr ⟨other, first⟩
        have here : Text.afterFirst "://".toList text.toList = some rest := by
          rw [split]
          exact Text.afterFirst_append isDirect.1 rest
        obtain rfl := Option.some.inj (here.symm.trans found)
        exact isLoopback_of_direct lowers parsed split isDirect starts
      · exact honest ⟨accepted, direct⟩
    exact ⟨loopback, ensureLoopbackUrl_eq_ok parses loopback⟩

-----------------------------------------------------------------------------------------
-- The searching guard
-----------------------------------------------------------------------------------------

theorem checkEnclaveUrl_eq_ok_iff {enclaveUrl : String}
    : checkEnclaveUrl enclaveUrl = .ok ()
      ↔ "127.0.0.1".toList <:+: enclaveUrl.toList ∨ "localhost".toList <:+: enclaveUrl.toList := by
  unfold checkEnclaveUrl
  split
  case isTrue found => exact iff_of_true rfl found
  case isFalse absent => exact iff_of_false (fun same => by cases same) absent

theorem checkEnclaveUrl_sound_iff {parse : String → Except String (Option String)}
    (lowers : Url.LowersPlain toAscii) (parsed : Url.parse toAscii text = some url)
    (parses : ParsesTo parse text url)
    : SoundFor parse (checkEnclaveUrl text = .ok ()) text url
      ↔ (MentionsElsewhere text → IsLoopback url.host) := by
  have accepts : checkEnclaveUrl text = .ok ()
      ↔ ∃ name ∈ ["127.0.0.1".toList, "localhost".toList], name <:+: text.toList := by
    rw [checkEnclaveUrl_eq_ok_iff]
    simp
  rw [SoundFor, accepts]
  constructor
  · rintro sound ⟨name, isName, occurs, -⟩
    exact (sound ⟨name, isName, occurs⟩).1
  · rintro honest ⟨name, isName, occurs⟩
    have loopback : IsLoopback url.host := by
      by_cases written : Url.hostOf text = name
      · exact isLoopback_of_named lowers parsed
          (List.mem_pair.mpr (List.mem_pair.mp isName).symm) written
      · exact honest ⟨name, isName, occurs, written⟩
    exact ⟨loopback, ensureLoopbackUrl_eq_ok parses loopback⟩

end Parsed

/-- For every text that is a URL of the web: the splitting guard is sound exactly if the host is
loopback whenever a name of the local host stands behind the first separator of a scheme while
the host is read elsewhere or behind a user, and the searching guard exactly if it is whenever a
name of the local host occurs other than as the host.
-/
theorem loopback_guards_sound_iff (toAscii : List Char → Option (List Char))
    (parse : String → Except String (Option String)) (debug : String → String) (text : String)
    (url : Url) (lowers : Url.LowersPlain toAscii) (parsed : Url.parse toAscii text = some url)
    (parses : ParsesTo parse text url)
    : (SoundFor parse (checkLoopback debug text = .ok ()) text url
        ↔ (Disguised text → IsLoopback url.host))
      ∧ (SoundFor parse (checkEnclaveUrl text = .ok ()) text url
        ↔ (MentionsElsewhere text → IsLoopback url.host)) :=
  ⟨checkLoopback_sound_iff lowers parsed parses debug,
    checkEnclaveUrl_sound_iff lowers parsed parses⟩

/-- Witness: `loopback_guards_sound_iff` for the address of a local enclave. -/
theorem loopback_guards_sound_iff_local
    : (SoundFor (fun _ => .ok (some "localhost"))
            (checkLoopback id "https://localhost:9088/v1" = .ok ()) "https://localhost:9088/v1"
            ⟨.domain "localhost".toList, 9088⟩
          ↔ (Disguised "https://localhost:9088/v1" → IsLoopback (.domain "localhost".toList)))
        ∧ (SoundFor (fun _ => .ok (some "localhost"))
            (checkEnclaveUrl "https://localhost:9088/v1" = .ok ()) "https://localhost:9088/v1"
            ⟨.domain "localhost".toList, 9088⟩
          ↔ (MentionsElsewhere "https://localhost:9088/v1"
            → IsLoopback (.domain "localhost".toList))) :=
  loopback_guards_sound_iff Url.lowerPlain (fun _ => .ok (some "localhost")) id
    "https://localhost:9088/v1" ⟨.domain "localhost".toList, 9088⟩ Url.lowersPlain_lowerPlain
    (by decide +kernel) ⟨"localhost", rfl, rfl⟩

/-- A foreign host behind a user name of the local host passes the splitting guard, also where
the user name is in brackets, and so does one in front of another separator of a scheme; one in
front of an address of the local host passes the searching guard.
-/
theorem foreign_hosts_pass
    : (∀ text ∈ ["http://localhost:80@evil.com/", "http://[::1]@evil.com/",
          "http:evil.com://localhost/"],
        Url.parse Url.lowerPlain text = some ⟨.domain "evil.com".toList, 80⟩
        ∧ ¬ SoundFor (fun _ => .ok (some "evil.com")) (checkLoopback id text = .ok ()) text
          ⟨.domain "evil.com".toList, 80⟩)
      ∧ Url.parse Url.lowerPlain "http://evil.com/127.0.0.1"
        = some ⟨.domain "evil.com".toList, 80⟩
      ∧ ¬ SoundFor (fun _ => .ok (some "evil.com"))
        (checkEnclaveUrl "http://evil.com/127.0.0.1" = .ok ()) "http://evil.com/127.0.0.1"
        ⟨.domain "evil.com".toList, 80⟩ := by
  have foreign : ¬ IsLoopback (.domain "evil.com".toList) := by
    show "evil.com".toList ≠ "localhost".toList
    decide
  have disguised : ∀ text ∈ ["http://localhost:80@evil.com/", "http://[::1]@evil.com/",
      "http:evil.com://localhost/"],
      Url.parse Url.lowerPlain text = some ⟨.domain "evil.com".toList, 80⟩
        ∧ checkLoopback id text = .ok () := by
    decide +kernel
  refine ⟨fun text member => ⟨(disguised text member).1, fun sound => ?_⟩, by decide +kernel,
    fun sound => ?_⟩
  · exact foreign (sound (disguised text member).2).1
  · exact foreign (sound (by rfl)).1

end LoopbackUrl

end PerpDex
