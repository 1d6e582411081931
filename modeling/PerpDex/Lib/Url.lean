import PerpDex.Lib.Hex
import PerpDex.Lib.Occurrence

/-! The URLs of the web, and the internet addresses a host may be.
Any text is read the way URL parsers read it: with what they strip and overlook, any user
information, and hosts in each of their spellings. How a name is decoded and mapped to ASCII is
a parameter.
-/

namespace PerpDex

namespace Url

-----------------------------------------------------------------------------------------
-- Addresses
-----------------------------------------------------------------------------------------

/-- A number up to 255 in decimal digits, without zeros in front. -/
def parseOctet (chars : List Char) : Option Nat :=
  if chars ≠ [] ∧ chars.length ≤ 3 ∧ (chars.length = 1 ∨ chars.head? ≠ some '0') then
    (Text.parseNat chars).filter (· ≤ 255)
  else none

/-- Four octets with dots between them. -/
def parseIpv4 (chars : List Char) : Option (List Nat) :=
  ((chars.splitOn '.').mapM parseOctet).filter (·.length = 4)

/-- One to four hexadecimal digits. -/
def parseGroup (chars : List Char) : Option Nat :=
  if chars ≠ [] ∧ chars.length ≤ 4 then
    chars.foldlM (fun value char => (Hex.digitValue char).map (16 * value + ·)) 0
  else none

/-- Groups with colons between them; an IPv4 address may stand for the last two. -/
def parseGroups (dotted : Bool) : List (List Char) → Option (List Nat)
  | [] => some []
  | [last] =>
      (parseGroup last).map ([·]) <|>
        if dotted then
          (parseIpv4 last).bind
            (fun octets =>
              match octets with
              | [a, b, c, d] => some [256 * a + b, 256 * c + d]
              | _ => none)
        else none
  | first :: rest => do
      let group ← parseGroup first
      let groups ← parseGroups dotted rest
      some (group :: groups)

def parseRun (dotted : Bool) (chars : List Char) : Option (List Nat) :=
  if chars = [] then some [] else parseGroups dotted (chars.splitOn ':')

def isAddressChar (char : Char) : Bool :=
  (Hex.digitValue char).isSome || char = ':' || char = '.'

/-- Eight groups, or fewer with two colons for the zeros that are left out. -/
def parseIpv6 (chars : List Char) : Option (List Nat) :=
  if !chars.all isAddressChar then none
  else
    match Text.afterFirst "::".toList chars with
    | none => (parseRun true chars).filter (·.length = 8)
    | some back => do
        let front ← parseRun false (Text.beforeFirst "::".toList chars)
        let rest ← parseRun true back
        if front.length + rest.length ≤ 7 then
          some (front ++ List.replicate (8 - front.length - rest.length) 0 ++ rest)
        else none

/-- `::1`. -/
def loopback6 : List Nat := [0, 0, 0, 0, 0, 0, 0, 1]

example : parseIpv4 "127.0.0.1".toList = some [127, 0, 0, 1] := by decide

example : parseIpv6 "0:0::0001".toList = some loopback6 := by decide

example : parseIpv6 "::ffff:10.0.0.5".toList = some [0, 0, 0, 0, 0, 65535, 2560, 5] := by decide

/-- The digits of a base, none of which stand for zero. -/
def parseDigits (base : Nat) (chars : List Char) : Option Nat :=
  chars.foldlM
    (fun value char =>
      ((Hex.digitValue char).filter (· < base)).map (fun digit => base * value + digit))
    0

/-- A part of a host that is a number: hexadecimal behind `0x`, octal behind another zero, and
decimal.
-/
def parseNumber : List Char → Option Nat
  | [] => none
  | '0' :: 'x' :: digits | '0' :: 'X' :: digits => parseDigits 16 digits
  | '0' :: first :: rest => parseDigits 8 (first :: rest)
  | digits => parseDigits 10 digits

/-- The labels of a host, without the empty one behind a dot at its end. -/
def labels (host : List Char) : List (List Char) :=
  let pieces := host.splitOn '.'
  if pieces.length ≠ 1 ∧ pieces.getLast? = some [] then pieces.dropLast else pieces

/-- Up to four numbers; the last one stands for all the bytes that are left. -/
def parseNumericHost (host : List Char) : Option Nat :=
  if 4 < (labels host).length then none
  else do
    let numbers ← (labels host).mapM parseNumber
    let last ← numbers.getLast?
    let front := numbers.dropLast
    if front.all (· ≤ 255) ∧ last < 256 ^ (4 - front.length) then
      some (front.foldl (fun value number => 256 * value + number) 0 * 256 ^ (4 - front.length)
        + last)
    else none

/-- The last label is a number, so that the host is an address or no host at all. -/
def endsInNumber (host : List Char) : Bool :=
  match (labels host).getLast? with
  | none => false
  | some last => (last ≠ [] && last.all Char.isDigit) || (parseNumber last).isSome

example : parseNumericHost "167772165".toList = some 0x0A000005 := by decide

example : parseNumericHost "0x7f.1".toList = some 0x7F000001 := by decide

-----------------------------------------------------------------------------------------
-- The text a parser reads
-----------------------------------------------------------------------------------------

/-- A control character or the space, which are stripped at both ends. -/
def isControlOrSpace (char : Char) : Bool := char.toNat ≤ 0x20

/-- A tab or an end of a line, which are overlooked. -/
def isTabOrNewline (char : Char) : Bool :=
  char.toNat = 9 || char.toNat = 10 || char.toNat = 13

def kept (char : Char) : Bool := !isTabOrNewline char

/-- What is left of a text without what is stripped at its end and what is overlooked. -/
def cleanEnd (chars : List Char) : List Char := (chars.rdropWhile isControlOrSpace).filter kept

def clean (chars : List Char) : List Char := cleanEnd (chars.dropWhile isControlOrSpace)

/-- A slash of either direction; any number of them may stand behind the scheme. -/
def isSlash (char : Char) : Bool := char = '/' || char = '\\'

/-- What ends the authority. -/
def endsAuthority (char : Char) : Bool := char ∈ "/\\?#".toList

/-- What stands behind the scheme and its slashes, up to the path, the query or the fragment. -/
def authorityOf (text : String) : List Char :=
  match Text.splitOnce ':' (clean text.toList) with
  | none => []
  | some (_, behind) => (behind.dropWhile isSlash).takeWhile (fun char => !endsAuthority char)

/-- Behind the last at sign. -/
def hostPortOf (authority : List Char) : List Char :=
  (authority.reverse.takeWhile (· ≠ '@')).reverse

/-- Cut at the first colon that is not inside of brackets. -/
def splitPort : Bool → List Char → List Char × Option (List Char)
  | _, [] => ([], none)
  | inside, char :: rest =>
      if char = ':' ∧ inside = false then ([], some rest)
      else
        let inside := if char = '[' then true else if char = ']' then false else inside
        (char :: (splitPort inside rest).1, (splitPort inside rest).2)

/-- The host as it is written: the authority behind the last at sign, without the port. -/
def hostOf (text : String) : List Char := (splitPort false (hostPortOf (authorityOf text))).1

/-- The port as it is written. -/
def portOf (text : String) : Option (List Char) :=
  (splitPort false (hostPortOf (authorityOf text))).2

-----------------------------------------------------------------------------------------
-- Parsing
-----------------------------------------------------------------------------------------

/-- A host apart from its spelling. -/
inductive Host where
  | domain (name : List Char)
  | ipv4 (value : Nat)
  | ipv6 (groups : List Nat)
deriving DecidableEq

/-- No name has one of these characters. -/
def isForbidden (char : Char) : Bool :=
  char.toNat ≤ 0x20 || char.toNat = 0x7F || char ∈ "#/:<>?@[\\]^|%".toList

/-- An IPv6 address in brackets, or a name, which is an IPv4 address if it ends in a number. -/
def parseHost (toAscii : List Char → Option (List Char)) : List Char → Option Host
  | [] => none
  | '[' :: rest =>
      if rest.getLast? = some ']' then (parseIpv6 rest.dropLast).map .ipv6 else none
  | host => do
      let name ← toAscii host
      if name = [] ∨ name.any isForbidden then none
      else if endsInNumber name then (parseNumericHost name).map .ipv4
      else some (.domain name)

/-- The digits behind the colon; none at all count as no port. -/
def parsePort : Option (List Char) → Option (Option Nat)
  | none | some [] => some none
  | some digits => ((Text.parseNat digits).filter (· < 65536)).map some

/-- The ports of the schemes of the web and of web sockets. -/
def defaultPort (scheme : List Char) : Option Nat :=
  if scheme = "http".toList ∨ scheme = "ws".toList then some 80
  else if scheme = "https".toList ∨ scheme = "wss".toList then some 443
  else none

end Url

/-- What a URL of the web leads to: its host and its effective port. -/
structure Url where
  host : Url.Host
  port : Nat
deriving DecidableEq

namespace Url

/-- The URL of the web that a text is, if it is one. `toAscii` decodes a name and maps it to
ASCII.
-/
def parse (toAscii : List Char → Option (List Char)) (text : String) : Option Url := do
  let (scheme, _) ← Text.splitOnce ':' (clean text.toList)
  let usual ← defaultPort (scheme.map Char.toLower)
  let host ← parseHost toAscii (hostOf text)
  let port ← parsePort (portOf text)
  some ⟨host, port.getD usual⟩

/-- Some letters, digits, hyphens and dots, with no label that is encoded already. -/
def IsPlain (name : List Char) : Bool :=
  name ≠ [] && name.all (fun char => char.isAlphanum || char = '-' || char = '.')
  && (name.splitOn '.').all (fun label => (label.take 4).map Char.toLower ≠ "xn--".toList)

/-- A mapping to ASCII that only lowers the letters of a plain name. -/
def LowersPlain (toAscii : List Char → Option (List Char)) : Prop :=
  ∀ name, IsPlain name = true → toAscii name = some (name.map Char.toLower)

/-- A mapping that knows plain names only. -/
def lowerPlain (name : List Char) : Option (List Char) :=
  if IsPlain name then some (name.map Char.toLower) else none

theorem lowersPlain_lowerPlain : LowersPlain lowerPlain := fun _ plain => if_pos plain

example : parse lowerPlain "http://u:p@XRPL.example:8080/v1?a#b"
    = some ⟨.domain "xrpl.example".toList, 8080⟩ := by
  decide +kernel

example : parse lowerPlain " http:\\[::1]\t:80"
    = some ⟨.ipv6 loopback6, 80⟩ := by
  decide +kernel

/-- There is no bracket inside of an IPv6 address. -/
theorem closing_notMem_of_parseIpv6 {inner : List Char} {groups : List Nat}
    (address : parseIpv6 inner = some groups)
    : ']' ∉ inner := by
  intro member
  have foreign : inner.all isAddressChar = false :=
    List.all_eq_false.mpr ⟨']', member, by decide⟩
  rw [parseIpv6, foreign] at address
  cases address

theorem parse_eq_some_iff {toAscii : List Char → Option (List Char)} {text : String} {url : Url}
    : parse toAscii text = some url
      ↔ ∃ scheme behind usual port,
          Text.splitOnce ':' (clean text.toList) = some (scheme, behind)
          ∧ defaultPort (scheme.map Char.toLower) = some usual
          ∧ parseHost toAscii (hostOf text) = some url.host
          ∧ parsePort (portOf text) = some port
          ∧ port.getD usual = url.port := by
  simp only [parse, Option.bind_eq_bind, Option.bind_eq_some_iff, Option.some.injEq]
  constructor
  · rintro ⟨⟨scheme, behind⟩, split, usual, isUsual, host, isHost, port, isPort, rfl⟩
    exact ⟨scheme, behind, usual, port, split, isUsual, isHost, isPort, rfl⟩
  · rintro ⟨scheme, behind, usual, port, split, isUsual, isHost, isPort, effective⟩
    exact ⟨(scheme, behind), split, usual, isUsual, url.host, isHost, port, isPort,
      by rw [effective]⟩

-----------------------------------------------------------------------------------------
-- What is stripped and overlooked
-----------------------------------------------------------------------------------------

theorem kept_of_notControl {char : Char} (other : isControlOrSpace char = false)
    : kept char = true := by
  simp only [isControlOrSpace, decide_eq_false_iff_not] at other
  simp only [kept, isTabOrNewline, Bool.not_eq_true', Bool.or_eq_false_iff,
    decide_eq_false_iff_not]
  omega

/-- Nothing is stripped beyond a character that is no control character. -/
theorem dropWhile_append_cons {test : Char → Bool} {char : Char} (stops : test char = false)
    (front rest : List Char)
    : (front ++ char :: rest).dropWhile test = front.dropWhile test ++ char :: rest := by
  induction front with
  | nil => simp [stops]
  | cons first front ih =>
      by_cases skipped : test first = true
      · rw [List.cons_append, List.dropWhile_cons_of_pos skipped, ih,
          List.dropWhile_cons_of_pos skipped]
      · rw [List.cons_append, List.dropWhile_cons_of_neg skipped,
          List.dropWhile_cons_of_neg skipped, List.cons_append]

theorem cleanEnd_append_cons {char : Char} (other : isControlOrSpace char = false)
    (front rest : List Char)
    : cleanEnd (front ++ char :: rest) = front.filter kept ++ char :: cleanEnd rest := by
  have stripped : (front ++ char :: rest).rdropWhile isControlOrSpace
      = front ++ char :: rest.rdropWhile isControlOrSpace := by
    have turned : (front ++ char :: rest).reverse = rest.reverse ++ char :: front.reverse := by
      simp
    rw [List.rdropWhile, List.rdropWhile, turned, dropWhile_append_cons other]
    simp
  rw [cleanEnd, stripped, List.filter_append, List.filter_cons_of_pos (kept_of_notControl other),
    cleanEnd]

/-- A text of other characters is left as it is. -/
theorem cleanEnd_append {text : List Char} (other : ∀ char ∈ text, isControlOrSpace char = false)
    (rest : List Char)
    : cleanEnd (text ++ rest) = text ++ cleanEnd rest := by
  induction text with
  | nil => rfl
  | cons char text ih =>
      have later := ih (fun after member => other after (List.mem_cons_of_mem char member))
      have here := cleanEnd_append_cons (other char List.mem_cons_self) [] (text ++ rest)
      rw [List.nil_append, List.filter_nil, List.nil_append, later] at here
      exact here

/-- What stands in front of a colon and behind it is cleaned apart. -/
theorem clean_append_colon (front rest : List Char)
    : clean (front ++ ':' :: rest)
      = (front.dropWhile isControlOrSpace).filter kept ++ ':' :: cleanEnd rest := by
  have colon : isControlOrSpace ':' = false := by decide
  rw [clean, dropWhile_append_cons colon, cleanEnd_append_cons colon]

/-- Nothing is stripped in front of another character. -/
theorem clean_append {text : List Char} (nonempty : text ≠ [])
    (other : ∀ char ∈ text, isControlOrSpace char = false) (rest : List Char)
    : clean (text ++ rest) = text ++ cleanEnd rest := by
  cases text with
  | nil => exact absurd rfl nonempty
  | cons char text =>
      have first : ¬ isControlOrSpace char = true := by simp [other char List.mem_cons_self]
      rw [clean, List.cons_append, List.dropWhile_cons_of_neg first, ← List.cons_append,
        cleanEnd_append other]

/-- Cleaning moves nothing into the front part of a text. -/
theorem mem_takeWhile_of_cleanEnd {test : Char → Bool} {chars : List Char} {char : Char}
    (passes : ∀ other, kept other = false → test other = true)
    (member : char ∈ (cleanEnd chars).takeWhile test)
    : char ∈ chars.takeWhile test := by
  have unfiltered : ∀ text : List Char, char ∈ (text.filter kept).takeWhile test →
      char ∈ text.takeWhile test := by
    intro text inside
    induction text with
    | nil => cases inside
    | cons first text ih =>
        by_cases isKept : kept first = true
        · rw [List.filter_cons_of_pos isKept] at inside
          by_cases goesOn : test first = true
          · rw [List.takeWhile_cons_of_pos goesOn] at inside ⊢
            exact (List.mem_cons.mp inside).elim
              (fun same => List.mem_cons.mpr (.inl same))
              (fun later => List.mem_cons_of_mem first (ih later))
          · rw [List.takeWhile_cons_of_neg goesOn] at inside
            cases inside
        · rw [List.filter_cons_of_neg isKept] at inside
          rw [List.takeWhile_cons_of_pos (passes first (by simpa using isKept))]
          exact List.mem_cons_of_mem first (ih inside)
  obtain ⟨stripped, split⟩ := List.rdropWhile_prefix isControlOrSpace (l := chars)
  have longer : ∀ text : List Char, char ∈ text.takeWhile test →
      char ∈ (text ++ stripped).takeWhile test := by
    intro text inside
    induction text with
    | nil => cases inside
    | cons first text ih =>
        by_cases goesOn : test first = true
        · rw [List.cons_append]
          rw [List.takeWhile_cons_of_pos goesOn] at inside ⊢
          exact (List.mem_cons.mp inside).elim
            (fun same => List.mem_cons.mpr (.inl same))
            (fun later => List.mem_cons_of_mem first (ih later))
        · rw [List.takeWhile_cons_of_neg goesOn] at inside
          cases inside
  have inFront := longer _ (unfiltered _ member)
  rw [split] at inFront
  exact inFront

-----------------------------------------------------------------------------------------
-- A host right behind the scheme
-----------------------------------------------------------------------------------------

theorem hostPortOf_of_notMem {authority : List Char} (absent : '@' ∉ authority)
    : hostPortOf authority = authority := by
  have behind : '@' ∉ authority.reverse := mt List.mem_reverse.mp absent
  have whole := Text.takeWhile_ne_append_of_notMem behind []
  rw [List.append_nil, List.takeWhile_nil, List.append_nil] at whole
  rw [hostPortOf, whole, List.reverse_reverse]

/-- A text begins its authority right behind the slashes of its scheme and has no user. -/
def IsDirect (front rest : List Char) : Prop :=
  ':' ∉ front ∧ '@' ∉ rest.takeWhile (fun char => !endsAuthority char)

/-- The host of such a text. -/
theorem hostOf_direct {text : String} {front start rest : List Char}
    (split : text.toList = front ++ ("://".toList ++ (start ++ rest)))
    (direct : IsDirect front (start ++ rest)) (nonempty : start ≠ [])
    (plain : ∀ char ∈ start, isControlOrSpace char = false ∧ isSlash char = false
      ∧ endsAuthority char = false)
    : hostOf text
      = (splitPort false (start
          ++ (cleanEnd rest).takeWhile (fun char => !endsAuthority char))).1 := by
  obtain ⟨noColon, noUser⟩ := direct
  have inAuthority : ∀ char ∈ start, (!endsAuthority char) = true := fun char member =>
    congrArg not (plain char member).2.2
  have cleaned : clean text.toList
      = (front.dropWhile isControlOrSpace).filter kept
        ++ ':' :: ("//".toList ++ (start ++ cleanEnd rest)) := by
    have slashes : "://".toList ++ (start ++ rest) = ':' :: ("//".toList ++ (start ++ rest)) := rfl
    have clean : ∀ char ∈ "//".toList, isControlOrSpace char = false := by
      intro char member
      fin_cases member <;> rfl
    rw [split, slashes, clean_append_colon, cleanEnd_append clean,
      cleanEnd_append (fun char member => (plain char member).1)]
  have scheme : ':' ∉ (front.dropWhile isControlOrSpace).filter kept := by
    intro member
    exact noColon ((List.dropWhile_sublist _).subset (List.mem_of_mem_filter member))
  have authority : authorityOf text
      = start ++ (cleanEnd rest).takeWhile (fun char => !endsAuthority char) := by
    rw [authorityOf, cleaned, Text.splitOnce_append scheme]
    show (("//".toList ++ (start ++ cleanEnd rest)).dropWhile isSlash).takeWhile _ = _
    obtain ⟨first, others, rfl⟩ := List.exists_cons_of_ne_nil nonempty
    have firstSlash : ¬ isSlash first = true := by simp [(plain first List.mem_cons_self).2.1]
    have slashes : ∀ char ∈ "//".toList, isSlash char = true := by
      intro char member
      fin_cases member <;> rfl
    rw [List.dropWhile_append_of_pos slashes, List.cons_append,
      List.dropWhile_cons_of_neg firstSlash, ← List.cons_append]
    exact List.takeWhile_append_of_pos inAuthority
  have userless : '@' ∉ authorityOf text := by
    rw [authority]
    intro member
    have same : start ++ cleanEnd rest = cleanEnd (start ++ rest) :=
      (cleanEnd_append (fun char member => (plain char member).1) rest).symm
    have whole : start ++ (cleanEnd rest).takeWhile (fun char => !endsAuthority char)
        = (start ++ cleanEnd rest).takeWhile (fun char => !endsAuthority char) :=
      (List.takeWhile_append_of_pos inAuthority).symm
    rw [whole, same] at member
    refine noUser (mem_takeWhile_of_cleanEnd (fun other overlooked => ?_) member)
    simp only [kept, isTabOrNewline, Bool.not_eq_false', Bool.or_eq_true, decide_eq_true_eq]
      at overlooked
    rw [Bool.not_eq_true', endsAuthority, decide_eq_false_iff_not]
    intro ending
    have above : 13 < other.toNat := by fin_cases ending <;> decide
    omega
  rw [hostOf, hostPortOf_of_notMem userless, authority]

/-- Up to a colon, outside of brackets. -/
theorem splitPort_append {name rest : List Char} (plain : ∀ char ∈ name, char ∉ ":[]".toList)
    : (splitPort false (name ++ rest)).1 = name ++ (splitPort false rest).1 := by
  induction name with
  | nil => rfl
  | cons char name ih =>
      have here := plain char List.mem_cons_self
      have later := ih (fun other member => plain other (List.mem_cons_of_mem char member))
      have colon : char ≠ ':' := fun same => here (same ▸ by decide)
      have opening : char ≠ '[' := fun same => here (same ▸ by decide)
      have closing : char ≠ ']' := fun same => here (same ▸ by decide)
      simp [splitPort, colon, opening, closing, later]

/-- Inside of brackets, nothing is cut off. -/
theorem splitPort_inside {name rest : List Char} (closing : ']' ∉ name)
    : (splitPort true (name ++ rest)).1 = name ++ (splitPort true rest).1 := by
  induction name with
  | nil => rfl
  | cons char name ih =>
      have other : char ≠ ']' := fun same => closing (same ▸ List.mem_cons_self)
      have later := ih (fun member => closing (List.mem_cons_of_mem char member))
      by_cases opening : char = '['
      · simp [splitPort, opening, later]
      · simp [splitPort, other, opening, later]

end Url

end PerpDex
