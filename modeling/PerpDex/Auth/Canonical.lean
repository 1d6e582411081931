import PerpDex.Auth.Middleware
import PerpDex.Lib.Separated

/-! What a signature covers.
The admin canonical joins its fields with a bar, and only the body may contain one. The public
canonicals are the bare target, a line for the login and the bare body. None of them begins
like an admin canonical as long as the target is a path and the body is JSON.
-/

namespace PerpDex

/-- The bytes that are hashed for a request. -/
def hashedBytes (domain : CanonicalDomain) (method uriPath : String) (body : List UInt8)
    (timestamp : String) : List UInt8 :=
  canonicalBody domain method uriPath body ++ utf8 timestamp

def isGet (method : String) : Prop := method.toList.map Char.toUpper = "GET".toList

instance (method : String) : Decidable (isGet method) := inferInstanceAs (Decidable (_ = _))

/-- What an admin signature is about, with a bar in the body only. -/
structure AdminInput where
  method : String
  uriPath : String
  body : List UInt8
  timestamp : String
  methodBarless : '|' ∉ method.toList
  pathBarless : '|' ∉ uriPath.toList
  accepted : (parseU64 timestamp).isSome = true

def AdminInput.hashed (input : AdminInput) : List UInt8 :=
  hashedBytes .admin input.method input.uriPath input.body input.timestamp

/-- Requests of the public surface that are served on a signature: a `GET` of a path, or a
body that is empty or JSON.
-/
def ServedForm (readTree : List UInt8 → Option JsonTree) (method uriPath : String)
    (body : List UInt8) : Prop :=
  if isGet method then uriPath.toList.head? = some '/'
  else body = [] ∨ (readValue readTree body).isSome = true

/-- The bytes a JSON text may begin with: white space, brackets, quotes, a minus sign, digits
and the first letters of `true`, `false` and `null`.
-/
def jsonFirstBytes : List UInt8 := utf8 " \t\n\r\x7b[\"-0123456789tfn"

def ReadsJson (readTree : List UInt8 → Option JsonTree) : Prop :=
  ∀ body, (readTree body).isSome = true → ∃ byte ∈ body.head?, byte ∈ jsonFirstBytes

-----------------------------------------------------------------------------------------
-- Injectivity
-----------------------------------------------------------------------------------------

theorem hashed_eq (input : AdminInput)
    : input.hashed
      = utf8 "xperp/v1/admin|"
        ++ (utf8 input.method
          ++ 0x7C :: (utf8 input.uriPath
            ++ 0x7C :: (input.body ++ 0x7C :: utf8 input.timestamp))) := by
  have bar : utf8 "|" = [0x7C] := by decide +kernel
  simp [AdminInput.hashed, hashedBytes, canonicalBody, bar]

/-- A number of seconds is written without a bar. -/
theorem notMem_of_parseU64 {text : String} (accepted : (parseU64 text).isSome = true)
    : '|' ∉ text.toList := by
  have digits : ∀ {chars : List Char} {value : Nat}, Text.parseNat chars = some value
      → '|' ∉ chars := by
    intro chars value read member
    unfold Text.parseNat at read
    split_ifs at read with isNumber
    exact absurd (List.all_eq_true.mp isNumber.2 '|' member) (by decide)
  obtain ⟨seconds, parsed⟩ := Option.isSome_iff_exists.mp accepted
  unfold parseU64 at parsed
  obtain ⟨read, -⟩ := Option.filter_eq_some_iff.mp parsed
  intro member
  split at read
  · rename_i rest isText
    rw [isText] at member
    rcases List.mem_cons.mp member with isPlus | inRest
    · exact absurd isPlus (by decide)
    · exact digits read inRest
  · exact digits read member

theorem hashed_injective : Function.Injective AdminInput.hashed := by
  have barless : ∀ {text : String}, '|' ∉ text.toList → 0x7C ∉ utf8 text :=
    fun absent => Separated.notMem_toUTF8 (by decide) absent
  intro left right same
  rw [hashed_eq, hashed_eq] at same
  obtain ⟨sameMethod, afterMethod⟩ := Separated.front_unique (barless left.methodBarless)
    (barless right.methodBarless) (List.append_cancel_left same)
  obtain ⟨samePath, afterPath⟩ := Separated.front_unique (barless left.pathBarless)
    (barless right.pathBarless) afterMethod
  -- the body may hold bars, the timestamp may not: split at the last one
  obtain ⟨sameBody, sameTime⟩ := Separated.back_unique
    (barless (notMem_of_parseU64 left.accepted)) (barless (notMem_of_parseU64 right.accepted))
    afterPath
  cases left
  cases right
  cases Separated.toUTF8_injective sameMethod
  cases Separated.toUTF8_injective samePath
  cases Separated.toUTF8_injective sameTime
  cases sameBody
  rfl

-----------------------------------------------------------------------------------------
-- Separation from the public canonicals
-----------------------------------------------------------------------------------------

theorem hashed_head (input : AdminInput) : input.hashed.head? = some 0x78 := by
  have start : (utf8 "xperp/v1/admin|").head? = some 0x78 := by decide +kernel
  rw [hashed_eq, List.head?_append, start]
  rfl

theorem utf8_head {text : String} (slash : text.toList.head? = some '/')
    : (utf8 text).head? = some 0x2F := by
  have bytes : utf8 text = text.toList.flatMap String.utf8EncodeChar := Separated.toUTF8_eq text
  obtain ⟨rest, chars⟩ := List.head?_eq_some_iff.mp slash
  have first : (String.utf8EncodeChar '/').head? = some 0x2F := by decide +kernel
  rw [bytes, chars, List.flatMap_cons, List.head?_append, first]
  rfl

theorem hashed_ne_login (input : AdminInput) (rest : List UInt8)
    : input.hashed ≠ utf8 "xperp/v1/login|" ++ rest := by
  intro same
  rw [hashed_eq] at same
  have starts := (List.append_inj same (by decide +kernel)).1
  exact absurd starts (by decide +kernel)

/-- No request of the public surface is signed like an admin request. -/
theorem hashed_ne_public {readTree : List UInt8 → Option JsonTree} (json : ReadsJson readTree)
    (input : AdminInput) {method uriPath : String} {body : List UInt8}
    (served : ServedForm readTree method uriPath body) (timestamp : String)
    : input.hashed ≠ hashedBytes .public method uriPath body timestamp := by
  intro same
  have head := hashed_head input
  unfold ServedForm at served
  by_cases get : isGet method
  · rw [if_pos get] at served
    have target : canonicalBody .public method uriPath body = utf8 uriPath := by
      simp only [canonicalBody, reduceCtorEq, if_false, if_pos (show _ = _ from get)]
    rw [same, hashedBytes, target, List.head?_append, utf8_head served, Option.some_or] at head
    exact absurd head (by decide)
  · rw [if_neg get] at served
    rcases served with rfl | isJson
    · have login : canonicalBody .public method uriPath []
          = utf8 "xperp/v1/login|" ++ utf8 uriPath ++ utf8 "|" := by
        simp only [canonicalBody, reduceCtorEq, if_false, if_neg (show ¬ _ = _ from get)]
        rfl
      rw [hashedBytes, login, List.append_assoc, List.append_assoc] at same
      exact hashed_ne_login input _ same
    · have readable : (readTree body).isSome = true := by
        obtain ⟨value, read⟩ := Option.isSome_iff_exists.mp isJson
        obtain ⟨tree, parsed, -⟩ := Option.bind_eq_some_iff.mp read
        exact Option.isSome_iff_exists.mpr ⟨tree, parsed⟩
      obtain ⟨byte, first, allowed⟩ := json body readable
      have nonempty : body.isEmpty = false := by
        cases body with
        | nil => cases first
        | cons _ _ => rfl
      have bare : canonicalBody .public method uriPath body = body := by
        simp only [canonicalBody, reduceCtorEq, if_false, if_neg (show ¬ _ = _ from get), nonempty,
          Bool.false_eq_true]
      rw [same, hashedBytes, bare, List.head?_append, first] at head
      cases head
      exact absurd allowed (by decide +kernel)

/-- What the middleware serves on a signature, given that a `GET` asks for a path. -/
theorem servedForm_of_authMiddleware {readTree : List UInt8 → Option JsonTree} {crypto : Crypto}
    {sessions : SessionStore crypto} {clock : NodeClock} {request : HttpRequest}
    {extensions : Extensions}
    (passed : authMiddleware readTree crypto sessions clock request = .ok extensions)
    (guarded : publicEndpoint request = false) (signed : bearerToken request.headers = none)
    (isPath : isGet request.method → request.uri.toList.head? = some '/')
    : ServedForm readTree request.method request.uri request.body := by
  unfold ServedForm
  split_ifs with get
  · exact isPath get
  · simp only [authMiddleware, guarded, Bool.false_eq_true, if_false, signed] at passed
    split_ifs at passed
    split at passed
    · cases passed
    · rename_i user verified
      obtain ⟨_, bodyOk, -⟩ := Except.bind_eq_ok_iff.mp passed
      by_cases empty : request.body = []
      · exact .inl empty
      · refine .inr ?_
        cases read : readValue readTree request.body with
        | some json => rfl
        | none => simp [checkBody, empty, read] at bodyOk

/-- An admin signature is about one method, route, body and time, and no request that the
public surface serves on a signature is signed like it.
-/
theorem admin_signature_binds {readTree : List UInt8 → Option JsonTree}
    (json : ReadsJson readTree)
    : Function.Injective AdminInput.hashed
      ∧ (∀ (input : AdminInput) (method uriPath : String) (body : List UInt8)
          (timestamp : String),
          ServedForm readTree method uriPath body
          → input.hashed ≠ hashedBytes .public method uriPath body timestamp)
      ∧ ∀ (crypto : Crypto) (sessions : SessionStore crypto) (clock : NodeClock)
          (request : HttpRequest) (extensions : Extensions),
          authMiddleware readTree crypto sessions clock request = .ok extensions
          → publicEndpoint request = false
          → bearerToken request.headers = none
          → (isGet request.method → request.uri.toList.head? = some '/')
          → ServedForm readTree request.method request.uri request.body :=
  ⟨hashed_injective,
    fun input _ _ _ timestamp served => hashed_ne_public json input served timestamp,
    fun _ _ _ _ _ passed guarded signed isPath =>
      servedForm_of_authMiddleware passed guarded signed isPath⟩

/-- A reader of JSON on the empty object. -/
def readEmptyObject (body : List UInt8) : Option JsonTree :=
  if body = utf8 "\x7b\x7d" then some (.object []) else none

theorem readEmptyObject_readsJson : ReadsJson readEmptyObject := by
  intro body read
  unfold readEmptyObject at read
  split_ifs at read with isObject
  · subst isObject
    exact ⟨0x7B, by decide +kernel, by decide +kernel⟩
  · cases read

def adminPost (uriPath : String) (barless : '|' ∉ uriPath.toList) : AdminInput where
  method := "POST"
  uriPath := uriPath
  body := utf8 "\x7b\x7d"
  timestamp := "1760000000"
  methodBarless := by decide
  pathBarless := barless
  accepted := by decide +kernel

/-- A signature for one admin route is not one for another, nor for a public request with the
same body.
-/
theorem admin_signature_binds_post
    : ReadsJson readEmptyObject
      ∧ (adminPost "/admin/safe/exec" (by decide)).hashed
        ≠ (adminPost "/admin/migrate-state" (by decide)).hashed
      ∧ (adminPost "/admin/safe/exec" (by decide)).hashed
        ≠ hashedBytes .public "POST" "/v1/orders" (utf8 "\x7b\x7d") "1760000000" := by
  obtain ⟨injective, separate, -⟩ := admin_signature_binds readEmptyObject_readsJson
  refine ⟨readEmptyObject_readsJson, fun same => ?_, separate _ _ _ _ _ ?_⟩
  · have paths := congrArg AdminInput.uriPath (injective same)
    exact absurd paths (by decide)
  · have post : ¬ isGet "POST" := by decide
    rw [ServedForm, if_neg post]
    exact .inr (by decide +kernel)

end PerpDex
