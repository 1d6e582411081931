import PerpDex.Auth.Signature
import PerpDex.Lib.JsonRecord
import PerpDex.Lib.UrlEncoded

/-! Sessions and the authentication middleware.
The middleware accepts a session token or a signature and compares the user ids it finds
with the address behind the credential: a member `user_id` of the body, and for `GET` the
segments of the query that are written `user_id=`. The JSON reader comes from a library and
is a parameter.
-/

namespace PerpDex

/-- A session belongs to an address some key has signed in with. -/
structure Session (crypto : Crypto) where
  address : String
  expires : Nat
  derived : ∃ pubkey, deriveAddress crypto pubkey = address

/-- Sessions by token; times are monotonic instants in seconds. -/
abbrev SessionStore (crypto : Crypto) := List (String × Session crypto)

section Sessions

variable {crypto : Crypto}

def SessionStore.get (sessions : SessionStore crypto) (token : String) (instant : Nat)
    : Option (Session crypto) :=
  (sessions.lookup token).filter (fun session => instant < session.expires)

end Sessions

/-- The two clocks of a node: the monotonic one and the time of day, in seconds. -/
structure NodeClock where
  instant : Nat
  unixSecs : Nat

/-- What an accepted signature says of its address. -/
theorem verifyRequest_derived {crypto : Crypto} {headers : Headers} {method uriPath : String}
    {body : List UInt8} {now : Nat} {user : AuthenticatedUser}
    (accepted : verifyRequest crypto headers method body uriPath now = .ok user)
    : ∃ pubkey, deriveAddress crypto pubkey = user.xrplAddress := by
  obtain ⟨_, _, _, _, pubkey, _, _, _, _, _, _, derived, _⟩ := verifyRequest_ok crypto accepted
  exact ⟨pubkey, derived⟩

-----------------------------------------------------------------------------------------
-- The middleware
-----------------------------------------------------------------------------------------

/-- A request as the middleware and the extractors see it. -/
structure HttpRequest where
  method : String
  path : String
  query : Option String
  /-- The request target as it was sent, which a `GET` signs. -/
  uri : String
  headers : Headers
  body : List UInt8
  /-- Is its content type one that the JSON extractor accepts? -/
  jsonContent : Bool

/-- A response that ends the request before its handler. -/
structure Refusal where
  code : Nat
  message : String
deriving DecidableEq

/-- What the middleware leaves for the handler. -/
structure Extensions where
  user : Option AuthenticatedUser
  binding : Option OrderSignatureBinding
deriving DecidableEq

def maxBodyBytes : Nat := 1024 * 1024

/-- Endpoints that need no credential. -/
def publicEndpoint (request : HttpRequest) : Bool :=
  request.path ∈ ["/v1/health", "/v1/system/status", "/v1/openapi.json", "/v1/pool/status",
    "/v1/auth/login"]
  || "/v1/attestation/".toList.isPrefixOf request.path.toList
  || (request.method = "GET"
    && (request.path = "/v1/markets" || "/v1/markets/".toList.isPrefixOf request.path.toList))

/-- The rest of a text behind a literal start. -/
def textAfter (start text : List Char) : Option (List Char) :=
  if start.isPrefixOf text then some (text.drop start.length) else none

def bearerToken (headers : Headers) : Option String :=
  (headers "authorization").bind
    (fun header => (textAfter "Bearer ".toList header.toList).map String.ofList)

section Middleware

variable (readTree : List UInt8 → Option JsonTree)

/-- A body as an untyped JSON value. -/
def readValue (body : List UInt8) : Option Json := (readTree body).bind JsonTree.toValue

/-- The user id a JSON body names at its top. -/
def bodyUserId (json : Json) : Option String := (json.get "user_id").bind Json.asStr

/-- Compare the body with the address of a credential. A signed body must be JSON; under a
session other bodies are let through.
-/
def checkBody (signed : Bool) (kind address : String) (body : List UInt8)
    : Except Refusal Unit :=
  if body.isEmpty then .ok ()
  else
    match readValue readTree body with
    | none =>
        if signed then .error ⟨400, "request body must be valid JSON"⟩ else .ok ()
    | some json =>
        match bodyUserId json with
        | none => .ok ()
        | some userId =>
            if userId ≠ address then
              .error ⟨403, s!"user_id '{userId}' does not match {kind} address '{address}'"⟩
            else .ok ()

/-- Compare the query of a `GET` with the address of a credential. -/
def checkQuery (kind address : String) (request : HttpRequest) : Except Refusal Unit :=
  match request.query with
  | none => .ok ()
  | some query =>
      if request.method = "GET"
        ∧ ∃ segment ∈ UrlEncoded.segments query,
            ∃ value ∈ textAfter "user_id=".toList segment, value ≠ address.toList
      then .error ⟨403, s!"user_id does not match {kind} address"⟩
      else .ok ()

/-- The signature a handler may keep: that of a body, if there is one. -/
def bindingOf (request : HttpRequest) (user : AuthenticatedUser)
    : Option OrderSignatureBinding :=
  if request.body ≠ [] ∧ request.method ≠ "GET" then
    some (requestBinding request.headers request.body user)
  else none

variable (crypto : Crypto)

def authMiddleware (sessions : SessionStore crypto) (clock : NodeClock) (request : HttpRequest)
    : Except Refusal Extensions :=
  if publicEndpoint request then .ok ⟨none, none⟩
  else
    match bearerToken request.headers with
    | some token =>
        match sessions.get token clock.instant with
        | none => .error ⟨401, "session expired or invalid token"⟩
        | some session =>
            if maxBodyBytes < request.body.length then .error ⟨400, "failed to read body"⟩
            else do
              checkBody readTree false "session" session.address request.body
              checkQuery "session" session.address request
              .ok ⟨some ⟨session.address⟩, none⟩
    | none =>
        if maxBodyBytes < request.body.length then .error ⟨400, "failed to read body"⟩
        else
          match verifyRequest crypto request.headers request.method request.body request.uri
            clock.unixSecs with
          | .error message => .error ⟨401, message⟩
          | .ok user => do
              checkBody readTree true "authenticated" user.xrplAddress request.body
              checkQuery "authenticated" user.xrplAddress request
              .ok ⟨some user, bindingOf request user⟩

/-- The address a credential is for: that of the session, or the one in the header. -/
def credentialAddress (sessions : SessionStore crypto) (clock : NodeClock)
    (request : HttpRequest) : Option String :=
  match bearerToken request.headers with
  | some token => (sessions.get token clock.instant).map Session.address
  | none => request.headers "x-xrpl-address"

/-- Everything known of a request that passed with a credential for `address`. -/
structure PassedAs (sessions : SessionStore crypto) (clock : NodeClock) (request : HttpRequest)
    (extensions : Extensions) (address : String) : Prop where
  user : extensions.user = some ⟨address⟩
  credential : credentialAddress crypto sessions clock request = some address
  derived : ∃ pubkey, deriveAddress crypto pubkey = address
  body : ∀ json userId, request.body ≠ [] → readValue readTree request.body = some json →
    bodyUserId json = some userId → userId = address
  query : ∀ segment ∈ UrlEncoded.segments (request.query.getD ""), ∀ value,
    request.method = "GET" → textAfter "user_id=".toList segment = some value →
    value = address.toList
  binding : ∀ binding, extensions.binding = some binding → binding.signerAddress = address

theorem checkBody_ok {signed : Bool} {kind address : String} {body : List UInt8}
    (passed : checkBody readTree signed kind address body = .ok ())
    : ∀ json userId, body ≠ [] → readValue readTree body = some json →
      bodyUserId json = some userId → userId = address := by
  intro json userId nonempty readable named
  by_contra other
  simp [checkBody, nonempty, readable, named, other] at passed

theorem checkQuery_ok {kind address : String} {request : HttpRequest}
    (passed : checkQuery kind address request = .ok ())
    : ∀ segment ∈ UrlEncoded.segments (request.query.getD ""), ∀ value,
      request.method = "GET" → textAfter "user_id=".toList segment = some value →
      value = address.toList := by
  intro segment member value isGet written
  by_contra other
  cases hasQuery : request.query with
  | none =>
      rw [hasQuery] at member
      obtain rfl : segment = [] := by simpa [UrlEncoded.segments] using member
      simp [textAfter] at written
  | some query =>
      rw [hasQuery] at member
      have unequal : request.method = "GET" ∧ ∃ segment ∈ UrlEncoded.segments query,
          ∃ value ∈ textAfter "user_id=".toList segment, value ≠ address.toList :=
        ⟨isGet, segment, member, value, written, other⟩
      simp only [checkQuery, hasQuery, if_pos unequal, reduceCtorEq] at passed

/-- A request that passes is public or carries a credential. -/
theorem authMiddleware_ok {sessions : SessionStore crypto} {clock : NodeClock}
    {request : HttpRequest} {extensions : Extensions}
    (passed : authMiddleware readTree crypto sessions clock request = .ok extensions)
    (guarded : publicEndpoint request = false)
    : ∃ address, PassedAs readTree crypto sessions clock request extensions address := by
  simp only [authMiddleware, guarded, Bool.false_eq_true, if_false] at passed
  split at passed
  · rename_i token bearer
    split at passed
    · cases passed
    · rename_i session found
      split_ifs at passed with tooLong
      simp only [Except.bind_eq_ok_iff] at passed
      obtain ⟨⟨⟩, bodyOk, ⟨⟩, queryOk, built⟩ := passed
      cases Except.ok.inj built
      exact
        ⟨session.address,
          { user := rfl
            credential := by simp only [credentialAddress, bearer, found, Option.map_some]
            derived := session.derived
            body := checkBody_ok readTree bodyOk
            query := checkQuery_ok queryOk
            binding := by simp }⟩
  · rename_i unbearer
    split_ifs at passed with tooLong
    split at passed
    · cases passed
    · rename_i user verified
      simp only [Except.bind_eq_ok_iff] at passed
      obtain ⟨⟨⟩, bodyOk, ⟨⟩, queryOk, built⟩ := passed
      cases Except.ok.inj built
      refine
        ⟨user.xrplAddress,
          { user := rfl
            credential := ?_
            derived := verifyRequest_derived verified
            body := checkBody_ok readTree bodyOk
            query := checkQuery_ok queryOk
            binding := ?_ }⟩
      · simp only [credentialAddress, unbearer]
        exact (verifyRequest_ok crypto verified).1
      · intro binding kept
        simp only [bindingOf] at kept
        split_ifs at kept
        cases Option.some.inj kept
        rfl

end Middleware

end PerpDex
