import PerpDex.Api.Orders
import PerpDex.Auth.Middleware
import PerpDex.RateLimit

/-! Whom a handler acts for.
Between the middleware and a handler stand the extractors, which read the request once
more: the query percent-decoded, the body as a typed record. A handler either fails or
asks the system behind it for one thing, on behalf of the user id it was given.
-/

namespace PerpDex

/-- The handlers that take a user id from the request. -/
inductive Endpoint where
  | submitOrder
  | getOrders
  | cancelAllOrders
  | getBalance
  | getUserTradeHistory
  | getUserFundingHistory
  | withdraw
deriving DecidableEq

/-- The route of a request; `GET` handlers also answer `HEAD`. -/
def route (method path : String) : Option Endpoint :=
  let reads := method = "GET" ∨ method = "HEAD"
  if path = "/v1/orders" then
    if method = "POST" then some .submitOrder
    else if reads then some .getOrders
    else if method = "DELETE" then some .cancelAllOrders
    else none
  else if path = "/v1/account/balance" then if reads then some .getBalance else none
  else if path = "/v1/account/trades" then
    if reads then some .getUserTradeHistory else none
  else if path = "/v1/account/funding" then
    if reads then some .getUserFundingHistory else none
  else if path = "/v1/withdraw" then if method = "POST" then some .withdraw else none
  else none

structure WithdrawRequest where
  userId : String
  amount : String
  destination : String
  destinationTag : Option UInt32
deriving DecidableEq

open RecordSource JsonTree in
def readSubmitOrderRequest (tree : JsonTree) : Option SubmitOrderRequest := do
  let source ← tree.recordSource 10
  let userId ← source.required readString 0 "user_id"
  let market ← source.optional (readOption readString) 1 "market"
  let side ← source.required readString 2 "side"
  let orderType ← source.defaulted "limit" readString 3 "type"
  let price ← source.optional (readOption readString) 4 "price"
  let size ← source.required readString 5 "size"
  let leverage ← source.defaulted 1 readU32 6 "leverage"
  let timeInForce ← source.defaulted "gtc" readString 7 "time_in_force"
  let reduceOnly ← source.defaulted false readBool 8 "reduce_only"
  let clientOrderId ← source.optional (readOption readString) 9 "client_order_id"
  some
    { userId, market, side, orderType, price, size, leverage, timeInForce, reduceOnly,
      clientOrderId }

open RecordSource JsonTree in
def readWithdrawRequest (tree : JsonTree) : Option WithdrawRequest := do
  let source ← tree.recordSource 4
  let userId ← source.required readString 0 "user_id"
  let amount ← source.required readString 1 "amount"
  let destination ← source.required readString 2 "destination"
  let destinationTag ← source.defaulted none (readOption readU32) 3 "destination_tag"
  some { userId, amount, destination, destinationTag }

/-- Why a handler did nothing: an extractor turned the request away, or the handler did. -/
inductive ServeError where
  | extractor
  | handler (error : ApiError)
deriving DecidableEq

/-- The user ids a query is decoded to. -/
def queryUserIds (request : HttpRequest) : List String :=
  UrlEncoded.values "user_id" (request.query.getD "")

/-- `Query<UserIdQuery>`; a repeated field is an error. -/
def extractUserId (request : HttpRequest) : Except ServeError (Option String) :=
  match queryUserIds request with
  | [] => .ok none
  | [userId] => .ok (some userId)
  | _ => .error .extractor

/-- The handlers' own check that the parameter is there. -/
def requireUserId (request : HttpRequest) : Except ServeError String := do
  match ← extractUserId request with
  | some userId => .ok userId
  | none => .error (.handler (.status 400 "user_id query param required"))

/-- `Json<T>`: the body as a record, if the content type says JSON. -/
def extractJson {α : Type} (readTree : List UInt8 → Option JsonTree)
    (read : JsonTree → Option α) (request : HttpRequest) : Except ServeError α :=
  if !request.jsonContent then .error .extractor
  else
    match (readTree request.body).bind read with
    | some value => .ok value
    | none => .error .extractor

-----------------------------------------------------------------------------------------
-- Handlers
-----------------------------------------------------------------------------------------

/-- What a handler asks for once its own checks are passed. -/
inductive UserAction where
  | submitOrder (binding : OrderSignatureBinding) (args : SubmitArgs)
  | userOrders (userId : String)
  | cancelAll (userId : String)
  | getBalance (userId : String)
  | getUserTrades (userId : String)
  | getUserFunding (userId : String)
  | processWithdrawal (request : WithdrawRequest)

/-- The user a handler acts for. -/
def UserAction.userId : UserAction → String
  | .submitOrder _ args => args.userId
  | .userOrders userId | .cancelAll userId | .getBalance userId | .getUserTrades userId
  | .getUserFunding userId => userId
  | .processWithdrawal request => request.userId

/-- What the handlers ask of the node they run on. -/
structure Services where
  isSequencer : Bool
  hasDatabase : Bool
  hasSigners : Bool
  balanceRateLimiter : RateLimiter
  instant : Nat

/-- The submit handler up to the engine's gate on the owner. -/
def submitGate (isSequencer : Bool) (binding : Option OrderSignatureBinding)
    (request : SubmitOrderRequest) : Except ApiError (OrderSignatureBinding × SubmitArgs) :=
  if !isSequencer then .error (.status 503 "this node is not the sequencer")
  else
    match parseSubmit request with
    | .error error => .error error
    | .ok args =>
        match binding with
        | none => .error unsignedOrder
        | some binding =>
            match checkOwner ⟨.clientSigned binding, args, none⟩ with
            | .error message => .error (submitFailure message)
            | .ok () => .ok (binding, args)

def destinationFormat (destination : String) : Bool :=
  destination.toList.head? = some 'r' && 25 ≤ destination.utf8ByteSize
    && destination.utf8ByteSize ≤ 35

/-- The withdraw handler before `process_withdrawal`. -/
def withdrawGate (hasSigners : Bool) (request : WithdrawRequest) : Except ApiError Unit :=
  if !destinationFormat request.destination then
    .error (.status 400 "invalid XRPL destination address")
  else if !hasSigners then
    .error
      (.status 503
        "multisig signers not configured (--signers-config required for withdrawals)")
  else .ok ()

/-- The balance handler's cap on probes by a caller. -/
def balanceGate (services : Services) (caller : AuthenticatedUser) : Except ApiError Unit :=
  if !(services.balanceRateLimiter.checkAndRecordAt caller.xrplAddress services.instant).1 then
    .error (.status 429 "balance probe rate exceeded — try again in a few seconds")
  else .ok ()

/-- The history handlers need a database. -/
def historyGate (hasDatabase : Bool) (history : String) : Except ApiError Unit :=
  if !hasDatabase then .error (.status 503 s!"{history} history not available (no database)")
  else .ok ()

def handled {α : Type} : Except ApiError α → Except ServeError α
  | .ok value => .ok value
  | .error error => .error (.handler error)

/-- The handler of an endpoint, on a request the middleware let through. -/
def serve (readTree : List UInt8 → Option JsonTree) (services : Services) (endpoint : Endpoint)
    (extensions : Extensions) (request : HttpRequest) : Except ServeError UserAction :=
  match endpoint with
  | .submitOrder => do
      let order ← extractJson readTree readSubmitOrderRequest request
      let (binding, args) ← handled (submitGate services.isSequencer extensions.binding order)
      .ok (.submitOrder binding args)
  | .getOrders => do
      let userId ← requireUserId request
      .ok (.userOrders userId)
  | .cancelAllOrders => do
      let userId ← requireUserId request
      .ok (.cancelAll userId)
  | .getBalance =>
      match extensions.user with
      | none => .error .extractor
      | some caller => do
          let userId ← requireUserId request
          handled (balanceGate services caller)
          .ok (.getBalance userId)
  | .getUserTradeHistory => do
      let userId ← requireUserId request
      handled (historyGate services.hasDatabase "trade")
      .ok (.getUserTrades userId)
  | .getUserFundingHistory => do
      let userId ← requireUserId request
      handled (historyGate services.hasDatabase "funding")
      .ok (.getUserFunding userId)
  | .withdraw => do
      let withdrawal ← extractJson readTree readWithdrawRequest request
      handled (withdrawGate services.hasSigners withdrawal)
      .ok (.processWithdrawal withdrawal)

/-- An order gets past the gate only with a signature of its owner. -/
theorem submitGate_owner {isSequencer : Bool} {binding : Option OrderSignatureBinding}
    {request : SubmitOrderRequest} {kept : OrderSignatureBinding} {args : SubmitArgs}
    (passed : submitGate isSequencer binding request = .ok (kept, args))
    : binding = some kept ∧ kept.signerAddress = args.userId := by
  simp only [submitGate] at passed
  split_ifs at passed
  split at passed
  · cases passed
  · split at passed
    · cases passed
    · split at passed
      · cases passed
      · rename_i signature owned
        cases Except.ok.inj passed
        refine ⟨rfl, ?_⟩
        simp only [checkOwner] at owned
        split_ifs at owned with foreign
        exact not_not.mp foreign

-----------------------------------------------------------------------------------------
-- What the middleware does not see
-----------------------------------------------------------------------------------------

/-- The user ids of the query are where the middleware looks for them: the method is `GET`
and each is written out as `user_id=`.
-/
def QueryInView (request : HttpRequest) : Prop :=
  request.method = "GET"
  ∧ ∀ segment ∈ UrlEncoded.segments (request.query.getD ""),
      (UrlEncoded.segmentPair segment).1 = "user_id" →
      (textAfter "user_id=".toList segment).isSome

instance (request : HttpRequest) : Decidable (QueryInView request) :=
  inferInstanceAs (Decidable (_ ∧ _))

/-- The user id of the body is where the middleware looks for it: the body is an object and
readable as an untyped value.
-/
def BodyInView (readTree : List UInt8 → Option JsonTree) (request : HttpRequest) : Prop :=
  request.body ≠ []
  ∧ ∃ members json, readTree request.body = some (.object members)
      ∧ (JsonTree.object members).toValue = some json

/-- Every user id the handler takes from elsewhere is that of the credential. Orders need no
such condition: the engine compares them with the signer.
-/
def HiddenIdsOwn (readTree : List UInt8 → Option JsonTree) (credential : Option String)
    (endpoint : Endpoint) (request : HttpRequest) : Prop :=
  match endpoint with
  | .submitOrder => True
  | .withdraw =>
      ∀ withdrawal, request.jsonContent = true →
        (readTree request.body).bind readWithdrawRequest = some withdrawal →
        destinationFormat withdrawal.destination = true →
        BodyInView readTree request ∨ credential = some withdrawal.userId
  | .getOrders | .cancelAllOrders | .getBalance | .getUserTradeHistory
  | .getUserFundingHistory =>
      ∀ userId, queryUserIds request = [userId] →
        QueryInView request ∨ credential = some userId

theorem requireUserId_ok_iff {request : HttpRequest} {userId : String}
    : requireUserId request = .ok userId ↔ queryUserIds request = [userId] := by
  simp only [requireUserId, extractUserId]
  rcases queryUserIds request with - | ⟨first, - | ⟨second, rest⟩⟩
  · constructor
    · intro passed
      cases passed
    · intro listed
      cases listed
  · constructor
    · intro passed
      rw [show first = userId from Except.ok.inj passed]
    · intro listed
      rw [(List.cons.inj listed).1]
      rfl
  · constructor
    · intro passed
      cases passed
    · intro listed
      cases listed

theorem extractJson_ok_iff {α : Type} {readTree : List UInt8 → Option JsonTree}
    {read : JsonTree → Option α} {request : HttpRequest} {value : α}
    : extractJson readTree read request = .ok value
      ↔ request.jsonContent = true ∧ (readTree request.body).bind read = some value := by
  simp only [extractJson]
  cases request.jsonContent with
  | false => simp
  | true =>
      cases (readTree request.body).bind read with
      | none => simp
      | some other => simp

theorem handled_ok_iff {α : Type} {outcome : Except ApiError α} {value : α}
    : handled outcome = .ok value ↔ outcome = .ok value := by
  cases outcome with
  | error error => exact ⟨fun passed => (by cases passed), fun passed => (by cases passed)⟩
  | ok other => simp [handled]

theorem withdrawGate_ok_iff {hasSigners : Bool} {request : WithdrawRequest}
    : withdrawGate hasSigners request = .ok ()
      ↔ destinationFormat request.destination = true ∧ hasSigners = true := by
  simp only [withdrawGate]
  cases destinationFormat request.destination with
  | false => simp
  | true =>
      cases hasSigners with
      | false => simp
      | true => simp

/-- A route leads to no public endpoint. -/
theorem route_guarded {request : HttpRequest} {endpoint : Endpoint}
    (routed : route request.method request.path = some endpoint)
    : publicEndpoint request = false := by
  have listed : request.path ∈ ["/v1/orders", "/v1/account/balance", "/v1/account/trades",
      "/v1/account/funding", "/v1/withdraw"] := by
    by_contra unlisted
    simp only [List.mem_cons, List.not_mem_nil, or_false, not_or] at unlisted
    obtain ⟨notOrders, notBalance, notTrades, notFunding, notWithdraw⟩ := unlisted
    simp only [route, if_neg notOrders, if_neg notBalance, if_neg notTrades, if_neg notFunding,
      if_neg notWithdraw, reduceCtorEq] at routed
  have guarded : ∀ path ∈ ["/v1/orders", "/v1/account/balance", "/v1/account/trades",
      "/v1/account/funding", "/v1/withdraw"],
      path ∉ ["/v1/health", "/v1/system/status", "/v1/openapi.json", "/v1/pool/status",
        "/v1/auth/login"]
      ∧ "/v1/attestation/".toList.isPrefixOf path.toList = false
      ∧ path ≠ "/v1/markets" ∧ "/v1/markets/".toList.isPrefixOf path.toList = false := by
    decide +kernel
  obtain ⟨notPublic, notAttestation, notMarkets, notMarket⟩ := guarded request.path listed
  simp only [publicEndpoint, notPublic, notAttestation, notMarkets, notMarket, decide_false,
    Bool.or_false, Bool.and_false]

/-- The endpoints that take the user id from the query. -/
def Endpoint.readsQuery : Endpoint → Bool
  | .submitOrder | .withdraw => false
  | _ => true

/-- A sequencer with everything configured that has seen no probe yet. -/
def freshServices : Services where
  isSequencer := true
  hasDatabase := true
  hasSigners := true
  balanceRateLimiter := .new 60 30
  instant := 0

section Identity

variable {crypto : Crypto} {readTree : List UInt8 → Option JsonTree}
  {sessions : SessionStore crypto} {clock : NodeClock} {request : HttpRequest}
  {extensions : Extensions} {endpoint : Endpoint}

theorem hiddenIdsOwn_query {credential : Option String} (reads : endpoint.readsQuery = true)
    : HiddenIdsOwn readTree credential endpoint request
      ↔ ∀ userId, queryUserIds request = [userId] →
          QueryInView request ∨ credential = some userId := by
  cases endpoint with
  | submitOrder => cases reads
  | withdraw => cases reads
  | _ => rfl

/-- A handler that reads the query acts for the one user id in it. -/
theorem serve_query {services : Services} {action : UserAction}
    (reads : endpoint.readsQuery = true)
    (served : serve readTree services endpoint extensions request = .ok action)
    : queryUserIds request = [action.userId] := by
  cases endpoint with
  | submitOrder => cases reads
  | withdraw => cases reads
  | getOrders =>
      obtain ⟨userId, named, acts⟩ := Except.bind_eq_ok_iff.mp served
      cases Except.ok.inj acts
      exact requireUserId_ok_iff.mp named
  | cancelAllOrders =>
      obtain ⟨userId, named, acts⟩ := Except.bind_eq_ok_iff.mp served
      cases Except.ok.inj acts
      exact requireUserId_ok_iff.mp named
  | getBalance =>
      simp only [serve] at served
      split at served
      · cases served
      · obtain ⟨userId, named, rest⟩ := Except.bind_eq_ok_iff.mp served
        obtain ⟨_, _, acts⟩ := Except.bind_eq_ok_iff.mp rest
        cases Except.ok.inj acts
        exact requireUserId_ok_iff.mp named
  | getUserTradeHistory =>
      obtain ⟨userId, named, rest⟩ := Except.bind_eq_ok_iff.mp served
      obtain ⟨_, _, acts⟩ := Except.bind_eq_ok_iff.mp rest
      cases Except.ok.inj acts
      exact requireUserId_ok_iff.mp named
  | getUserFundingHistory =>
      obtain ⟨userId, named, rest⟩ := Except.bind_eq_ok_iff.mp served
      obtain ⟨_, _, acts⟩ := Except.bind_eq_ok_iff.mp rest
      cases Except.ok.inj acts
      exact requireUserId_ok_iff.mp named

/-- And where nothing is missing it does act. -/
theorem serve_query_fresh {user : AuthenticatedUser} {userId : String}
    (reads : endpoint.readsQuery = true) (hasUser : extensions.user = some user)
    (named : queryUserIds request = [userId])
    : ∃ action, serve readTree freshServices endpoint extensions request = .ok action
        ∧ action.userId = userId := by
  have found := requireUserId_ok_iff.mpr named
  cases endpoint with
  | submitOrder => cases reads
  | withdraw => cases reads
  | getOrders => exact ⟨.userOrders userId, by simp only [serve, found]; rfl, rfl⟩
  | cancelAllOrders => exact ⟨.cancelAll userId, by simp only [serve, found]; rfl, rfl⟩
  | getBalance => exact ⟨.getBalance userId, by simp only [serve, hasUser, found]; rfl, rfl⟩
  | getUserTradeHistory =>
      exact ⟨.getUserTrades userId, by simp only [serve, found]; rfl, rfl⟩
  | getUserFundingHistory =>
      exact ⟨.getUserFunding userId, by simp only [serve, found]; rfl, rfl⟩

/-- The withdraw handler acts for the user of a withdrawal it could read. -/
theorem serve_withdraw_iff {services : Services} {action : UserAction}
    : serve readTree services .withdraw extensions request = .ok action
      ↔ ∃ withdrawal,
          action = .processWithdrawal withdrawal
          ∧ request.jsonContent = true
          ∧ (readTree request.body).bind readWithdrawRequest = some withdrawal
          ∧ destinationFormat withdrawal.destination = true
          ∧ services.hasSigners = true := by
  simp only [serve, Except.bind_eq_ok_iff, extractJson_ok_iff, handled_ok_iff]
  constructor
  · intro given
    rcases given with ⟨withdrawal, ⟨content, read⟩, ⟨⟩, passed, acts⟩
    obtain ⟨format, signers⟩ := withdrawGate_ok_iff.mp passed
    exact ⟨withdrawal, (Except.ok.inj acts).symm, content, read, format, signers⟩
  · intro given
    rcases given with ⟨withdrawal, rfl, content, read, format, signers⟩
    exact ⟨withdrawal, ⟨content, read⟩, (), withdrawGate_ok_iff.mpr ⟨format, signers⟩, rfl⟩

/-- The submit handler acts for the signer. -/
theorem serve_submit {services : Services} {action : UserAction}
    (served : serve readTree services .submitOrder extensions request = .ok action)
    : ∃ binding, extensions.binding = some binding
        ∧ binding.signerAddress = action.userId := by
  obtain ⟨order, _, rest⟩ := Except.bind_eq_ok_iff.mp served
  obtain ⟨⟨binding, args⟩, passed, acts⟩ := Except.bind_eq_ok_iff.mp rest
  cases Except.ok.inj acts
  obtain ⟨kept, owner⟩ := submitGate_owner (handled_ok_iff.mp passed)
  exact ⟨binding, kept, owner⟩

/-- Base58 text is plain: it needs no decoding. -/
theorem address_plain {address : String}
    (alphabet : ∀ bytes, ∀ char ∈ (crypto.base58 bytes).toList, char.isAlphanum = true)
    (derived : ∃ pubkey, deriveAddress crypto pubkey = address)
    : ∀ char ∈ address.toList, UrlEncoded.Plain char := by
  obtain ⟨pubkey, rfl⟩ := derived
  intro char member
  have alphanumeric := alphabet _ char member
  refine ⟨?_, ?_, ?_⟩
  · simp only [Char.isAlphanum, Char.isAlpha, Char.isUpper, Char.isLower, Char.isDigit,
      Bool.or_eq_true, decide_eq_true_eq, Bool.and_eq_true] at alphanumeric
    have code : char.toNat = char.val.toNat := rfl
    simp only [ge_iff_le, UInt32.le_iff_toNat_le] at alphanumeric
    rcases alphanumeric with (upper | lower) | digit
    · have := upper.2
      simp at this
      omega
    · have := lower.2
      simp at this
      omega
    · have := digit.2
      simp at this
      omega
  · rintro rfl
    exact absurd alphanumeric (by decide)
  · rintro rfl
    exact absurd alphanumeric (by decide)

/-- A user id in view of the middleware is the one it compared: plain text decodes to
itself, so the handler reads what the middleware did.
-/
theorem PassedAs.query_own {address userId : String}
    (passed : PassedAs readTree crypto sessions clock request extensions address)
    (plain : ∀ char ∈ address.toList, UrlEncoded.Plain char) (inView : QueryInView request)
    (named : queryUserIds request = [userId])
    : userId = address := by
  obtain ⟨isGet, written⟩ := inView
  obtain ⟨segment, inQuery, pair⟩ := UrlEncoded.segment_of_values named
  have literal := written segment inQuery (by rw [pair])
  obtain ⟨value, after⟩ := Option.isSome_iff_exists.mp literal
  have compared := passed.query segment inQuery value isGet after
  simp only [textAfter] at after
  split_ifs at after with starts
  have spelled : segment = "user_id".toList ++ '=' :: address.toList := by
    obtain ⟨rest, rfl⟩ := List.isPrefixOf_iff_prefix.mp starts
    have dropped : rest = value := by simpa using after
    rw [dropped, compared]
    rfl
  have keyPlain : ∀ char ∈ "user_id".toList, UrlEncoded.Plain char := by
    simp [UrlEncoded.Plain]
  rw [spelled, UrlEncoded.segmentPair_plain keyPlain (by decide) plain] at pair
  simpa using (congrArg Prod.snd pair).symm

/-- The withdrawal of a body in view is for the user id that was compared. -/
theorem PassedAs.body_own {address : String} {withdrawal : WithdrawRequest}
    (passed : PassedAs readTree crypto sessions clock request extensions address)
    (inView : BodyInView readTree request)
    (read : (readTree request.body).bind readWithdrawRequest = some withdrawal)
    : withdrawal.userId = address := by
  obtain ⟨nonempty, members, json, parsed, denotes⟩ := inView
  simp only [parsed, Option.bind_some, readWithdrawRequest, JsonTree.recordSource,
    Option.bind_eq_bind, Option.bind_eq_some_iff] at read
  obtain ⟨userId, named, _, _, _, _, _, _, built⟩ := read
  cases Option.some.inj built
  refine passed.body json userId nonempty ?_ (RecordSource.required_string_named denotes named)
  rw [readValue, parsed, Option.bind_some, denotes]

/-- The handler acts for the caller exactly if every user id out of the middleware's view is
the caller's own.
-/
theorem caller_identity_iff
    (alphabet : ∀ bytes, ∀ char ∈ (crypto.base58 bytes).toList, char.isAlphanum = true)
    (routed : route request.method request.path = some endpoint)
    (passed : authMiddleware readTree crypto sessions clock request = .ok extensions)
    : (∀ services action, serve readTree services endpoint extensions request = .ok action →
        extensions.user = some ⟨action.userId⟩)
      ↔ HiddenIdsOwn readTree (credentialAddress crypto sessions clock request) endpoint
          request := by
  obtain ⟨address, known⟩ := authMiddleware_ok readTree crypto passed (route_guarded routed)
  have own : ∀ userId : String, extensions.user = some ⟨userId⟩ ↔ userId = address := by
    intro userId
    rw [known.user, Option.some.injEq, AuthenticatedUser.mk.injEq]
    exact eq_comm
  simp only [own]
  rw [known.credential]
  by_cases reads : endpoint.readsQuery = true
  · rw [hiddenIdsOwn_query reads]
    constructor
    · intro acts userId named
      obtain ⟨action, served, same⟩ := serve_query_fresh reads known.user named
      exact Or.inr (by rw [← same, acts freshServices action served])
    · intro hidden services action served
      have named := serve_query reads served
      rcases hidden action.userId named with inView | equal
      · exact known.query_own (address_plain alphabet known.derived) inView named
      · exact (Option.some.inj equal).symm
  · cases endpoint with
    | submitOrder =>
        refine ⟨fun _ => trivial, fun _ services action served => ?_⟩
        obtain ⟨binding, kept, owner⟩ := serve_submit served
        rw [← owner, known.binding binding kept]
    | withdraw =>
        constructor
        · intro acts withdrawal content read format
          have served : serve readTree freshServices .withdraw extensions request
              = .ok (.processWithdrawal withdrawal) :=
            serve_withdraw_iff.mpr ⟨withdrawal, rfl, content, read, format, rfl⟩
          exact Or.inr (by rw [← acts freshServices _ served]; rfl)
        · intro hidden services action served
          obtain ⟨withdrawal, rfl, content, read, format, _⟩ := serve_withdraw_iff.mp served
          rcases hidden withdrawal content read format with inView | equal
          · exact known.body_own inView read
          · exact (Option.some.inj equal).symm
    | _ => exact absurd rfl reads

end Identity

/-- The taker has signed in. -/
def takerSession : Session sampleCrypto where
  address := takerAddress
  expires := 1800
  derived := ⟨takerPubkey, by decide +kernel⟩

/-- The taker sends a request without a body on its session. -/
def takerRequest (method userId : String) : HttpRequest where
  method := method
  path := "/v1/orders"
  query := some ("user_id=" ++ userId)
  uri := "/v1/orders?user_id=" ++ userId
  headers := fun name => if name = "authorization" then some "Bearer session-1" else none
  body := []
  jsonContent := false

theorem sampleCrypto_alphabet
    : ∀ bytes, ∀ char ∈ (sampleCrypto.base58 bytes).toList, char.isAlphanum = true := by
  have tabled : sampleAddresses.all (fun entry => entry.2.toList.all Char.isAlphanum) = true := by
    decide +kernel
  intro bytes char member
  simp only [sampleCrypto] at member
  cases found : sampleAddresses.lookup (bytesNat bytes) with
  | none => simp [found] at member
  | some address =>
      rw [found, Option.getD_some] at member
      obtain ⟨before, after, split, _⟩ := List.lookup_eq_some_iff.mp found
      have entry : (bytesNat bytes, address) ∈ sampleAddresses := by
        rw [split]
        exact List.mem_append_right _ List.mem_cons_self
      exact List.all_eq_true.mp (List.all_eq_true.mp tabled _ entry) char member

/-- Listing its own orders acts for the taker. -/
theorem caller_identity_own_orders
    : route "GET" "/v1/orders" = some .getOrders
      ∧ authMiddleware (fun _ => none) sampleCrypto [("session-1", takerSession)]
          ⟨0, 1_760_000_000⟩ (takerRequest "GET" takerAddress)
        = .ok ⟨some ⟨takerAddress⟩, none⟩
      ∧ ∀ services action,
          serve (fun _ => none) services .getOrders ⟨some ⟨takerAddress⟩, none⟩
            (takerRequest "GET" takerAddress)
          = .ok action →
          some (AuthenticatedUser.mk takerAddress) = some ⟨action.userId⟩ := by
  have routed : route "GET" "/v1/orders" = some .getOrders := by decide +kernel
  have passed : authMiddleware (fun _ => none) sampleCrypto [("session-1", takerSession)]
      ⟨0, 1_760_000_000⟩ (takerRequest "GET" takerAddress)
      = .ok ⟨some ⟨takerAddress⟩, none⟩ := by decide +kernel
  have inView : QueryInView (takerRequest "GET" takerAddress) := by decide +kernel
  exact ⟨routed, passed, (caller_identity_iff sampleCrypto_alphabet routed passed).mpr
    (fun _ _ => Or.inl inView)⟩

/-- Cancelling the maker's orders is let through as well: the query of a `DELETE` is not
compared.
-/
theorem delete_acts_for_another
    : route "DELETE" "/v1/orders" = some .cancelAllOrders
      ∧ authMiddleware (fun _ => none) sampleCrypto [("session-1", takerSession)]
          ⟨0, 1_760_000_000⟩ (takerRequest "DELETE" makerAddress)
        = .ok ⟨some ⟨takerAddress⟩, none⟩
      ∧ ¬ ∀ services action,
          serve (fun _ => none) services .cancelAllOrders ⟨some ⟨takerAddress⟩, none⟩
            (takerRequest "DELETE" makerAddress)
          = .ok action →
          some (AuthenticatedUser.mk takerAddress) = some ⟨action.userId⟩ := by
  refine ⟨by decide +kernel, by decide +kernel, ?_⟩
  intro ownOnly
  have named : queryUserIds (takerRequest "DELETE" makerAddress) = [makerAddress] := by
    decide +kernel
  have hasUser : (Extensions.mk (some ⟨takerAddress⟩) none).user = some ⟨takerAddress⟩ := rfl
  obtain ⟨action, served, forMaker⟩ :=
    @serve_query_fresh (fun _ => none) _ _ .cancelAllOrders _ _ rfl hasUser named
  have forTaker := ownOnly freshServices action served
  rw [forMaker] at forTaker
  exact absurd forTaker (by decide +kernel)

end PerpDex
