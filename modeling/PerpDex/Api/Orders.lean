import PerpDex.Db.RestingOrders
import PerpDex.Trading.Engine

/-! The HTTP handlers that change the book: submit, cancel, cancel all, and close.
Each handler mirrors what it did into `resting_orders`, statement by statement, except
`close_position`, which writes nothing there. Broadcasts and the trade log are left out.
-/

namespace PerpDex

open OrderBook

structure SubmitOrderRequest where
  userId : String
  market : Option String
  side : String
  orderType : String
  price : Option String
  size : String
  leverage : UInt32
  timeInForce : String
  reduceOnly : Bool
  clientOrderId : Option String

/-- How a handler fails: with a status and a message, or by a panic that drops the
connection.
-/
inductive ApiError where
  | status (code : Nat) (message : String)
  | panicked
deriving DecidableEq

/-- Lower case, as far as a comparison with ASCII letters can tell: beside the ASCII
capitals only the Kelvin sign becomes an ASCII letter.
-/
def lowerChar (char : Char) : Char :=
  if char.toNat = 0x212A then 'k' else char.toLower

def lowerText (text : String) : List Char := text.toList.map lowerChar

def parseSide (text : String) : Except String Side :=
  let lower := lowerText text
  if lower = "buy".toList ∨ lower = "long".toList then .ok .long
  else if lower = "sell".toList ∨ lower = "short".toList then .ok .short
  else .error s!"invalid side: {text}"

def parseOrderType (text : String) : Except String OrderType :=
  let lower := lowerText text
  if lower = "limit".toList then .ok .limit
  else if lower = "market".toList then .ok .market
  else .error s!"invalid order type: {text}"

def parseTif (text : String) : Except String TimeInForce :=
  let lower := lowerText text
  if lower = "gtc".toList then .ok .gtc
  else if lower = "ioc".toList then .ok .ioc
  else if lower = "fok".toList then .ok .fok
  else .error s!"invalid time_in_force: {text}"

/-- A malformed field is a bad request. -/
def badRequest {α : Type} : Except String α → Except ApiError α
  | .ok value => .ok value
  | .error message => .error (.status 400 message)

def parsePrice (orderType : OrderType) (price : Option String) : Except ApiError FP8 :=
  match orderType with
  | .market => .ok .zero
  | .limit =>
      match price with
      | none => .error (.status 400 "limit order requires price")
      | some text =>
          match FP8.fromStr text with
          | .ok value => .ok value
          | .error .invalid => .error (.status 400 "invalid price")
          | .error .panicked => .error .panicked

/-- A size is read from text and must be positive. -/
def parsePositive (text message : String) : Except ApiError FP8 :=
  match FP8.fromStr text with
  | .ok value => if 0 < value.raw then .ok value else .error (.status 400 message)
  | .error .invalid => .error (.status 400 message)
  | .error .panicked => .error .panicked

/-- The checks of the submit handler before the engine is called. -/
def parseSubmit (request : SubmitOrderRequest) : Except ApiError SubmitArgs := do
  let side ← badRequest (parseSide request.side)
  let orderType ← badRequest (parseOrderType request.orderType)
  let timeInForce ← badRequest (parseTif request.timeInForce)
  let price ← parsePrice orderType request.price
  let size ← parsePositive request.size "invalid or non-positive size"
  if request.leverage.toNat < 1 ∨ 20 < request.leverage.toNat then
    .error (.status 400 "leverage must be 1-20")
  else
    .ok
      { userId := request.userId
        side
        orderType
        price
        size
        leverage := request.leverage
        timeInForce
        reduceOnly := request.reduceOnly
        clientOrderId := request.clientOrderId }

/-- Bring the row of a filled maker in line with the book. -/
def syncMaker (book : OrderBook) (makerOrderId : Nat) : DbStatement :=
  match book.getOrder makerOrderId with
  | some maker => .updateRestingOrderFilled maker.id maker.filled
  | none => .deleteRestingOrder makerOrderId

/-- Bring the row of a decremented maker in line with its snapshot. -/
def syncDecrement (entry : Order × Int) : DbStatement :=
  if entry.1.status = .cancelled then .deleteRestingOrder entry.1.id
  else .updateRestingOrderFilled entry.1.id entry.1.filled

/-- The insert for the submitted order itself, if it is to be persisted. -/
def insertOwn (order : Order) (binding : OrderSignatureBinding) : List DbStatement :=
  if persists order then [.insertRestingOrder order binding] else []

/-- The statements of the submit handler, makers being looked up in `book`. -/
def submitStatements (book : OrderBook) (binding : OrderSignatureBinding) (order : Order)
    (trades : List Trade) (stpCancelled : List (Order × Int)) : List DbStatement :=
  insertOwn order binding
  ++ trades.map (fun trade => syncMaker book trade.makerOrderId)
  ++ stpCancelled.map syncDecrement

-----------------------------------------------------------------------------------------
-- Handlers
-----------------------------------------------------------------------------------------

/-- The state handlers share; there is no table when no database is configured. -/
structure AppState (σ : Type) where
  engine : TradingEngine
  enclave : σ
  db : Option RestingOrders
  isSequencer : Bool

section Handlers

variable {σ : Type} (perp : PerpClient σ) (crypto : Crypto)

/-- Errors about margin are the client's, all others the server's. -/
def submitFailure (message : String) : ApiError :=
  if "insufficient margin".toList <:+: message.toList then .status 400 message
  else .status 500 message

/-- An order needs a signature that every node can check. -/
def unsignedOrder : ApiError :=
  .status 401
    "orders require a per-order XRPL signature (X-XRPL-Address / -PublicKey / -Signature / -Timestamp); a session token authenticates you to this server but cannot prove to any other node that you placed this order"

/-- `POST /v1/orders`. -/
def submitOrderHandler (binding : Option OrderSignatureBinding) (request : SubmitOrderRequest)
    (clock : StpClock) (state : AppState σ) : Except ApiError OrderResult × AppState σ :=
  if !state.isSequencer then (.error (.status 503 "this node is not the sequencer"), state)
  else
    match parseSubmit request with
    | .error error => (.error error, state)
    | .ok args =>
        match binding with
        | none => (.error unsignedOrder, state)
        | some binding =>
            let submitted :=
              TradingEngine.submitOrder perp crypto (.clientSigned binding) args clock
                state.engine state.enclave
            let state :=
              { state with engine := submitted.engine, enclave := submitted.enclave }
            match submitted.result with
            | .error message => (.error (submitFailure message), state)
            | .ok result =>
                let statements :=
                  submitStatements state.engine.book binding result.order result.trades
                    result.stpCancelled
                (.ok result, { state with db := state.db.map (·.execAll statements) })

/-- The check on the owner of an order to be cancelled; an unknown order passes it. -/
def mayCancel (user : Option AuthenticatedUser) (owner : Option String) : Bool :=
  match user, owner with
  | some user, some owner => owner = user.xrplAddress
  | _, _ => true

/-- `DELETE /v1/orders/{order_id}`. -/
def cancelOrderHandler (user : Option AuthenticatedUser) (orderId : Nat) (state : AppState σ)
    : Except ApiError Order × AppState σ :=
  if !mayCancel user (state.engine.orderOwner orderId) then
    (.error (.status 403 "cannot cancel another user's order"), state)
  else
    let (outcome, book) := state.engine.book.cancelOrder orderId
    let state := { state with engine := { state.engine with book } }
    match outcome with
    | .error message => (.error (.status 404 message), state)
    | .ok order =>
        (.ok order, { state with db := state.db.map (·.exec (.deleteRestingOrder order.id)) })

/-- `DELETE /v1/orders`. -/
def cancelAllOrdersHandler (userId : Option String) (state : AppState σ)
    : Except ApiError Nat × AppState σ :=
  match userId with
  | none => (.error (.status 400 "user_id query param required"), state)
  | some userId =>
      let (cancelled, book) := state.engine.book.cancelAll userId
      (.ok cancelled.length,
        { state with
          engine := { state.engine with book }
          db :=
            state.db.map
              (·.execAll (cancelled.map (fun order => .deleteRestingOrder order.id))) })

/-- The order that closes a position of the caller's balance. -/
def closeTarget (caller : String) (positionId : Nat) (balance : Json)
    : Except ApiError (Side × FP8) :=
  let position :=
    ((balance.index "data").index "positions").asArray.bind
      (fun positions =>
        positions.find?
          (fun position =>
            ((position.get "position_id").bind Json.asU64).map UInt64.toNat = some positionId))
  match position with
  | none => .error (.status 404 "position not found or not owned by caller")
  | some position =>
      match (position.get "user_id").bind Json.asStr with
      | some owner =>
          if owner ≠ caller then .error (.status 403 "position ownership mismatch")
          else closeTerms position
      | none => closeTerms position
where
  closeTerms (position : Json) : Except ApiError (Side × FP8) := do
    let size ← parsePositive ((position.index "size").asStr.getD "0") "invalid position size"
    let side := if (position.index "side").asStr.getD "long" = "long" then Side.short else Side.long
    .ok (side, size)

/-- `POST /v1/positions/close/{position_id}`. -/
def closePositionHandler (user : Option AuthenticatedUser)
    (binding : Option OrderSignatureBinding) (positionId : Nat) (clock : StpClock)
    (state : AppState σ) : Except ApiError (List Trade) × AppState σ :=
  match user with
  | none => (.error (.status 401 "authentication required"), state)
  | some user =>
      match binding with
      | none =>
          (.error
            (.status 401
              "closing a position requires a per-order XRPL signature; a session token authenticates you to this server but cannot prove to any other node that you asked for this close"),
            state)
      | some binding =>
          let caller := user.xrplAddress
          let (balance, enclave) := perp.getBalance caller state.enclave
          let state := { state with enclave }
          match balance with
          | .error reason =>
              (.error (.status 500 s!"failed to query balance: {reason}"), state)
          | .ok balance =>
              match closeTarget caller positionId balance with
              | .error error => (.error error, state)
              | .ok (closeSide, size) =>
                  let submitted :=
                    TradingEngine.submitCloseOrder perp crypto (.clientSigned binding) caller
                      closeSide size 1 (UInt32.ofNat positionId) clock state.engine state.enclave
                  let state :=
                    { state with engine := submitted.engine, enclave := submitted.enclave }
                  match submitted.result with
                  | .error message => (.error (.status 500 message), state)
                  | .ok result =>
                      if result.trades = [] then
                        (.error
                          (.status 409
                            "no liquidity to close position — place a limit reduce_only order instead"),
                          state)
                      else (.ok result.trades, state)

end Handlers

end PerpDex
