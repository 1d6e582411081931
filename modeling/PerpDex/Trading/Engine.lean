import PerpDex.Lib.Json
import PerpDex.P2p.Message

/-! The trading engine: admission, matching under the book lock, settlement in the enclave
and publication. The enclave is a parameter with a state of its own; an arithmetic panic of
the source is an error here, since the request fails either way.
-/

namespace PerpDex

open OrderBook

/-- A call that changes positions, with the texts that are sent. -/
inductive EnclaveCall where
  | openPosition (userId side size price : String) (leverage : UInt32)
  | closePosition (userId : String) (positionId : Nat) (price : String)
deriving DecidableEq

/-- The client of an enclave whose state is `σ`. -/
structure PerpClient (σ : Type) where
  getBalance : String → σ → Except String Json × σ
  attestedClockStatus : σ → Except String Json × σ
  call : EnclaveCall → σ → Except String Json × σ

/-- A client that also records the calls it forwards. -/
def PerpClient.logged {σ : Type} (perp : PerpClient σ) : PerpClient (σ × List EnclaveCall) where
  getBalance := fun userId (state, log) =>
    let (reply, state) := perp.getBalance userId state
    (reply, state, log)
  attestedClockStatus := fun (state, log) =>
    let (reply, state) := perp.attestedClockStatus state
    (reply, state, log)
  call := fun call (state, log) =>
    let (reply, state) := perp.call call state
    (reply, state, log ++ [call])

/-- An enclave that shows every user the same account and grants every call. -/
def grantingPerp (availableMargin : String) (positions : List Json) : PerpClient Unit where
  getBalance := fun _ enclave =>
    (.ok
      (.object
        [("status", .string "success"),
          ("data",
            .object
              [("available_margin", .string availableMargin), ("positions", .array positions)])]),
      enclave)
  attestedClockStatus := fun enclave =>
    (.ok (.object [("attested_close_time_ripple_epoch", .number (.posInt 813315200))]), enclave)
  call := fun _ enclave => (.ok (.object [("status", .string "success")]), enclave)

/-- Does a reply report success? -/
def replySucceeded (reply : Json) : Bool :=
  ((reply.get "status").bind Json.asStr).getD "" = "success"

/-- Why a leg was not settled: the enclave answered something else than success, or the
call itself failed.
-/
inductive SettleError where
  | returned (reply : Json)
  | failed (reason : String)

def settleError : Except String Json → Option SettleError
  | .ok reply => if replySucceeded reply then none else some (.returned reply)
  | .error reason => some (.failed reason)

-----------------------------------------------------------------------------------------
-- The engine
-----------------------------------------------------------------------------------------

/-- What authorises an order to enter the book. -/
inductive OrderAuthorization where
  | clientSigned (binding : OrderSignatureBinding)
  | protocolVault

def OrderAuthorization.wire : OrderAuthorization → WireOrderAuthorization
  | .clientSigned binding => .clientSigned binding
  | .protocolVault => .protocolVault

structure TradingEngine where
  book : OrderBook
  seqNum : Nat
  peerId : String
  /-- Is a batch publisher attached? -/
  publishes : Bool

def TradingEngine.new (market peerId : String) (publishes : Bool) : TradingEngine where
  book := .new market
  seqNum := 1
  peerId := peerId
  publishes := publishes

structure FailedFill where
  trade : Trade
  makerError : Option SettleError
  takerError : Option SettleError

structure OrderResult where
  order : Order
  trades : List Trade
  failedFills : List FailedFill
  stpCancelled : List (Order × Int)

/-- An order that may be admitted, with the position it closes, if any. -/
structure OrderRequest where
  authorization : OrderAuthorization
  args : SubmitArgs
  closePositionId : Option UInt32

/-- The gate on the owner: a signed order is placed by its signer. -/
def checkOwner (request : OrderRequest) : Except String Unit :=
  match request.authorization with
  | .clientSigned binding =>
      if binding.signerAddress ≠ request.args.userId then
        .error
          s!"order owner {request.args.userId} does not match the signer {binding.signerAddress} — an order may only be placed by the key that signed for it"
      else .ok ()
  | .protocolVault => .ok ()

/-- The available margin in a balance reply. -/
def readAvailable : Except String Json → Except String FP8
  | .error reason => .error s!"insufficient margin: balance unavailable ({reason})"
  | .ok balance =>
      match ((balance.index "data").index "available_margin").asStr with
      | none => .error "insufficient margin: available_margin unreadable"
      | some text =>
          match FP8.fromStr text with
          | .ok available => .ok available
          | .error _ => .error "insufficient margin: available_margin unreadable"

/-- The attested close-time in unix milliseconds; a clock that has not advanced pauses. -/
def readAttestedMs : Except String Json → Except String Nat
  | .error reason => .error s!"matching paused: attested clock unavailable ({reason})"
  | .ok status =>
      let ripple := ((status.index "attested_close_time_ripple_epoch").asU64.getD 0).toNat
      if ripple = 0 then
        .error
          "matching paused: attested clock has not advanced (no live close-time to stamp a deterministic trade with)"
      else .ok ((ripple + 946_684_800) * 1_000 % 2 ^ 64)

/-- The margin an order needs before it is matched. A market order is priced at one. -/
def requiredMargin (args : SubmitArgs) : FP8 :=
  let estPrice := if 0 < args.price.raw then args.price else FP8.one
  FP8.ofRaw ((args.size.mul estPrice).raw.tdiv args.leverage.toNat)

/-- The section under the book lock: stamp the time, check margin, match. Closing orders
carry no available margin and are not checked.
-/
def lockedSubmit (available : Option FP8) (attestedMs : Nat) (args : SubmitArgs)
    (clock : StpClock) (book : OrderBook) : Except String Submission × OrderBook :=
  let book := book.setAttestedMs attestedMs
  match available with
  | none => book.submitOrder args clock
  | some available =>
      if args.leverage.toNat = 0 then (.error "attempt to divide by zero", book)
      else
        let required := requiredMargin args
        let reserved := book.userReservedMargin args.userId
        let free := available.sub reserved
        if free.raw < required.raw then
          (.error
            s!"insufficient margin: available={available.display}, reserved={reserved.display}, free={free.display}, required~={required.display}",
            book)
        else book.submitOrder args clock

section Settlement

variable {σ : Type} (perp : PerpClient σ)

/-- The two calls that settle a fill: the taker's leg, then the maker's. -/
def takerCall (closePositionId : Option UInt32) (leverage : UInt32) (trade : Trade)
    : EnclaveCall :=
  match closePositionId with
  | some positionId =>
      .closePosition trade.takerUserId positionId.toNat trade.price.display
  | none =>
      .openPosition trade.takerUserId trade.takerSide.toString trade.size.display
        trade.price.display leverage

def makerCall (leverage : UInt32) (trade : Trade) : EnclaveCall :=
  .openPosition trade.makerUserId trade.takerSide.opposite.toString trade.size.display
    trade.price.display leverage

/-- The settlement loop over the fills of one order. -/
def settleTrades (closePositionId : Option UInt32) (leverage : UInt32)
    : List Trade → σ → List FailedFill × σ
  | [], enclave => ([], enclave)
  | trade :: rest, enclave =>
      let (takerReply, enclave) := perp.call (takerCall closePositionId leverage trade) enclave
      let (makerReply, enclave) := perp.call (makerCall leverage trade) enclave
      let takerError := settleError takerReply
      let makerError := settleError makerReply
      let (failed, enclave) := settleTrades closePositionId leverage rest enclave
      (if takerError.isSome || makerError.isSome then
        { trade, makerError, takerError } :: failed
      else failed, enclave)

end Settlement

/-- The batch published for one order. -/
def orderBatch (crypto : Crypto) (engine : TradingEngine) (order : Order) (trades : List Trade)
    (authorization : OrderAuthorization) (attestedMs : Nat) : OrderBatch where
  seqNum := engine.seqNum
  orders := [orderMessage order trades authorization.wire]
  stateHash := stateHash crypto engine.seqNum (trades.map tradeBytes) (attestedMs / 1_000)
  timestamp := attestedMs / 1_000
  sequencerId := engine.peerId

/-- Everything a submission leaves behind. -/
structure Submitted (σ : Type) where
  result : Except String OrderResult
  engine : TradingEngine
  enclave : σ
  published : Option OrderBatch

section Submit

variable {σ : Type} (perp : PerpClient σ) (crypto : Crypto)

/-- The available margin of the owner, which a closing order does not need. -/
def fetchAvailable (request : OrderRequest) (enclave : σ) : Except String (Option FP8) × σ :=
  match request.closePositionId with
  | some _ => (.ok none, enclave)
  | none =>
      let (balance, enclave) := perp.getBalance request.args.userId enclave
      ((readAvailable balance).map some, enclave)

/-- What is read from the enclave before the book is locked. -/
def readEnclave (request : OrderRequest) (enclave : σ)
    : Except String (Option FP8 × Nat) × σ :=
  match checkOwner request with
  | .error reason => (.error reason, enclave)
  | .ok () =>
      let (available, enclave) := fetchAvailable perp request enclave
      match available with
      | .error reason => (.error reason, enclave)
      | .ok available =>
          let (status, enclave) := perp.attestedClockStatus enclave
          ((readAttestedMs status).map (available, ·), enclave)

/-- Settlement and publication of a matched order. -/
def settleAndPublish (request : OrderRequest) (attestedMs : Nat) (engine : TradingEngine)
    (enclave : σ) (submission : Submission) : Submitted σ :=
  let order := { submission.order with closePositionId := request.closePositionId }
  if submission.trades = [] then
    { result := .ok ⟨order, submission.trades, [], submission.stpCancelled⟩
      engine
      enclave
      published := none }
  else
    let (failedFills, enclave) :=
      settleTrades perp request.closePositionId request.args.leverage submission.trades enclave
    { result := .ok ⟨order, submission.trades, failedFills, submission.stpCancelled⟩
      engine := if engine.publishes then { engine with seqNum := engine.seqNum + 1 } else engine
      enclave
      published :=
        if engine.publishes then
          some (orderBatch crypto engine order submission.trades request.authorization attestedMs)
        else none }

def submitOrderInner (request : OrderRequest) (clock : StpClock) (engine : TradingEngine)
    (enclave : σ) : Submitted σ :=
  let (admitted, enclave) := readEnclave perp request enclave
  match admitted with
  | .error reason => { result := .error reason, engine, enclave, published := none }
  | .ok (available, attestedMs) =>
      let (outcome, book) := lockedSubmit available attestedMs request.args clock engine.book
      let engine := { engine with book }
      match outcome with
      | .error reason => { result := .error reason, engine, enclave, published := none }
      | .ok submission => settleAndPublish perp crypto request attestedMs engine enclave submission

/-- `submit_order`: an order that opens positions. -/
def TradingEngine.submitOrder (authorization : OrderAuthorization) (args : SubmitArgs)
    (clock : StpClock) (engine : TradingEngine) (enclave : σ) : Submitted σ :=
  submitOrderInner perp crypto ⟨authorization, args, none⟩ clock engine enclave

/-- The terms of a closing order: reduce-only, at market, immediate or cancel. -/
def closeArgs (userId : String) (closeSide : Side) (size : FP8) (leverage : UInt32)
    : SubmitArgs where
  userId := userId
  side := closeSide
  orderType := .market
  price := .zero
  size := size
  leverage := leverage
  timeInForce := .ioc
  reduceOnly := true
  clientOrderId := none

/-- `submit_close_order`: the taker's fills close a position. -/
def TradingEngine.submitCloseOrder (authorization : OrderAuthorization) (userId : String)
    (closeSide : Side) (size : FP8) (leverage closePositionId : UInt32) (clock : StpClock)
    (engine : TradingEngine) (enclave : σ) : Submitted σ :=
  submitOrderInner perp crypto
    ⟨authorization, closeArgs userId closeSide size leverage, some closePositionId⟩ clock engine
    enclave

/-- Look up an order's owner without modifying the book. -/
def TradingEngine.orderOwner (engine : TradingEngine) (orderId : Nat) : Option String :=
  (engine.book.getOrder orderId).map Order.userId

end Submit

end PerpDex
