import PerpDex.Api.Reload
import PerpDex.Lib.Distinct
import PerpDex.OrderBook.Depth
import PerpDex.OrderBook.Quantities

/-! The event feed of the gateway.
A client that has read its orders once and then follows the events of its user channel knows
what rests on the book for it after every request, whatever else it subscribes to or drops.
-/

namespace PerpDex

open OrderBook

-----------------------------------------------------------------------------------------
-- Events
-----------------------------------------------------------------------------------------

/-- Events carrying a user go to that user's channel in addition to any public one. -/
inductive WsEvent where
  | trade (tradeId : Nat) (price size takerSide makerUserId takerUserId : String)
    (timestampMs : Nat)
  | orderbook (bids asks : List (String × String))
  | ticker (markPrice indexPrice : String) (timestamp : Nat)
  | liquidation (positionId : Nat) (userId price : String)
  | fill (userId : String) (orderId tradeId : Nat) (side role price size : String)
    (timestampMs : Nat)
  | orderUpdate (userId : String) (orderId : Nat) (status filled remaining : String)
    (clientOrderId : Option String)
  | positionChanged (userId reason : String)
deriving DecidableEq

namespace WsEvent

def publicChannel : WsEvent → Option String
  | .trade .. => some "trades"
  | .orderbook .. => some "orderbook"
  | .ticker .. => some "ticker"
  | .liquidation .. => some "liquidations"
  | .fill .. | .orderUpdate .. | .positionChanged .. => none

/-- The user of an event; a liquidation also fans out to its owner. -/
def userId : WsEvent → Option String
  | .fill userId .. | .orderUpdate userId .. | .positionChanged userId _
  | .liquidation _ userId _ => some userId
  | .trade .. | .orderbook .. | .ticker .. => none

def userChannel (userId : String) : String := "user:" ++ userId

/-- Is an event delivered to a client with these subscriptions? -/
def matchesAny (event : WsEvent) (channels : Finset String) : Bool :=
  event.publicChannel.any (fun channel => channel ∈ channels)
  || event.userId.any (fun userId => userChannel userId ∈ channels)

end WsEvent

/-- The `Debug` text of a status in lower case. -/
def OrderStatus.text : OrderStatus → String
  | .open => "open"
  | .partiallyFilled => "partiallyfilled"
  | .filled => "filled"
  | .cancelled => "cancelled"

/-- The lifecycle update for an order. -/
def orderUpdate (order : Order) : WsEvent :=
  .orderUpdate order.userId order.id order.status.text order.filled.display
    order.remaining.display order.clientOrderId

/-- A trade, one fill a side, and a hint to either side that its position changed. -/
def tradeEvents (trade : Trade) : List WsEvent :=
  [.trade trade.tradeId trade.price.display trade.size.display trade.takerSide.toString
      trade.makerUserId trade.takerUserId trade.timestampMs,
    .fill trade.takerUserId trade.takerOrderId trade.tradeId trade.takerSide.toString "taker"
      trade.price.display trade.size.display trade.timestampMs,
    .fill trade.makerUserId trade.makerOrderId trade.tradeId trade.takerSide.opposite.toString
      "maker" trade.price.display trade.size.display trade.timestampMs,
    .positionChanged trade.takerUserId "fill",
    .positionChanged trade.makerUserId "fill"]

def displayLevels (levels : List (FP8 × FP8)) : List (String × String) :=
  levels.map (fun level => (level.1.display, level.2.display))

/-- A snapshot of the book, after trades only. -/
def bookEvents (book : OrderBook) (trades : List Trade) : List WsEvent :=
  if trades.isEmpty then []
  else [.orderbook (displayLevels (book.depth 20).1) (displayLevels (book.depth 20).2)]

/-- What an accepted submission broadcasts. -/
def submitEvents (book : OrderBook) (order : Order) (trades : List Trade)
    (stpCancelled : List (Order × Int)) : List WsEvent :=
  trades.flatMap tradeEvents ++ bookEvents book trades ++ [orderUpdate order]
  ++ stpCancelled.map (fun cancelled => orderUpdate cancelled.1)

section Requests

variable {σ : Type} (perp : PerpClient σ) {crypto : Crypto}

/-- What the handler of a request broadcasts. -/
def AppState.events (state : AppState σ) : ApiRequest crypto → List WsEvent
  | .submitOrder binding request clock =>
      match submitOrderHandler perp crypto (some binding.1) request clock state with
      | (.ok result, next) =>
          submitEvents next.engine.book result.order result.trades result.stpCancelled
      | (.error _, _) => []
  | .cancelOrder user orderId =>
      match (cancelOrderHandler user orderId state).1 with
      | .ok order => [orderUpdate order]
      | .error _ => []
  | .cancelAllOrders (some userId) =>
      (state.engine.book.cancelAll userId).1.map orderUpdate
  | .cancelAllOrders none => []
  | .closePosition none _ _ _ => []
  | .closePosition (some user) binding positionId clock =>
      match
        (closePositionHandler perp crypto (some user) (some binding.1) positionId clock state).1
      with
      | .ok _ => [.positionChanged user.xrplAddress "close"]
      | .error _ => []

/-- What a run of requests broadcasts. -/
def AppState.feed (state : AppState σ) : List (ApiRequest crypto) → List WsEvent
  | [] => []
  | request :: rest => state.events perp request ++ (state.handle perp request).feed rest

end Requests

-----------------------------------------------------------------------------------------
-- The loop of a client's socket
-----------------------------------------------------------------------------------------

inductive ControlFrame where
  | subscribe (channels : List String)
  | unsubscribe (channels : List String)
  | set (channels : List String)
  | ping

/-- The subscriptions after a frame. -/
def ControlFrame.apply (channels : Finset String) : ControlFrame → Finset String
  | .subscribe add => channels ∪ add.toFinset
  | .unsubscribe remove => channels \ remove.toFinset
  | .set new => new.toFinset
  | .ping => channels

/-- What is sent on the socket. -/
inductive SocketMessage where
  | event (event : WsEvent)
  | error (message : String)
  | pong
  | subscribed (channels : Finset String)
  | pongFrame

/-- What comes from the client: a text as it parses, a ping, a frame without an effect, or the end
of the connection, which a message that cannot be sent is as well.
-/
inductive ClientFrame where
  | text (frame : Except String ControlFrame)
  | ping
  | other
  | close

/-- What reaches the loop: an event, a note that the receiver has missed some, or a frame. -/
inductive Incoming where
  | event (event : WsEvent)
  | lagged (skipped : Nat)
  | client (frame : ClientFrame)

def Incoming.event? : Incoming → Option WsEvent
  | .event sent => some sent
  | _ => none

def handleControl (channels : Finset String)
    : Except String ControlFrame → Finset String × SocketMessage
  | .error reason => (channels, .error s!"invalid control frame: {reason}")
  | .ok .ping => (channels, .pong)
  | .ok frame => (frame.apply channels, .subscribed (frame.apply channels))

/-- `client_loop`; a receiver that lags is only warned about. -/
def clientLoop : Finset String → List Incoming → List SocketMessage
  | _, [] => []
  | channels, .event sent :: rest =>
      if sent.matchesAny channels then .event sent :: clientLoop channels rest
      else clientLoop channels rest
  | channels, .client (.text frame) :: rest =>
      (handleControl channels frame).2 :: clientLoop (handleControl channels frame).1 rest
  | channels, .client .ping :: rest => .pongFrame :: clientLoop channels rest
  | channels, .lagged _ :: rest | channels, .client .other :: rest => clientLoop channels rest
  | _, .client .close :: _ => []

/-- The channels a client is subscribed to when it connects. -/
def defaultChannels : Finset String := {"trades", "orderbook", "ticker", "liquidations"}

/-- The channels after some control frames of a client. -/
def subscriptions (frames : List (Except String ControlFrame)) : Finset String :=
  frames.foldl (fun channels frame => (handleControl channels frame).1) defaultChannels

-----------------------------------------------------------------------------------------
-- The broadcast channel
-----------------------------------------------------------------------------------------

/-- How many events the channel holds. -/
def wsCapacity : Nat := 256

/-- What a receiver takes of the events that wait for it: one that has fallen behind the capacity
is told how many are gone, and goes on with the oldest that is held.
-/
def receive (waiting : List WsEvent) : Option Incoming × List WsEvent :=
  if wsCapacity < waiting.length then
    (some (.lagged (waiting.length - wsCapacity)), waiting.drop (waiting.length - wsCapacity))
  else
    match waiting with
    | [] => (none, [])
    | event :: rest => (some (.event event), rest)

/-- A receiver that is not behind takes the oldest event. -/
theorem receive_of_le {event : WsEvent} {others : List WsEvent}
    (inTime : (event :: others).length ≤ wsCapacity)
    : receive (event :: others) = (some (.event event), others) :=
  if_neg (Nat.not_lt.mpr inTime)

/-- The channel hands on no frames. -/
theorem receive_ne_client (waiting : List WsEvent) (frame : ClientFrame)
    : (receive waiting).1 ≠ some (.client frame) := by
  unfold receive
  split_ifs
  · exact nofun
  · cases waiting <;> exact nofun

/-- What happens to a client's loop: somebody broadcasts, the loop reads, or the client sends. -/
inductive Happening where
  | broadcast (event : WsEvent)
  | read
  | client (frame : ClientFrame)

def Happening.event? : Happening → Option WsEvent
  | .broadcast event => some event
  | _ => none

/-- The events that wait for the receiver afterwards. -/
def waitingAfter (waiting : List WsEvent) : Happening → List WsEvent
  | .broadcast event => waiting ++ [event]
  | .read => (receive waiting).2
  | .client _ => waiting

def arrival (waiting : List WsEvent) : Happening → Option Incoming
  | .broadcast _ => none
  | .read => (receive waiting).1
  | .client frame => some (.client frame)

/-- What reaches the loop of a receiver that some events wait for. -/
def arrivals : List WsEvent → List Happening → List Incoming
  | _, [] => []
  | waiting, happening :: rest =>
      (arrival waiting happening).toList ++ arrivals (waitingAfter waiting happening) rest

/-- The receiver is not behind the capacity when it reads. -/
def InTime (waiting : List WsEvent) (happening : Happening) : Prop :=
  happening = .read → waiting.length ≤ wsCapacity

/-- A receiver that is in time whenever it reads has read all events that do not wait for it, by
induction on what happens.
-/
theorem arrivals_waiting {waiting : List WsEvent} {happenings : List Happening}
    (inTime : Along waitingAfter InTime waiting happenings)
    : (arrivals waiting happenings).filterMap Incoming.event?
        ++ happenings.foldl waitingAfter waiting
      = waiting ++ happenings.filterMap Happening.event? := by
  induction happenings generalizing waiting with
  | nil => simp [arrivals]
  | cons happening rest ih =>
      rw [arrivals, List.filterMap_append, List.foldl_cons, List.append_assoc, ih inTime.2]
      cases happening with
      | broadcast event => simp [arrival, waitingAfter, Happening.event?]
      | client frame => rfl
      | read =>
          cases waiting with
          | nil => rfl
          | cons event others =>
              rw [arrival, waitingAfter, receive_of_le (inTime.1 rfl)]
              rfl

/-- The frames that reach the loop are those the client sent. -/
theorem client_of_mem_arrivals {waiting : List WsEvent} {happenings : List Happening}
    {frame : ClientFrame} (member : .client frame ∈ arrivals waiting happenings)
    : .client frame ∈ happenings := by
  induction happenings generalizing waiting with
  | nil => cases member
  | cons happening rest ih =>
      rcases List.mem_append.mp member with now | later
      · cases happening with
        | broadcast event => cases now
        | client sent =>
            rw [arrival, Option.toList_some, List.mem_singleton] at now
            rw [Incoming.client.inj now]
            exact List.mem_cons_self
        | read => exact absurd (Option.mem_toList.mp now) (receive_ne_client waiting frame)
      · exact List.mem_cons_of_mem _ (ih later)

-----------------------------------------------------------------------------------------
-- What a client makes of its events
-----------------------------------------------------------------------------------------

/-- What a client knows of an order that rests. -/
structure KnownOrder where
  filled : FP8
  remaining : FP8
deriving DecidableEq

/-- What is left of an order after a fill of it. -/
def KnownOrder.afterFill (known : KnownOrder) (size : FP8) : Option KnownOrder :=
  if (known.remaining.sub size).raw ≤ 0 then none
  else some ⟨known.filled.add size, known.remaining.sub size⟩

def readSize (text : String) : FP8 :=
  match FP8.fromStr text with
  | .ok value => value
  | .error _ => .zero

/-- An update is of an order that rests if it is open, or if it is partially filled and was known
to rest; a partially filled order that is not known is a taker that never rests.
-/
def KnownOrder.afterUpdate (known : Option KnownOrder) (status : String) (filled remaining : FP8)
    : Option KnownOrder :=
  if 0 < remaining.raw ∧ (status = "open" ∨ status = "partiallyfilled" ∧ known.isSome) then
    some ⟨filled, remaining⟩
  else none

/-- What an event tells a user about one of its orders. -/
def WsEvent.tells (userId : String) (orderId : Nat) (known : Option KnownOrder)
    : WsEvent → Option KnownOrder
  | .fill owner filledId _ _ role _ size _ =>
      if owner = userId ∧ filledId = orderId ∧ role = "maker" then
        known.bind (fun order => order.afterFill (readSize size))
      else known
  | .orderUpdate owner updatedId status filled remaining _ =>
      if owner = userId ∧ updatedId = orderId then
        KnownOrder.afterUpdate known status (readSize filled) (readSize remaining)
      else known
  | _ => known

/-- The orders of a user by id, as far as known. -/
abbrev KnownOrders := Nat → Option KnownOrder

def KnownOrders.follow (userId : String) (known : KnownOrders) : SocketMessage → KnownOrders
  | .event event => fun orderId => event.tells userId orderId (known orderId)
  | _ => known

/-- The resting orders of a user. -/
def OrderBook.ordersOf (book : OrderBook) (userId : String) : KnownOrders := fun orderId =>
  ((book.getOrder orderId).filter (fun order => order.userId = userId)).map
    (fun order => ⟨order.filled, order.remaining⟩)

-----------------------------------------------------------------------------------------
-- What a client is sent
-----------------------------------------------------------------------------------------

/-- Events a user is told about at one id, in order. -/
def told (userId : String) (orderId : Nat) (known : Option KnownOrder) (events : List WsEvent)
    : Option KnownOrder :=
  events.foldl (WsEvent.tells userId orderId) known

theorem told_append (userId : String) (orderId : Nat) (known : Option KnownOrder)
    (first second : List WsEvent)
    : told userId orderId known (first ++ second)
      = told userId orderId (told userId orderId known first) second :=
  List.foldl_append

/-- What is not on the channel of a user tells the user nothing. -/
theorem tells_of_unmatched {event : WsEvent} {channels : Finset String} {userId : String}
    (subscribed : WsEvent.userChannel userId ∈ channels)
    (unmatched : event.matchesAny channels = false) (orderId : Nat) (known : Option KnownOrder)
    : event.tells userId orderId known = known := by
  have other : event.userId ≠ some userId := by
    intro isTheirs
    simp [WsEvent.matchesAny, isTheirs, subscribed] at unmatched
  cases event with
  | fill owner =>
      have apart : owner ≠ userId := fun same => other (congrArg some same)
      exact if_neg (fun all => apart all.1)
  | orderUpdate owner =>
      have apart : owner ≠ userId := fun same => other (congrArg some same)
      exact if_neg (fun all => apart all.1)
  | _ => rfl

/-- A frame that leaves a client subscribed to a channel. -/
def ControlFrame.Keeps (channel : String) : ControlFrame → Prop
  | .subscribe _ | .ping => True
  | .unsubscribe remove => channel ∉ remove
  | .set new => channel ∈ new

theorem handleControl_keeps {channels : Finset String} {channel : String}
    (subscribed : channel ∈ channels) {frame : Except String ControlFrame}
    (keeps : ∀ parsed, frame = .ok parsed → parsed.Keeps channel)
    : channel ∈ (handleControl channels frame).1 := by
  cases frame with
  | error reason => exact subscribed
  | ok parsed =>
      have kept := keeps parsed rfl
      cases parsed with
      | subscribe add => exact Finset.mem_union_left _ subscribed
      | unsubscribe remove =>
          exact Finset.mem_sdiff.mpr
            ⟨subscribed, fun removed => kept (List.mem_toFinset.mp removed)⟩
      | set new => exact List.mem_toFinset.mpr kept
      | ping => exact subscribed

/-- Whatever frames come between the events, a client that stays on its channel is told all that
the events it reads have to tell, by induction on what reaches its loop.
-/
theorem follow_clientLoop {userId : String} {channels : Finset String} {incoming : List Incoming}
    (subscribed : WsEvent.userChannel userId ∈ channels)
    (connected : .client .close ∉ incoming)
    (keeps
      : ∀ frame, .client (.text (.ok frame)) ∈ incoming
        → frame.Keeps (WsEvent.userChannel userId))
    (known : KnownOrders) (orderId : Nat)
    : (clientLoop channels incoming).foldl (KnownOrders.follow userId) known orderId
      = told userId orderId (known orderId) (incoming.filterMap Incoming.event?) := by
  induction incoming generalizing channels known with
  | nil => rfl
  | cons first rest ih =>
      have still : .client .close ∉ rest := fun member => connected (List.mem_cons_of_mem _ member)
      have later := fun frame member => keeps frame (List.mem_cons_of_mem first member)
      cases first with
      | event event =>
          have front : (Incoming.event event :: rest).filterMap Incoming.event?
              = event :: rest.filterMap Incoming.event? := rfl
          rw [clientLoop, front, told, List.foldl_cons]
          split_ifs with matched
          · rw [List.foldl_cons, ih subscribed still later]
            rfl
          · rw [ih subscribed still later,
              tells_of_unmatched subscribed (Bool.eq_false_iff.mpr matched)]
            rfl
      | lagged skipped => exact ih subscribed still later known
      | client frame =>
          cases frame with
          | close => exact absurd List.mem_cons_self connected
          | ping => exact ih subscribed still later known
          | other => exact ih subscribed still later known
          | text frame =>
              have kept : WsEvent.userChannel userId ∈ (handleControl channels frame).1 :=
                handleControl_keeps subscribed
                  (fun parsed same => keeps parsed (same ▸ List.mem_cons_self))
              have front : (Incoming.client (.text frame) :: rest).filterMap Incoming.event?
                  = rest.filterMap Incoming.event? := rfl
              rw [clientLoop, front, List.foldl_cons, ih kept still later]
              cases frame with
              | error reason => rfl
              | ok parsed => cases parsed <;> rfl

/-- Only fills and updates are about orders. -/
def WsEvent.ofOrder : WsEvent → Bool
  | .fill .. | .orderUpdate .. => true
  | _ => false

/-- Events of other kinds tell nothing about orders, wherever they come. -/
theorem told_filter (userId : String) (orderId : Nat) (known : Option KnownOrder)
    (events : List WsEvent)
    : told userId orderId known (events.filter WsEvent.ofOrder)
      = told userId orderId known events := by
  induction events generalizing known with
  | nil => rfl
  | cons event rest ih =>
      cases event with
      | fill | orderUpdate => exact ih _
      | _ => exact ih known

-----------------------------------------------------------------------------------------
-- What a submission tells
-----------------------------------------------------------------------------------------

/-- Resting orders are open or partially filled. -/
def Live (book : OrderBook) : Prop :=
  ∀ orderId order, book.getOrder orderId = some order
    → order.status = .open ∨ order.status = .partiallyFilled

theorem readSize_display (value : FP8) : readSize value.display = value := by
  rw [readSize, FP8.fromStr_display]

/-- The events of a trade tell the owner of the maker about its fill. -/
theorem told_tradeEvents (userId : String) (orderId : Nat) (known : Option KnownOrder)
    (trade : Trade)
    : told userId orderId known (tradeEvents trade)
      = if trade.makerUserId = userId ∧ trade.makerOrderId = orderId then
          known.bind (fun order => order.afterFill trade.size)
        else known := by
  simp [told, tradeEvents, WsEvent.tells, readSize_display]

/-- An update tells its owner whether the order rests. -/
theorem told_orderUpdate (userId : String) (orderId : Nat) (known : Option KnownOrder)
    (order : Order)
    : told userId orderId known [orderUpdate order]
      = if order.userId = userId ∧ order.id = orderId then
          KnownOrder.afterUpdate known order.status.text order.filled order.remaining
        else known := by
  simp [told, orderUpdate, WsEvent.tells, readSize_display]

theorem told_bookEvents (userId : String) (orderId : Nat) (known : Option KnownOrder)
    (book : OrderBook) (trades : List Trade)
    : told userId orderId known (bookEvents book trades) = known := by
  rw [bookEvents]
  split_ifs <;> rfl

/-- The text of a status says whether an order is open. -/
theorem OrderStatus.text_eq_open {status : OrderStatus}
    : status.text = "open" ↔ status = .open := by
  cases status <;> decide

/-- An update of an order that rests, or of one that is not known to, says so. -/
theorem afterUpdate_open {known : Option KnownOrder} {status : OrderStatus} {filled remaining : FP8}
    (rests : status = .open ∨ status = .partiallyFilled ∧ known.isSome)
    (positive : 0 < remaining.raw)
    : KnownOrder.afterUpdate known status.text filled remaining = some ⟨filled, remaining⟩ := by
  rw [KnownOrder.afterUpdate, if_pos]
  refine ⟨positive, ?_⟩
  rcases rests with rfl | ⟨rfl, isKnown⟩
  · exact .inl rfl
  · exact .inr ⟨rfl, isKnown⟩

/-- An update of a cancelled order says that it is gone. -/
theorem afterUpdate_cancelled (known : Option KnownOrder) (filled remaining : FP8)
    : KnownOrder.afterUpdate known OrderStatus.cancelled.text filled remaining = none := by
  simp [KnownOrder.afterUpdate, OrderStatus.text]

/-- What a user knows of an order that it finds in the book. -/
theorem ordersOf_found {book : OrderBook} {userId : String} {orderId : Nat} {order : Order}
    (found : book.getOrder orderId = some order)
    : book.ordersOf userId orderId
      = if order.userId = userId then some ⟨order.filled, order.remaining⟩ else none := by
  rw [OrderBook.ordersOf, found]
  by_cases theirs : order.userId = userId <;> simp [Option.filter, theirs]

theorem ordersOf_missing {book : OrderBook} {userId : String} {orderId : Nat}
    (missing : book.getOrder orderId = none)
    : book.ordersOf userId orderId = none := by
  rw [OrderBook.ordersOf, missing]
  rfl

theorem ordersOf_congr {book next : OrderBook} {userId : String} {orderId : Nat}
    (same : next.getOrder orderId = book.getOrder orderId)
    : next.ordersOf userId orderId = book.ordersOf userId orderId := by
  rw [OrderBook.ordersOf, OrderBook.ordersOf, same]

section Submit

variable {book next : OrderBook} {args : SubmitArgs} {submission : Submission}
  {shares : List Share} {userId : String} {orderId : Nat}

/-- What a share of a maker at an id tells its owner. -/
def toldOfShare (taker userId : String) (known : Option KnownOrder) (share : Share)
    : Option KnownOrder :=
  if share.1.userId = userId then
    if share.1.userId = taker then
      KnownOrder.afterUpdate known (shareDecrement share).1.status.text
        (shareDecrement share).1.filled (shareDecrement share).1.remaining
    else known.bind (fun order => order.afterFill (FP8.ofRaw share.2))
  else known

/-- The trades tell of the shares of other users' makers. -/
theorem told_trades (effect : SubmitEffect book args submission next shares)
    (known : Option KnownOrder)
    : told userId orderId known (submission.trades.flatMap tradeEvents)
      = (foreignShares args.userId shares).foldl
          (fun known share =>
            if share.1.userId = userId ∧ share.1.id = orderId then
              known.bind (fun order => order.afterFill (FP8.ofRaw share.2))
            else known)
          known := by
  rw [effect.trades]
  generalize foreignShares args.userId shares = foreign
  generalize book.nextTradeId = tradeId
  induction foreign generalizing tradeId known with
  | nil => rfl
  | cons share rest ih =>
      rw [shareTrades, List.flatMap_cons, told_append, told_tradeEvents, ih]
      rfl

/-- The updates for decremented makers tell of the shares of the taker's own. -/
theorem told_decrements (effect : SubmitEffect book args submission next shares)
    (known : Option KnownOrder)
    : told userId orderId known
        (submission.stpCancelled.map (fun cancelled => orderUpdate cancelled.1))
      = (ownShares args.userId shares).foldl
          (fun known share =>
            if share.1.userId = userId ∧ share.1.id = orderId then
              KnownOrder.afterUpdate known (shareDecrement share).1.status.text
                (shareDecrement share).1.filled (shareDecrement share).1.remaining
            else known)
          known := by
  rw [effect.decrements, List.map_map]
  generalize ownShares args.userId shares = own
  induction own generalizing known with
  | nil => rfl
  | cons share rest ih =>
      have first := told_orderUpdate userId orderId known (shareDecrement share).1
      rw [told, List.foldl_cons, List.foldl_nil] at first
      rw [List.map_cons, told, List.foldl_cons, Function.comp_apply, first, List.foldl_cons]
      exact ih _

/-- A submission tells a user of the share that its maker at an id gave up, and of the order
itself.
-/
theorem told_submitEvents (inv : BookInv book)
    (effect : SubmitEffect book args submission next shares) (known : Option KnownOrder)
    : told userId orderId known
        (submitEvents next submission.order submission.trades submission.stpCancelled)
      = if orderId = book.nextOrderId then
          if args.userId = userId then
            KnownOrder.afterUpdate known submission.order.status.text submission.order.filled
              submission.order.remaining
          else known
        else
          match shareOf shares orderId with
          | some share => toldOfShare args.userId userId known share
          | none => known := by
  have distinct := effect.share_distinct inv
  have orderUser : submission.order.userId = args.userId := by rw [effect.terms]; rfl
  have orderIs : submission.order.id = book.nextOrderId := by rw [effect.terms]; rfl
  have atKey : ∀ (keep : Share → Bool) (tell : Option KnownOrder → Share → Option KnownOrder)
      (known : Option KnownOrder),
      (shares.filter keep).foldl
          (fun known share =>
            if share.1.userId = userId ∧ share.1.id = orderId then tell known share else known)
          known
        = ((shareOf shares orderId).filter keep).elim known
            (fun share => if share.1.userId = userId then tell known share else known) := by
    intro keep tell known
    rw [Distinct.foldl_at_key (distinct.sublist (List.filter_sublist.map _)) orderId _
      (fun share _ apart known => if_neg (fun both => apart both.2)),
      Distinct.find?_filter_key distinct]
    cases found : (shares.find? (fun share => share.1.id = orderId)).filter keep with
    | none => rw [shareOf, found]; rfl
    | some share =>
        obtain ⟨isShare, _⟩ := Option.filter_eq_some_iff.mp found
        have isId : share.1.id = orderId := (shareOf_some isShare).2
        rw [shareOf, found]
        simp [isId]
  rw [submitEvents, told_append, told_append, told_append, told_trades effect, told_bookEvents,
    told_orderUpdate, told_decrements effect, foreignShares, ownShares, atKey, atKey, orderUser,
    orderIs]
  cases found : shareOf shares orderId with
  | none =>
      simp only [Option.filter_none, Option.elim_none]
      by_cases isOwn : orderId = book.nextOrderId
      · by_cases theirs : args.userId = userId <;> simp [isOwn, theirs]
      · simp [isOwn, Ne.symm isOwn]
  | some share =>
      obtain ⟨present, isId⟩ := shareOf_some found
      have old : orderId ≠ book.nextOrderId := by
        rw [← isId]
        exact (inv.issued _ (effect.share_resting present)).ne
      rw [if_neg old, if_neg (fun both => old both.2.symm)]
      by_cases own : share.1.userId = args.userId
      · simp [toldOfShare, Option.filter, own]
      · simp [toldOfShare, Option.filter, own]


/-- A share tells its owner what the book then holds of the maker. -/
theorem toldOfShare_eq (inv : BookInv book) (live : Live book)
    (effect : SubmitEffect book args submission next shares) {share : Share}
    (present : share ∈ shares)
    : toldOfShare args.userId userId (book.ordersOf userId share.1.id) share
      = next.ordersOf userId share.1.id := by
  have found := (getOrder_eq_some_iff inv).mpr ⟨effect.share_resting present, rfl⟩
  have after := effect.lookup_share inv present
  have unfilled := effect.share_unfilled inv present
  obtain ⟨positive, within⟩ := effect.share_bounds inv present
  have amount := effect.share_amount inv present
  have remaining := unfilled.sane.remaining_open
  rw [toldOfShare, ordersOf_found found]
  by_cases theirs : share.1.userId = userId
  · rw [if_pos theirs, if_pos theirs]
    cases left : shareLeft args.userId share with
    | none =>
        have whole := shareLeft_eq_none left
        rw [ordersOf_missing (after.trans left)]
        split_ifs with own
        · have cancelled : (shareDecrement share).1.status = .cancelled := if_pos whole
          rw [cancelled, afterUpdate_cancelled]
        · have used : (share.1.remaining.sub (FP8.ofRaw share.2)).raw ≤ 0 := by
            rw [FP8.sub, FP8.raw_wrap, remaining, amount, whole, sub_self]
            exact le_of_eq (wrapI64_eq ⟨by decide, by decide⟩)
          rw [Option.bind_some, KnownOrder.afterFill, if_pos used]
    | some order =>
        obtain ⟨orderUnfilled, opens⟩ := shareLeft_open unfilled positive within left
        have more : 0 < order.remaining.raw := by
          rw [orderUnfilled.sane.remaining_open]
          exact sub_pos.mpr orderUnfilled.2
        have user : order.userId = userId := by rw [shareLeft_terms left, theirs]
        have short : share.2 ≠ share.1.openRaw := fun whole => by simp [shareLeft, whole] at left
        rw [ordersOf_found (after.trans left), if_pos user]
        split_ifs with own
        · have same : (shareDecrement share).1 = order := by
            rw [shareLeft, if_neg short, if_pos own] at left
            rw [shareDecrement, if_neg short]
            exact Option.some.inj left
          have status : order.status = share.1.status := by
            rw [← same, shareDecrement, if_neg short]
          rw [same]
          refine afterUpdate_open ?_ more
          rw [status]
          exact (live _ _ found).imp_right (fun partly => ⟨partly, rfl⟩)
        · have rest : (share.1.remaining.sub (FP8.ofRaw share.2)) = order.remaining := by
            refine FP8.ext ?_
            rw [FP8.sub, FP8.raw_wrap, remaining, amount, ← opens,
              ← orderUnfilled.sane.remaining_open]
            exact wrapI64_eq order.remaining.inRange
          have grown : share.1.filled.add (FP8.ofRaw share.2) = order.filled := by
            rw [shareLeft, if_neg short] at left
            rw [← Option.some.inj left, FP8.add, amount]
          rw [Option.bind_some, KnownOrder.afterFill, rest, grown, if_neg (not_le.mpr more)]
  · rw [if_neg theirs, if_neg theirs]
    cases left : shareLeft args.userId share with
    | none => exact (ordersOf_missing (after.trans left)).symm
    | some order =>
        have user : order.userId ≠ userId := by rwa [shareLeft_terms left]
        rw [ordersOf_found (after.trans left), if_neg user]

/-- The book after a submission at the id of the submitted order. -/
theorem lookup_submitted (inv : BookInv book)
    (effect : SubmitEffect book args submission next shares)
    : next.getOrder book.nextOrderId
      = if persists submission.order then some submission.order else none := by
  rw [effect.lookup]
  by_cases kept : persists submission.order = true
  · rw [if_pos ⟨kept, rfl⟩, if_pos kept]
  · rw [if_neg (fun both => kept both.1), if_neg kept]
    cases shared : shareOf shares book.nextOrderId with
    | none => exact getOrder_unissued inv le_rfl
    | some share =>
        obtain ⟨present, isId⟩ := shareOf_some shared
        exact absurd isId (inv.issued _ (effect.share_resting present)).ne

/-- A submission tells every user what it did to its orders. -/
theorem told_submit (inv : BookInv book) (live : Live book)
    (effect : SubmitEffect book args submission next shares)
    : told userId orderId (book.ordersOf userId orderId)
        (submitEvents next submission.order submission.trades submission.stpCancelled)
      = next.ordersOf userId orderId := by
  have user : submission.order.userId = args.userId := by rw [effect.terms]; rfl
  rw [told_submitEvents inv effect]
  by_cases isNew : orderId = book.nextOrderId
  · -- the submitted order itself rests exactly if it is to be persisted
    subst isNew
    have lookup := lookup_submitted inv effect
    rw [if_pos rfl, ordersOf_missing (getOrder_unissued inv le_rfl)]
    by_cases kept : persists submission.order = true
    · rw [if_pos kept] at lookup
      simp only [persists, Bool.and_eq_true, decide_eq_true_eq] at kept
      rw [ordersOf_found lookup, user, afterUpdate_open (.inl kept.1) kept.2]
    · rw [if_neg kept] at lookup
      have unknown : KnownOrder.afterUpdate none submission.order.status.text
          submission.order.filled submission.order.remaining = none := by
        refine if_neg ?_
        rintro ⟨positive, isOpen | ⟨_, isKnown⟩⟩
        · refine kept ?_
          rw [persists, OrderStatus.text_eq_open.mp isOpen]
          simpa using positive
        · cases isKnown
      rw [ordersOf_missing lookup, unknown, ite_self]
  · rw [if_neg isNew]
    cases shared : shareOf shares orderId with
    | none =>
        refine (ordersOf_congr ?_).symm
        rw [effect.lookup, if_neg (fun both => isNew both.2), shared]
    | some share =>
        obtain ⟨present, rfl⟩ := shareOf_some shared
        exact toldOfShare_eq inv live effect present

/-- A submission leaves open and partially filled orders. -/
theorem Live.submit (inv : BookInv book) (live : Live book)
    (effect : SubmitEffect book args submission next shares)
    : Live next := by
  intro orderId order found
  rw [effect.lookup] at found
  split_ifs at found with own
  · have kept := own.1
    simp only [persists, Bool.and_eq_true, decide_eq_true_eq] at kept
    exact .inl (Option.some.inj found ▸ kept.1)
  · cases shared : shareOf shares orderId with
    | none =>
        rw [shared] at found
        exact live orderId order found
    | some share =>
        rw [shared] at found
        have maker := (getOrder_eq_some_iff inv).mpr
          ⟨effect.share_resting (shareOf_some shared).1, rfl⟩
        rcases shareLeft_status found with same | partly
        · rw [same]
          exact live _ _ maker
        · exact .inr partly

/-- A market order that finds none of a user's orders on its opposite side tells that user all it
does by saying nothing.
-/
theorem SubmitEffect.untold (inv : BookInv book)
    (effect : SubmitEffect book args submission next shares) (market : args.orderType = .market)
    (none : ∀ order ∈ book.restingOrders, order.side = args.side.opposite → order.userId ≠ userId)
    : next.ordersOf userId orderId = book.ordersOf userId orderId := by
  have gone : ¬ persists submission.order = true := by
    intro kept
    have resting := effect.resting kept
    have isMarket : (book.newOrder args).orderType = .market := market
    simp [restsAfter, isMarket] at resting
  have after := effect.lookup orderId
  rw [if_neg (fun both => gone both.1)] at after
  cases shared : shareOf shares orderId with
  | none =>
      rw [shared] at after
      exact ordersOf_congr after
  | some share =>
      obtain ⟨present, rfl⟩ := shareOf_some shared
      rw [shared] at after
      have member := effect.share_resting present
      have side : share.1.side = args.side.opposite := by
        rcases effect.taken with ⟨nothing, _⟩ | taken
        · rw [nothing] at present
          exact absurd present List.not_mem_nil
        · rw [taken] at present
          have queued := List.mem_of_mem_filter (allot_maker present)
          exact ((inv.levels args.side.opposite).restsAt queued).side
      have foreign := none share.1 member side
      rw [ordersOf_found ((getOrder_eq_some_iff inv).mpr ⟨member, rfl⟩), if_neg foreign]
      cases left : shareLeft args.userId share with
      | none => exact ordersOf_missing (after.trans left)
      | some order =>
          have user : order.userId ≠ userId := by rwa [shareLeft_terms left]
          rw [ordersOf_found (after.trans left), if_neg user]

end Submit

-----------------------------------------------------------------------------------------
-- What a cancellation tells
-----------------------------------------------------------------------------------------

section Cancel

variable {book next : OrderBook} {gone : List Nat} {userId : String} {orderId : Nat}

theorem ordersOf_lost
    (others
      : ∀ orderId, next.getOrder orderId = if orderId ∈ gone then none else book.getOrder orderId)
    : next.ordersOf userId orderId
      = if orderId ∈ gone then none else book.ordersOf userId orderId := by
  split_ifs with lost
  · exact ordersOf_missing (by rw [others, if_pos lost])
  · exact ordersOf_congr (by rw [others, if_neg lost])

theorem Live.delete (live : Live book)
    (others
      : ∀ orderId, next.getOrder orderId = if orderId ∈ gone then none else book.getOrder orderId)
    : Live next := by
  intro orderId order found
  rw [others] at found
  split_ifs at found
  exact live orderId order found

/-- Updates of cancelled orders tell their owner that they are gone. -/
theorem told_cancelled {orders : List Order}
    (cancelled : ∀ order ∈ orders, order.status = .cancelled) (known : Option KnownOrder)
    : told userId orderId known (orders.map orderUpdate)
      = if ∃ order ∈ orders, order.userId = userId ∧ order.id = orderId then none else known := by
  induction orders generalizing known with
  | nil => simp [told]
  | cons order rest ih =>
      obtain ⟨first, others⟩ := List.forall_mem_cons.mp cancelled
      rw [List.map_cons, ← List.singleton_append, told_append, told_orderUpdate, first,
        afterUpdate_cancelled, ih others]
      simp only [List.exists_mem_cons_iff]
      by_cases here : order.userId = userId ∧ order.id = orderId
      · simp [here]
      · simp [here]

/-- Cancelling an order tells its owner, and nobody else has lost any. -/
theorem told_cancelOrder {order : Order} (found : book.getOrder order.id = some order)
    (others
      : ∀ other, next.getOrder other = if other = order.id then none else book.getOrder other)
    : told userId orderId (book.ordersOf userId orderId)
        [orderUpdate { order with status := .cancelled }]
      = next.ordersOf userId orderId := by
  have lost := @ordersOf_lost book next [order.id] userId orderId
    (fun other => by rw [others]; simp)
  have tells := @told_cancelled userId orderId [{ order with status := .cancelled }] (by simp)
    (book.ordersOf userId orderId)
  rw [List.map_singleton] at tells
  rw [lost, tells]
  by_cases same : orderId = order.id
  · subst same
    by_cases theirs : order.userId = userId <;> simp [ordersOf_found found, theirs]
  · simp [same, Ne.symm same]

/-- Cancelling all orders of a user tells that user about each. -/
theorem told_cancelAll (inv : BookInv book) (owner : String)
    : told userId orderId (book.ordersOf userId orderId)
        ((book.cancelAll owner).1.map orderUpdate)
      = (book.cancelAll owner).2.ordersOf userId orderId := by
  have cancelled : ∀ order ∈ (book.cancelAll owner).1, order.status = .cancelled := by
    intro order member
    obtain ⟨_, _, rfl⟩ := List.mem_map.mp member
    rfl
  rw [told_cancelled cancelled, ordersOf_lost (cancelAll_lookup inv owner)]
  have listed : (∃ order ∈ (book.cancelAll owner).1, order.userId = userId ∧ order.id = orderId)
      ↔ owner = userId ∧ orderId ∈ (book.cancelAll owner).1.map Order.id := by
    simp only [OrderBook.cancelAll, OrderBook.userOrders, List.mem_map, List.mem_filter,
      decide_eq_true_eq]
    constructor
    · rintro ⟨_, ⟨order, ⟨member, isOwner⟩, rfl⟩, user, isId⟩
      exact ⟨isOwner.symm.trans user, _, ⟨order, ⟨member, isOwner⟩, rfl⟩, isId⟩
    · rintro ⟨same, _, ⟨order, ⟨member, isOwner⟩, rfl⟩, isId⟩
      exact ⟨_, ⟨order, ⟨member, isOwner⟩, rfl⟩, isOwner.trans same, isId⟩
  by_cases theirs : owner = userId
  · subst theirs
    simp only [listed, true_and]
  · rw [if_neg (fun given => theirs (listed.mp given).1)]
    split_ifs with lost
    · obtain ⟨_, member, rfl⟩ := List.mem_map.mp lost
      obtain ⟨order, isTheirs, rfl⟩ := List.mem_map.mp member
      obtain ⟨resting, isOwner⟩ := List.mem_filter.mp isTheirs
      have found := (getOrder_eq_some_iff inv).mpr ⟨resting, rfl⟩
      have foreign : order.userId ≠ userId := by
        rwa [of_decide_eq_true isOwner]
      exact (ordersOf_found found).trans (if_neg foreign)
    · rfl

end Cancel

-----------------------------------------------------------------------------------------
-- Runs of requests
-----------------------------------------------------------------------------------------

/-- The book is well formed and its orders are open or partially filled. -/
structure FeedInv (book : OrderBook) : Prop where
  wellFormed : BookInv book
  live : Live book

theorem FeedInv.congr {book other : OrderBook} (inv : FeedInv book) (same : SameOrders book other)
    : FeedInv other :=
  ⟨same.inv inv.wellFormed, fun orderId order found =>
    inv.live orderId order ((same.getOrder orderId).symm.trans found)⟩

section Runs

variable {σ : Type} (perp : PerpClient σ) {crypto : Crypto} (userId : String)

/-- The condition under which a request tells a user of all it does: no order of the user stands
where an accepted close trades.
-/
def Announced (state : AppState σ) : ApiRequest crypto → Prop
  | .closePosition (some user) binding positionId clock =>
      ∀ balance closeSide size,
        (perp.getBalance user.xrplAddress state.enclave).1 = .ok balance
        → closeTarget user.xrplAddress positionId balance = .ok (closeSide, size)
        → engineAccepts perp
            (closeRequest binding.1 user.xrplAddress closeSide size positionId) clock state.engine
            (perp.getBalance user.xrplAddress state.enclave).2
        → ∀ order ∈ state.engine.book.restingOrders,
            order.side = closeSide.opposite → order.userId ≠ userId
  | _ => True

/-- A request keeps the invariant, and tells a user about its orders. -/
structure Informs (state : AppState σ) (request : ApiRequest crypto) : Prop where
  keeps : FeedInv (state.handle perp request).engine.book
  tells
    : Announced perp userId state request
      → ∀ orderId,
          told userId orderId (state.engine.book.ordersOf userId orderId)
              (state.events perp request)
            = (state.handle perp request).engine.book.ordersOf userId orderId

variable {perp userId} {state : AppState σ}

theorem Informs.submitOrder (inv : FeedInv state.engine.book) (binding : SignedBinding crypto)
    (request : SubmitOrderRequest) (clock : StpClock)
    : Informs perp userId state (.submitOrder binding request clock) := by
  suffices holds : FeedInv (state.handle perp (.submitOrder binding request clock)).engine.book
      ∧ ∀ orderId,
          told userId orderId (state.engine.book.ordersOf userId orderId)
              (state.events perp (.submitOrder binding request clock))
            = (state.handle perp (.submitOrder binding request clock)).engine.book.ordersOf userId
                orderId from
    ⟨holds.1, fun _ => holds.2⟩
  simp only [AppState.handle, AppState.events, submitOrderHandler]
  cases state.isSequencer with
  | false => exact ⟨inv, fun _ => rfl⟩
  | true =>
      cases parseSubmit request with
      | error error => exact ⟨inv, fun _ => rfl⟩
      | ok args =>
          simp only [Bool.not_true, Bool.false_eq_true, if_false, TradingEngine.submitOrder]
          rcases submitOrderInner_outcome perp crypto inv.wellFormed
            (signedRequest binding.1 args) clock state.enclave with ⟨reason, failed, same⟩
            | ⟨attestedMs, submission, shares, failedFills, succeeded, _, _, keeps, effect⟩
          · simp only [signedRequest] at failed same
            simp only [failed]
            exact ⟨inv.congr same, fun orderId => (ordersOf_congr (same.getOrder orderId)).symm⟩
          · have clocked : BookInv (state.engine.book.setAttestedMs attestedMs) :=
              inv.wellFormed.congr rfl rfl le_rfl
            have sameOrder : { submission.order with closePositionId := none }
                = submission.order := by
              rw [effect.terms]
              rfl
            simp only [signedRequest, sameOrder] at succeeded keeps effect
            simp only [succeeded]
            refine ⟨⟨keeps, Live.submit clocked inv.live effect⟩, fun orderId => ?_⟩
            have tells := @told_submit _ _ _ _ _ userId orderId clocked inv.live effect
            exact tells

theorem Informs.cancelOrder (inv : FeedInv state.engine.book) (user : Option AuthenticatedUser)
    (orderId : Nat)
    : Informs perp userId state (.cancelOrder user orderId : ApiRequest crypto) := by
  suffices holds
      : FeedInv (state.handle perp (.cancelOrder user orderId : ApiRequest crypto)).engine.book
        ∧ ∀ other,
            told userId other (state.engine.book.ordersOf userId other)
                (state.events perp (.cancelOrder user orderId : ApiRequest crypto))
              = (state.handle perp
                  (.cancelOrder user orderId : ApiRequest crypto)).engine.book.ordersOf userId
                  other from
    ⟨holds.1, fun _ => holds.2⟩
  simp only [AppState.handle, AppState.events, cancelOrderHandler]
  split_ifs
  · exact ⟨inv, fun _ => rfl⟩
  · have keeps := inv.wellFormed.cancelOrder orderId
    have outcome := cancelOrder_outcome inv.wellFormed orderId
    generalize state.engine.book.cancelOrder orderId = result at outcome keeps ⊢
    cases outcome with
    | missing _ => exact ⟨inv, fun _ => rfl⟩
    | @removed order next found others _ =>
        obtain rfl : order.id = orderId := ((getOrder_eq_some_iff inv.wellFormed).mp found).2
        have lost : ∀ other, next.getOrder other
            = if other ∈ [order.id] then none else state.engine.book.getOrder other := by
          intro other
          rw [others]
          simp
        exact ⟨⟨keeps, inv.live.delete lost⟩, fun _ => told_cancelOrder found others⟩

theorem Informs.cancelAllOrders (inv : FeedInv state.engine.book) (owner : Option String)
    : Informs perp userId state (.cancelAllOrders owner : ApiRequest crypto) := by
  cases owner with
  | none => exact ⟨inv, fun _ _ => rfl⟩
  | some owner =>
      have lost := cancelAll_lookup inv.wellFormed owner
      exact ⟨⟨inv.wellFormed.cancelAll owner, inv.live.delete lost⟩,
        fun _ _ => told_cancelAll inv.wellFormed owner⟩

/-- A close says nothing about any order. -/
theorem told_close (user : Option AuthenticatedUser) (binding : SignedBinding crypto)
    (positionId : Nat) (clock : StpClock) (orderId : Nat) (known : Option KnownOrder)
    : told userId orderId known (state.events perp (.closePosition user binding positionId clock))
      = known := by
  cases user with
  | none => rfl
  | some user =>
      simp only [AppState.events]
      split <;> rfl

/-- A close leaves the book as it was, or as the engine leaves it for the closing order. -/
theorem close_cases (user : AuthenticatedUser) (binding : SignedBinding crypto) (positionId : Nat)
    (clock : StpClock)
    : (state.handle perp (.closePosition (some user) binding positionId clock)).engine.book
        = state.engine.book
      ∨ ∃ balance closeSide size,
          (perp.getBalance user.xrplAddress state.enclave).1 = .ok balance
          ∧ closeTarget user.xrplAddress positionId balance = .ok (closeSide, size)
          ∧ (state.handle perp (.closePosition (some user) binding positionId clock)).engine.book
            = (submitOrderInner perp crypto
                (closeRequest binding.1 user.xrplAddress closeSide size positionId) clock
                state.engine (perp.getBalance user.xrplAddress state.enclave).2).engine.book := by
  simp only [AppState.handle, closePositionHandler]
  cases replied : (perp.getBalance user.xrplAddress state.enclave).1 with
  | error reason => exact .inl rfl
  | ok balance =>
      simp only
      cases target : closeTarget user.xrplAddress positionId balance with
      | error error => exact .inl rfl
      | ok terms =>
          refine .inr ⟨balance, terms.1, terms.2, rfl, target, ?_⟩
          simp only [TradingEngine.submitCloseOrder, closeRequest]
          split
          · rfl
          · split_ifs <;> rfl

theorem Informs.closePosition (inv : FeedInv state.engine.book) (user : Option AuthenticatedUser)
    (binding : SignedBinding crypto) (positionId : Nat) (clock : StpClock)
    : Informs perp userId state (.closePosition user binding positionId clock) := by
  suffices holds
      : FeedInv (state.handle perp (.closePosition user binding positionId clock)).engine.book
        ∧ (Announced perp userId state (.closePosition user binding positionId clock)
          → ∀ orderId,
              (state.handle perp
                  (.closePosition user binding positionId clock)).engine.book.ordersOf userId
                  orderId
                = state.engine.book.ordersOf userId orderId) from
    ⟨holds.1, fun announced orderId => by rw [told_close, holds.2 announced]⟩
  cases user with
  | none => exact ⟨inv, fun _ _ => rfl⟩
  | some user =>
      rcases close_cases user binding positionId clock with same
        | ⟨balance, closeSide, size, replied, target, closed⟩
      · rw [same]
        exact ⟨inv, fun _ _ => rfl⟩
      · rw [closed]
        rcases submitOrderInner_outcome perp crypto inv.wellFormed
          (closeRequest binding.1 user.xrplAddress closeSide size positionId) clock
          (perp.getBalance user.xrplAddress state.enclave).2 with ⟨_, _, same⟩
          | ⟨attestedMs, submission, shares, _, _, _, accepted, keeps, effect⟩
        · exact ⟨inv.congr same, fun _ orderId => ordersOf_congr (same.getOrder orderId)⟩
        · have clocked : BookInv (state.engine.book.setAttestedMs attestedMs) :=
            inv.wellFormed.congr rfl rfl le_rfl
          refine ⟨⟨keeps, Live.submit clocked inv.live effect⟩, fun announced orderId => ?_⟩
          have untold := @SubmitEffect.untold _ _ _ _ _ userId orderId clocked effect rfl
            (announced balance closeSide size replied target accepted)
          exact untold

/-- One request that is announced tells a user about its orders, by cases on the request. -/
theorem Informs.handle (inv : FeedInv state.engine.book) (request : ApiRequest crypto)
    : Informs perp userId state request := by
  cases request with
  | submitOrder binding request clock => exact .submitOrder inv binding request clock
  | cancelOrder user orderId => exact .cancelOrder inv user orderId
  | cancelAllOrders owner => exact .cancelAllOrders inv owner
  | closePosition user binding positionId clock =>
      exact .closePosition inv user binding positionId clock

/-- Any request keeps the invariant, whatever is announced. -/
theorem FeedInv.run (inv : FeedInv state.engine.book) (requests : List (ApiRequest crypto))
    : FeedInv (state.run perp requests).engine.book :=
  run_invariant (fun state : AppState σ => FeedInv state.engine.book)
    (fun _ request inv => (@Informs.handle _ perp _ "" _ inv request).keeps) inv requests

/-- A run whose requests are all announced to a user tells it about its orders, by induction on the
requests.
-/
theorem told_feed (inv : FeedInv state.engine.book) {requests : List (ApiRequest crypto)}
    (announced : Along (AppState.handle perp) (Announced perp userId) state requests)
    (orderId : Nat)
    : told userId orderId (state.engine.book.ordersOf userId orderId) (state.feed perp requests)
      = (state.run perp requests).engine.book.ordersOf userId orderId := by
  induction requests generalizing state with
  | nil => rfl
  | cons request rest ih =>
      have first : Informs perp userId state request := .handle inv request
      rw [AppState.feed, told_append, first.tells announced.1, ih first.keeps announced.2]
      rfl

end Runs

theorem FeedInv.initial {σ : Type} (market peerId : String) (publishes isSequencer : Bool)
    (enclave : σ)
    : FeedInv (AppState.initial market peerId publishes isSequencer enclave).engine.book where
  wellFormed := .new market
  live := fun _ _ found => absurd found (by simp [AppState.initial, TradingEngine.new,
    OrderBook.getOrder, OrderBook.new, OrderBook.restingOrders, BTreeMap.values, BTreeMap.empty])

/-- A client that reads the orders of a user while no event waits for it, and then follows what its
socket is sent, knows with what still waits for it which of the orders rest, with what is filled
and what is left, after any further requests that are announced to the user. It has to stay
connected and on the channel of the user, and to be in time whenever it reads; other frames, and
events of other kinds wherever they are broadcast, change nothing.
-/
theorem feed_tells_orders {σ : Type} (perp : PerpClient σ) (crypto : Crypto)
    (market peerId : String) (publishes isSequencer : Bool) (enclave : σ)
    (earlier later : List (ApiRequest crypto)) (userId : String)
    (frames : List (Except String ControlFrame)) (happenings : List Happening)
    (announced
      : Along (AppState.handle perp) (Announced perp userId)
          ((AppState.initial market peerId publishes isSequencer enclave).run perp earlier) later)
    (subscribed : WsEvent.userChannel userId ∈ subscriptions frames)
    (connected : .client .close ∉ happenings)
    (keeps
      : ∀ frame, .client (.text (.ok frame)) ∈ happenings
        → frame.Keeps (WsEvent.userChannel userId))
    (inTime : Along waitingAfter InTime [] happenings)
    (broadcast
      : (happenings.filterMap Happening.event?).filter WsEvent.ofOrder
        = (((AppState.initial market peerId publishes isSequencer enclave).run perp earlier).feed
            perp later).filter WsEvent.ofOrder)
    : (fun orderId =>
          told userId orderId
            ((clientLoop (subscriptions frames) (arrivals [] happenings)).foldl
              (KnownOrders.follow userId)
              (((AppState.initial market peerId publishes isSequencer enclave).run perp
                earlier).engine.book.ordersOf userId) orderId)
            (happenings.foldl waitingAfter []))
        = (((AppState.initial market peerId publishes isSequencer enclave).run perp
            earlier).run perp later).engine.book.ordersOf userId := by
  funext orderId
  have inv : FeedInv ((AppState.initial market peerId publishes isSequencer enclave).run perp
      earlier).engine.book :=
    (FeedInv.initial market peerId publishes isSequencer enclave).run earlier
  rw [follow_clientLoop subscribed (fun member => connected (client_of_mem_arrivals member))
      (fun frame member => keeps frame (client_of_mem_arrivals member)),
    ← told_append, arrivals_waiting inTime, List.nil_append, ← told_filter, broadcast, told_filter,
    told_feed inv announced]

/-- What happens while events are broadcast and each is read at once. -/
def readAtOnce (events : List WsEvent) : List Happening :=
  events.flatMap (fun event => [.broadcast event, .read])

/-- A client that reads at once is in time, and leaves nothing waiting. -/
theorem readAtOnce_inTime (events : List WsEvent)
    : Along waitingAfter InTime [] (readAtOnce events)
      ∧ (readAtOnce events).foldl waitingAfter [] = []
      ∧ (readAtOnce events).filterMap Happening.event? = events := by
  induction events with
  | nil => exact ⟨trivial, rfl, rfl⟩
  | cons event rest ih =>
      obtain ⟨inTime, caughtUp, broadcast⟩ := ih
      have alone : [event].length ≤ wsCapacity := Nat.le_of_lt (show 1 < 256 by decide)
      exact ⟨⟨nofun, fun _ => alone, inTime⟩, caughtUp, congrArg (event :: ·) broadcast⟩

/-- A client drops the trades, reads a liquidation, some events and a price at once, and sends a
frame that does not parse.
-/
def sampleHappenings (events : List WsEvent) : List Happening :=
  .client (.text (.ok (.unsubscribe ["trades"])))
    :: (readAtOnce (.liquidation 3 takerAddress "0.9" :: (events ++ [.ticker "1.0" "1.0" 7]))
      ++ [.client (.text (.error "expected value at line 1 column 1"))])

theorem frame_of_mem_sampleHappenings {events : List WsEvent} {frame : ClientFrame}
    (member : .client frame ∈ sampleHappenings events)
    : frame = .text (.ok (.unsubscribe ["trades"]))
      ∨ frame = .text (.error "expected value at line 1 column 1") := by
  simpa [sampleHappenings, readAtOnce] using member

/-- Witness: `feed_tells_orders` for a client that reads at once, while a second order of the maker
rests and the first is taken.
-/
theorem feed_tells_orders_fill
    : (fun orderId =>
          told makerAddress orderId
            ((clientLoop (subscriptions [.ok (.subscribe [WsEvent.userChannel makerAddress])])
                (arrivals []
                  (sampleHappenings
                    (((AppState.initial "XRP-USD-PERP" "" false true ()).run shortPerp
                      [makerSells]).feed shortPerp [makerSells, takerBuys])))).foldl
              (KnownOrders.follow makerAddress)
              (((AppState.initial "XRP-USD-PERP" "" false true ()).run shortPerp
                [makerSells]).engine.book.ordersOf makerAddress) orderId)
            ((sampleHappenings
                (((AppState.initial "XRP-USD-PERP" "" false true ()).run shortPerp
                  [makerSells]).feed shortPerp [makerSells, takerBuys])).foldl waitingAfter []))
        = (((AppState.initial "XRP-USD-PERP" "" false true ()).run shortPerp [makerSells]).run
            shortPerp [makerSells, takerBuys]).engine.book.ordersOf makerAddress := by
  refine feed_tells_orders shortPerp sampleCrypto "XRP-USD-PERP" "" false true () [makerSells]
    [makerSells, takerBuys] makerAddress [.ok (.subscribe [WsEvent.userChannel makerAddress])]
    (sampleHappenings _) ⟨trivial, trivial, trivial⟩ (by decide +kernel) ?_ ?_ ?_ ?_
  · intro member
    rcases frame_of_mem_sampleHappenings member with same | same <;> cases same
  · intro frame member
    rcases frame_of_mem_sampleHappenings member with same | same
    · obtain rfl : frame = .unsubscribe ["trades"] := by simpa using same
      simp only [ControlFrame.Keeps]
      decide +kernel
    · cases same
  · obtain ⟨inTime, caughtUp, -⟩ := readAtOnce_inTime _
    refine ⟨nofun, Along.append_iff.mpr ⟨inTime, ?_⟩⟩
    rw [waitingAfter, caughtUp]
    exact ⟨nofun, trivial⟩
  · obtain ⟨-, -, broadcast⟩ := readAtOnce_inTime
      (.liquidation 3 takerAddress "0.9"
        :: (((AppState.initial "XRP-USD-PERP" "" false true ()).run shortPerp [makerSells]).feed
            shortPerp [makerSells, takerBuys] ++ [.ticker "1.0" "1.0" 7]))
    show (List.filterMap Happening.event? (readAtOnce _ ++ [_])).filter _ = _
    rw [List.filterMap_append, broadcast]
    simp [WsEvent.ofOrder, Happening.event?]

end PerpDex
