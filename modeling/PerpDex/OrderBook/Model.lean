import PerpDex.Lib.BTreeMap
import PerpDex.RateLimit
import PerpDex.Types

/-! The central limit order book with price-time priority matching.
Order and trade ids are natural-number counters. Every operation returns the updated
book, also when it fails: a refused submission may still have pruned the rate limiter.
-/

namespace PerpDex

inductive OrderType where
  | limit
  | market
deriving DecidableEq, Repr

inductive TimeInForce where
  | gtc
  | ioc
  | fok
deriving DecidableEq, Repr

inductive OrderStatus where
  | «open»
  | partiallyFilled
  | filled
  | cancelled
deriving DecidableEq, Repr

structure Order where
  id : Nat
  userId : String
  market : String
  side : Side
  orderType : OrderType
  price : FP8
  size : FP8
  filled : FP8
  leverage : UInt32
  status : OrderStatus
  timeInForce : TimeInForce
  reduceOnly : Bool
  timestampMs : Nat
  clientOrderId : Option String
  /-- When set, fills on this order close a position instead of opening one. -/
  closePositionId : Option UInt32
deriving DecidableEq

def Order.remaining (order : Order) : FP8 := order.size.sub order.filled

structure Trade where
  tradeId : Nat
  market : String
  makerOrderId : Nat
  takerOrderId : Nat
  makerUserId : String
  takerUserId : String
  price : FP8
  size : FP8
  takerSide : Side
  timestampMs : Nat
deriving DecidableEq

/-- The orders at one price, oldest first. -/
abbrev PriceLevel := List Order

/-- One side of the book: price to orders, ascending. -/
abbrev Levels := BTreeMap Int PriceLevel

structure OrderBook where
  market : String
  bids : Levels
  asks : Levels
  nextOrderId : Nat
  nextTradeId : Nat
  recentTrades : List Trade
  maxRecentTrades : Nat
  stpRate : RateLimiter
  /-- The attested close-time stamped on orders and trades; 0 pauses matching. -/
  attestedMs : Nat

/-- The arguments of `submit_order`. -/
structure SubmitArgs where
  userId : String
  side : Side
  orderType : OrderType
  price : FP8
  size : FP8
  leverage : UInt32
  timeInForce : TimeInForce
  reduceOnly : Bool
  clientOrderId : Option String
deriving DecidableEq

/-- The two instants at which one submission reads the clock of the rate limiter. -/
structure StpClock where
  peek : Nat
  record : Nat

/-- What a submission returns: the order, its fills, and the makers self-trade prevention
decremented, each with the amount cancelled.
-/
structure Submission where
  order : Order
  trades : List Trade
  stpCancelled : List (Order × Int)

namespace OrderBook

-- 60 s in nanoseconds
def new (market : String) : OrderBook where
  market := market
  bids := .empty
  asks := .empty
  nextOrderId := 1
  nextTradeId := 1
  recentTrades := []
  maxRecentTrades := 1000
  stpRate := .new 60_000_000_000 30
  attestedMs := 0

def setAttestedMs (book : OrderBook) (attestedMs : Nat) : OrderBook :=
  { book with attestedMs := attestedMs }

/-- The side of the book on which orders of `side` rest. -/
def levels (book : OrderBook) : Side → Levels
  | .long => book.bids
  | .short => book.asks

def setLevels (book : OrderBook) (side : Side) (levels : Levels) : OrderBook :=
  match side with
  | .long => { book with bids := levels }
  | .short => { book with asks := levels }

/-- All resting orders: bids by ascending price, then asks, each level oldest first. -/
def restingOrders (book : OrderBook) : List Order :=
  book.bids.values.flatten ++ book.asks.values.flatten

def getOrder (book : OrderBook) (orderId : Nat) : Option Order :=
  book.restingOrders.find? (fun order => order.id = orderId)

def userOrders (book : OrderBook) (userId : String) : List Order :=
  book.restingOrders.filter (fun order => order.userId = userId)

def addToBook (book : OrderBook) (order : Order) : OrderBook :=
  book.setLevels order.side
    ((book.levels order.side).upsert order.price.raw
      (fun level => level.getD [] ++ [order]))

/-- Rebuild from persisted resting orders on failover. -/
def loadOrders (book : OrderBook) (orders : List Order) : OrderBook :=
  orders.foldl
    (fun book order =>
      let book :=
        if book.nextOrderId ≤ order.id then { book with nextOrderId := order.id + 1 }
        else book
      book.addToBook order)
    book

/-- The initial margin one resting order reserves: notional over leverage. -/
def orderMargin (order : Order) : FP8 :=
  FP8.ofRaw ((order.remaining.mul order.price).raw.tdiv order.leverage.toNat)

/-- Reduce-only orders free margin, so they reserve none. -/
def reservesMargin (userId : String) (order : Order) : Bool :=
  order.userId = userId && !order.reduceOnly && 0 < order.leverage.toNat

def userReservedMargin (book : OrderBook) (userId : String) : FP8 :=
  (book.restingOrders.filter (reservesMargin userId)).foldl
    (fun reserved order => reserved.add (orderMargin order)) .zero

-----------------------------------------------------------------------------------------
-- Matching
-----------------------------------------------------------------------------------------

/-- May an order trade at a resting price? A market order always may. -/
def crosses (order : Order) (price : Int) : Bool :=
  order.orderType = .market
  || match order.side with
      | .long => price ≤ order.price.raw
      | .short => order.price.raw ≤ price

/-- Liquidity of other users for the fill-or-kill pre-check. Levels are scanned in
ascending price on both sides, and the running total is an `i64`.
-/
def availableLiquidity (book : OrderBook) (order : Order) : Int :=
  ((book.levels order.side.opposite).entries.takeWhile
      (fun entry => crosses order entry.1)).foldl
    (fun total entry =>
      entry.2.foldl
        (fun total maker =>
          if maker.userId ≠ order.userId then wrapI64 (total + maker.remaining.raw)
          else total)
        total)
    0

/-- The locals of `match_order`, with the book fields its loop writes. -/
structure Matching where
  taker : Order
  trades : List Trade
  stpCancelled : List (Order × Int)
  nextTradeId : Nat
  recentTrades : List Trade

/-- The book fields `match_order` only reads. -/
structure MatchContext where
  market : String
  attestedMs : Nat
  maxRecentTrades : Nat

/-- Append to the recent trades, dropping the oldest beyond the limit. -/
def pushRecent (limit : Nat) (recent : List Trade) (trade : Trade) : List Trade :=
  let recent := recent ++ [trade]
  if limit < recent.length then recent.drop 1 else recent

/-- The self-trade branch: decrement both sides by the crossed amount, without a trade.
The maker that remains at its position is returned, `none` if it was removed.
-/
def preventSelfTrade (matching : Matching) (maker : Order) : Option Order × Matching :=
  let cross := min matching.taker.remaining.raw maker.remaining.raw
  if cross ≤ 0 then (some maker, matching)
  else
    let taker :=
      { matching.taker with size := FP8.ofRaw (matching.taker.size.raw - cross) }
    let maker := { maker with filled := FP8.ofRaw (maker.filled.raw + cross) }
    if maker.size.raw ≤ maker.filled.raw then
      (none,
        { matching with
          taker
          stpCancelled :=
            matching.stpCancelled ++ [({ maker with status := .cancelled }, cross)] })
    else
      (some maker,
        { matching with
          taker
          stpCancelled := matching.stpCancelled ++ [(maker, cross)] })

/-- The fill branch: trade at the maker's price; a filled maker leaves the book. -/
def fillMaker (context : MatchContext) (price : Int) (matching : Matching) (maker : Order)
    : Option Order × Matching :=
  let fill := FP8.ofRaw (min matching.taker.remaining.raw maker.remaining.raw)
  let taker := { matching.taker with filled := matching.taker.filled.add fill }
  let maker := { maker with filled := maker.filled.add fill }
  let maker :=
    { maker with
      status := if maker.filled = maker.size then .filled else .partiallyFilled }
  let trade :=
    { tradeId := matching.nextTradeId
      market := context.market
      makerOrderId := maker.id
      takerOrderId := taker.id
      makerUserId := maker.userId
      takerUserId := taker.userId
      price := FP8.ofRaw price
      size := fill
      takerSide := taker.side
      timestampMs := context.attestedMs }
  (if maker.status = .filled then none else some maker,
    { matching with
      taker
      trades := matching.trades ++ [trade]
      nextTradeId := matching.nextTradeId + 1
      recentTrades := pushRecent context.maxRecentTrades matching.recentTrades trade })

/-- One iteration of the maker loop. -/
def matchMaker (context : MatchContext) (price : Int) (matching : Matching) (maker : Order)
    : Option Order × Matching :=
  if maker.userId = matching.taker.userId then preventSelfTrade matching maker
  else fillMaker context price matching maker

/-- The maker loop over one level; the index of the source is the head of the list. -/
def matchLevel (context : MatchContext) (price : Int)
    : Matching → PriceLevel → PriceLevel × Matching
  | matching, [] => ([], matching)
  | matching, maker :: rest =>
      if matching.taker.remaining.raw ≤ 0 then (maker :: rest, matching)
      else
        let (kept, matching) := matchMaker context price matching maker
        let (rest, matching) := matchLevel context price matching rest
        (kept.toList ++ rest, matching)

/-- The loop over the collected prices, stopping once the taker is exhausted. -/
def matchPrices (context : MatchContext)
    : List Int → Matching → Levels → Levels × Matching
  | [], matching, levels => (levels, matching)
  | price :: prices, matching, levels =>
      if matching.taker.remaining.raw ≤ 0 then (levels, matching)
      else
        match levels.get? price with
        | none => matchPrices context prices matching levels
        | some level =>
            let (level, matching) := matchLevel context price matching level
            matchPrices context prices matching (levels.modify price (fun _ => level))

/-- The opposite prices a taker may trade at, best first. -/
def matchingPrices (order : Order) (opposite : Levels) : List Int :=
  match order.side with
  | .long => opposite.keys.takeWhile (crosses order)
  | .short => opposite.keys.reverse.takeWhile (crosses order)

def dropEmpty (levels : Levels) : Levels := levels.retain (fun _ level => !level.isEmpty)

def context (book : OrderBook) : MatchContext where
  market := book.market
  attestedMs := book.attestedMs
  maxRecentTrades := book.maxRecentTrades

/-- The locals of `match_order` before its loop. -/
def startMatching (book : OrderBook) (taker : Order) : Matching where
  taker := taker
  trades := []
  stpCancelled := []
  nextTradeId := book.nextTradeId
  recentTrades := book.recentTrades

def matchOrder (book : OrderBook) (taker : Order) : Matching × OrderBook :=
  let opposite := book.levels taker.side.opposite
  let (levels, matching) :=
    matchPrices book.context (matchingPrices taker opposite) (book.startMatching taker)
      opposite
  let book :=
    { book with
      nextTradeId := matching.nextTradeId
      recentTrades := matching.recentTrades }
  (matching, book.setLevels taker.side.opposite (dropEmpty levels))

/-- The order as it is created, before matching. -/
def newOrder (book : OrderBook) (args : SubmitArgs) : Order where
  id := book.nextOrderId
  userId := args.userId
  market := book.market
  side := args.side
  orderType := args.orderType
  price := args.price
  size := args.size
  filled := .zero
  leverage := args.leverage
  status := .open
  timeInForce := args.timeInForce
  reduceOnly := args.reduceOnly
  timestampMs := book.attestedMs
  clientOrderId := args.clientOrderId
  closePositionId := none

/-- Is the remainder of a matched order put on the book? -/
def rests (order : Order) : Bool :=
  order.size.raw ≠ 0 && order.orderType = .limit && order.timeInForce = .gtc
  && 0 < order.remaining.raw && order.status = .open

/-- The status a matched order is returned with. -/
def finalStatus (order : Order) : OrderStatus :=
  if order.size.raw = 0 then .cancelled
  else if order.filled = order.size then .filled
  else
    match order.orderType, order.timeInForce with
    | .market, _ =>
        if 0 < order.remaining.raw then
          if 0 < order.filled.raw then .partiallyFilled else .cancelled
        else order.status
    | .limit, .ioc =>
        if 0 < order.remaining.raw ∧ 0 < order.filled.raw then .partiallyFilled
        else if order.filled.raw = 0 then .cancelled
        else order.status
    | .limit, .fok => order.status
    | .limit, .gtc => order.status

/-- Is a returned order persisted? The submit handler asks this of its result. -/
def persists (order : Order) : Bool := order.status = .open && 0 < order.remaining.raw

/-- Matching and the handling of the remainder, once the pre-checks have passed. -/
def executeOrder (book : OrderBook) (order : Order) (recordAt : Nat)
    : Submission × OrderBook :=
  let (matching, book) := book.matchOrder order
  let book :=
    if matching.stpCancelled.isEmpty then book
    else { book with stpRate := book.stpRate.recordAt order.userId recordAt }
  let book := if rests matching.taker then book.addToBook matching.taker else book
  ({ order := { matching.taker with status := finalStatus matching.taker }
     trades := matching.trades
     stpCancelled := matching.stpCancelled }, book)

def submitOrder (book : OrderBook) (args : SubmitArgs) (clock : StpClock)
    : Except String Submission × OrderBook :=
  if args.size.raw ≤ 0 then (.error "order size must be positive", book)
  else if args.orderType = .limit ∧ args.price.raw ≤ 0 then
    (.error "limit order price must be positive", book)
  else
    let (admitted, stpRate) := book.stpRate.peekAt args.userId clock.peek
    let book := { book with stpRate := stpRate }
    if !admitted then
      (.error "self-trade rate exceeded: too many self-crossing orders in the last minute",
        book)
    else if book.attestedMs = 0 then
      (.error
        "attested clock not set -- matching paused (deterministic replay requires a live attested close-time)",
        book)
    else
      let order := book.newOrder args
      let book := { book with nextOrderId := book.nextOrderId + 1 }
      if args.timeInForce = .fok ∧ book.availableLiquidity order < args.size.raw then
        (.ok ⟨{ order with status := .cancelled }, [], []⟩, book)
      else
        let (submission, book) := book.executeOrder order clock.record
        (.ok submission, book)

/-- Take the first order with this id off one side, dropping its level if emptied. -/
def removeOrder (levels : Levels) (orderId : Nat) : Option (Order × Levels) :=
  match levels.entries.find? (fun entry => entry.2.any (fun order => order.id = orderId)) with
  | none => none
  | some (price, level) =>
      (level.find? (fun order => order.id = orderId)).map (fun order =>
        (order,
          dropEmpty
            (levels.modify price (fun level => level.eraseP (fun order => order.id = orderId)))))

def cancelOrder (book : OrderBook) (orderId : Nat) : Except String Order × OrderBook :=
  match removeOrder book.bids orderId with
  | some (order, bids) => (.ok { order with status := .cancelled }, { book with bids := bids })
  | none =>
      match removeOrder book.asks orderId with
      | some (order, asks) =>
          (.ok { order with status := .cancelled }, { book with asks := asks })
      | none => (.error s!"order {orderId} not found", book)

/-- Drop one user's orders from every level, keeping the levels that are not emptied. -/
def withoutUser (levels : Levels) (userId : String) : Levels :=
  dropEmpty
    (levels.mapValues (fun _ level => level.filter (fun order => order.userId ≠ userId)))

def cancelAll (book : OrderBook) (userId : String) : List Order × OrderBook :=
  ((book.userOrders userId).map (fun order => { order with status := .cancelled }),
    { book with
      bids := withoutUser book.bids userId
      asks := withoutUser book.asks userId })

end OrderBook

end PerpDex
