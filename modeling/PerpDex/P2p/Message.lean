import PerpDex.Auth.Signature
import PerpDex.Fp8Text
import PerpDex.OrderBook.Model

/-! The messages a sequencer publishes for the orders it has matched.
A message is a projection of the order: numbers are rendered, the size is the one after
matching, and nothing says whether the order closed a position.
-/

namespace PerpDex

open OrderBook

structure FillMessage where
  tradeId : Nat
  makerOrderId : Nat
  takerOrderId : Nat
  makerUserId : String
  price : String
  size : String
  takerSide : String
deriving DecidableEq

/-- What authorised a replicated order, carried for validators to check themselves. -/
inductive WireOrderAuthorization where
  | clientSigned (binding : OrderSignatureBinding)
  | protocolVault
deriving DecidableEq

structure OrderMessage where
  orderId : Nat
  userId : String
  side : String
  orderType : String
  price : String
  size : String
  leverage : UInt32
  status : String
  fills : List FillMessage
  authorization : Option WireOrderAuthorization
deriving DecidableEq

structure OrderBatch where
  seqNum : Nat
  orders : List OrderMessage
  stateHash : String
  timestamp : Nat
  sequencerId : String
deriving DecidableEq

/-- The `Debug` text of an order type. -/
def OrderType.debug : OrderType → String
  | .limit => "Limit"
  | .market => "Market"

/-- The `Debug` text of a status. -/
def OrderStatus.debug : OrderStatus → String
  | .open => "Open"
  | .partiallyFilled => "PartiallyFilled"
  | .filled => "Filled"
  | .cancelled => "Cancelled"

/-- The eight little-endian bytes of a 64-bit integer, in two's complement. -/
def leBytes (value : Int) : List UInt8 :=
  (List.range 8).map (fun index => UInt8.ofNat ((value % 2 ^ 64).toNat / 256 ^ index))

/-- What the state hash covers of one fill. -/
def tradeBytes (trade : Trade) : List UInt8 :=
  leBytes trade.tradeId ++ leBytes trade.price.raw ++ leBytes trade.size.raw

/-- SHA-256 over the sequence number, the bytes of each fill, and the time. -/
def stateHash (crypto : Crypto) (seqNum : Nat) (fills : List (List UInt8)) (time : Nat)
    : String :=
  Hex.encode (crypto.sha256 (leBytes seqNum ++ fills.flatten ++ leBytes time))

def fillMessage (trade : Trade) : FillMessage where
  tradeId := trade.tradeId
  makerOrderId := trade.makerOrderId
  takerOrderId := trade.takerOrderId
  makerUserId := trade.makerUserId
  price := trade.price.display
  size := trade.size.display
  takerSide := trade.takerSide.toString

def orderMessage (order : Order) (trades : List Trade) (authorization : WireOrderAuthorization)
    : OrderMessage where
  orderId := order.id
  userId := order.userId
  side := order.side.toString
  orderType := order.orderType.debug
  price := order.price.display
  size := order.size.display
  leverage := order.leverage
  status := order.status.debug
  fills := trades.map fillMessage
  authorization := some authorization

end PerpDex
