import PerpDex.Api.Identity

/-! Reading `resting_orders` back from a database that is not trusted.
The query may answer with any rows. A row is kept if its signature verifies and its signer
is its user; nothing else of it is compared with what was signed.
-/

namespace PerpDex

/-- One row as the query returns it, column by column. -/
structure StoredRow where
  orderId : Int64
  userId : String
  market : String
  side : String
  price : FP8
  size : FP8
  filled : FP8
  leverage : Int32
  reduceOnly : Bool
  timestampMs : Int64
  clientOrderId : Option String
  signedBodyHex : String
  signatureHex : String
  signerTimestamp : String
  signerAddress : String
  signerPubkeyHex : String

namespace StoredRow

def binding (row : StoredRow) : OrderSignatureBinding where
  signedBodyHex := row.signedBodyHex
  signatureHex := row.signatureHex
  timestamp := row.signerTimestamp
  signerAddress := row.signerAddress
  signerPubkeyHex := row.signerPubkeyHex

/-- The order a row is read back as; signed columns are reinterpreted as unsigned. -/
def order (row : StoredRow) : Order where
  id := row.orderId.toUInt64.toNat
  userId := row.userId
  market := row.market
  side := if row.side = "long" ∨ row.side = "buy" then .long else .short
  orderType := .limit
  price := row.price
  size := row.size
  filled := row.filled
  leverage := row.leverage.toUInt32
  status := .open
  timeInForce := .gtc
  reduceOnly := row.reduceOnly
  timestampMs := row.timestampMs.toUInt64.toNat
  clientOrderId := row.clientOrderId
  closePositionId := none

end StoredRow

section Reload

variable (crypto : Crypto) (readTree : List UInt8 → Option JsonTree)

end Reload

end PerpDex
