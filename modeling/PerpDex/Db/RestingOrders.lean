import PerpDex.Auth.Signature
import PerpDex.Lib.BTreeMap
import PerpDex.OrderBook.Model

/-! The `resting_orders` table that mirrors the book for a failover.
Ids and times are kept as natural numbers. A statement whose text does not fit its column
is refused by the database and leaves the table as it was.
-/

namespace PerpDex

/-- One row: the terms of a resting order and the signature that authorised it. -/
structure RestingRow where
  userId : String
  market : String
  side : String
  price : FP8
  size : FP8
  filled : FP8
  leverage : UInt32
  reduceOnly : Bool
  timestampMs : Nat
  clientOrderId : Option String
  binding : OrderSignatureBinding
deriving DecidableEq

/-- The table, keyed and ordered by `order_id`. -/
abbrev RestingOrders := BTreeMap Nat RestingRow

/-- A text fits `VARCHAR(width)`; no text column holds a NUL character. A text whose excess is
blanks at its end does not fit here, although PostgreSQL stores it without them.
-/
def fitsVarchar (width : Nat) (text : String) : Bool :=
  text.toList.length ≤ width && !text.toList.contains (Char.ofNat 0)

/-- The columns of a row whose width is limited. -/
def RestingRow.fits (row : RestingRow) : Bool :=
  fitsVarchar 36 row.userId && fitsVarchar 32 row.market && fitsVarchar 8 row.side
  && row.clientOrderId.all (fitsVarchar 64) && fitsVarchar 36 row.binding.signerAddress
  && fitsVarchar 66 row.binding.signerPubkeyHex

def restingRow (order : Order) (binding : OrderSignatureBinding) : RestingRow where
  userId := order.userId
  market := order.market
  side := order.side.toString
  price := order.price
  size := order.size
  filled := order.filled
  leverage := order.leverage
  reduceOnly := order.reduceOnly
  timestampMs := order.timestampMs
  clientOrderId := order.clientOrderId
  binding := binding

/-- The statements issued on the table. -/
inductive DbStatement where
  | insertRestingOrder (order : Order) (binding : OrderSignatureBinding)
  | updateRestingOrderFilled (orderId : Nat) (filled : FP8)
  | deleteRestingOrder (orderId : Nat)

/-- Run one statement. An insert on an existing id only touches `filled`. -/
def RestingOrders.exec (table : RestingOrders) : DbStatement → RestingOrders
  | .insertRestingOrder order binding =>
      if (restingRow order binding).fits then
        table.upsert order.id (fun old =>
          match old with
          | some row => { row with filled := order.filled }
          | none => restingRow order binding)
      else table
  | .updateRestingOrderFilled orderId filled =>
      table.modify orderId (fun row => { row with filled := filled })
  | .deleteRestingOrder orderId => table.erase orderId

def RestingOrders.execAll (table : RestingOrders) (statements : List DbStatement)
    : RestingOrders :=
  statements.foldl RestingOrders.exec table

/-- The order a verified row is read back as. -/
def rowOrder (orderId : Nat) (row : RestingRow) : Order where
  id := orderId
  userId := row.userId
  market := row.market
  side := if row.side = "long" ∨ row.side = "buy" then .long else .short
  orderType := .limit
  price := row.price
  size := row.size
  filled := row.filled
  leverage := row.leverage
  status := .open
  timeInForce := .gtc
  reduceOnly := row.reduceOnly
  timestampMs := row.timestampMs
  clientOrderId := row.clientOrderId
  closePositionId := none

/-- Read every row back in id order, dropping rows whose signature does not verify or
whose signer is not the owner.
-/
def loadRestingOrders (crypto : Crypto) (table : RestingOrders) : List Order :=
  table.entries.filterMap (fun (orderId, row) =>
    match verifySignatureOnly crypto row.binding with
    | .error _ => none
    | .ok () =>
        if row.binding.signerAddress ≠ row.userId then none else some (rowOrder orderId row))

/-- The id a statement writes. -/
def DbStatement.target : DbStatement → Nat
  | .insertRestingOrder order _ => order.id
  | .updateRestingOrderFilled orderId _ => orderId
  | .deleteRestingOrder orderId => orderId

/-- What a statement does to the row it writes. -/
def DbStatement.effect : DbStatement → Option RestingRow → Option RestingRow
  | .insertRestingOrder order binding, old =>
      if (restingRow order binding).fits then
        match old with
        | some row => some { row with filled := order.filled }
        | none => some (restingRow order binding)
      else old
  | .updateRestingOrderFilled _ filled, old => old.map (fun row => { row with filled := filled })
  | .deleteRestingOrder _, _ => none

/-- A statement changes the row it writes and no other. -/
theorem get?_exec (table : RestingOrders) (statement : DbStatement) (orderId : Nat)
    : (table.exec statement).get? orderId
      = if orderId = statement.target then statement.effect (table.get? orderId)
        else table.get? orderId := by
  cases statement with
  | insertRestingOrder order binding =>
      simp only [RestingOrders.exec, DbStatement.target, DbStatement.effect]
      split_ifs with fits same same
      · rw [BTreeMap.get?_upsert, if_pos same, same]
        cases table.get? order.id <;> rfl
      · rw [BTreeMap.get?_upsert, if_neg same]
      · rfl
      · rfl
  | updateRestingOrderFilled target filled =>
      by_cases same : orderId = target <;>
        simp [RestingOrders.exec, DbStatement.target, DbStatement.effect, same]
  | deleteRestingOrder target =>
      by_cases same : orderId = target <;>
        simp [RestingOrders.exec, DbStatement.target, DbStatement.effect, same]

/-- The row behind an id after a run of statements depends on those that write it. -/
theorem get?_execAll (table : RestingOrders) (statements : List DbStatement) (orderId : Nat)
    : (table.execAll statements).get? orderId
      = (statements.filter (fun statement => statement.target = orderId)).foldl
          (fun row statement => statement.effect row) (table.get? orderId) := by
  induction statements generalizing table with
  | nil => rfl
  | cons statement rest ih =>
      have step : (table.execAll (statement :: rest)).get? orderId
          = ((table.exec statement).execAll rest).get? orderId := rfl
      rw [step, ih, get?_exec]
      by_cases same : statement.target = orderId
      · simp [same]
      · simp [same, Ne.symm same]

/-- Statements that overwrite or remove a row have the same effect when repeated. -/
theorem foldl_effect_repeat {statement : DbStatement} {statements : List DbStatement}
    (same : ∀ other ∈ statements, other = statement) (nonempty : statements ≠ [])
    (idempotent : ∀ row, statement.effect (statement.effect row) = statement.effect row)
    (row : Option RestingRow)
    : statements.foldl (fun row statement => statement.effect row) row
      = statement.effect row := by
  have settled : ∀ rest : List DbStatement, (∀ other ∈ rest, other = statement)
      → rest.foldl (fun row statement => statement.effect row) (statement.effect row)
        = statement.effect row := by
    intro rest
    induction rest with
    | nil => exact fun _ => rfl
    | cons head tail ih =>
        intro all
        rw [List.foldl_cons, all head List.mem_cons_self, idempotent]
        exact ih (fun other member => all other (List.mem_cons_of_mem _ member))
  cases statements with
  | nil => exact absurd rfl nonempty
  | cons head rest =>
      rw [List.foldl_cons, same head List.mem_cons_self]
      exact settled rest (fun other member => same other (List.mem_cons_of_mem _ member))

end PerpDex
