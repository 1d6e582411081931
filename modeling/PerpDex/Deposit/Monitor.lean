import PerpDex.Auth.Signature
import PerpDex.EnclaveReply
import PerpDex.Lib.Run

/-! The deposit scan over `account_tx` and the loop that credits what it finds.
The scan follows the node's markers and reports the highest ledger it has seen completely;
the loop credits the deposits one by one and then moves its cursor to that ledger. How an
amount of drops is written as a decimal number is a parameter.
-/

namespace PerpDex

namespace DepositMonitor

structure DepositEvent where
  sender : String
  amount : String
  txHash : String
  destinationTag : Option UInt32
  ledgerIndex : UInt64
  isXrp : Bool
deriving DecidableEq

structure XrplMonitor where
  escrowAddress : String
  operatorCapital : List String
  /-- `format!("{:.8}", drops as f64 / 1_000_000.0)`. -/
  xrpText : UInt64 → String

/-- The fraction cut to eight bytes; `none` if the cut falls inside a character, where the
program panics.
-/
def cutFraction (frac : List Char) : Option (List Char) :=
  if (frac.map Char.utf8Size).sum ≤ 8 then some frac else Text.takeBytes 8 frac

/-- The amount with exactly eight decimals, as text. -/
def fp8Amount (value : String) : Option String :=
  let (integer, rest) := (Text.splitOnce '.' value.toList).getD (value.toList, [])
  let frac := ((Text.splitOnce '.' rest).map Prod.fst).getD rest
  (cutFraction frac).map (fun cut =>
    String.ofList (integer ++ '.' :: Text.padRight 8 '0' cut))

/-- The delivered amount, or the amount of the transaction. -/
def paidAmount (tx metadata : Json) : Json :=
  match metadata.get "delivered_amount" with
  | none | some .null => tx.index "Amount"
  | some delivered => delivered

/-- The decimal text of an amount; drops are written in XRP. -/
def amountValue (monitor : XrplMonitor) : Json → Option String
  | .object members => (members.lookup "value").bind Json.asStr
  | .string drops => (parseU64 drops).map (fun drops => monitor.xrpText (UInt64.ofNat drops))
  | .number (.posInt drops) => some (monitor.xrpText drops)
  | _ => none

/-- Hashes are hexadecimal texts, so lower case and cutting are those of ASCII. -/
def lowerHash (hash : String) : String :=
  String.ofList ((hash.toList.map Char.toLower).take 64)

def entryLedger (entry : Json) : Option UInt64 :=
  ((entry.index "tx").index "ledger_index").asU64

/-- The deposit an entry of `account_tx` stands for, if any; the outer `none` is a panic. -/
def depositOf (monitor : XrplMonitor) (entry : Json) : Option (Option DepositEvent) :=
  let tx := entry.index "tx"
  let metadata := entry.index "meta"
  if (metadata.index "TransactionResult").asStr ≠ some "tesSUCCESS" then some none
  else if (tx.index "TransactionType").asStr ≠ some "Payment" then some none
  else if (tx.index "Destination").asStr ≠ some monitor.escrowAddress then some none
  else
    let amount := paidAmount tx metadata
    match amountValue monitor amount with
    | none => some none
    | some value =>
        match fp8Amount value with
        | none => none
        | some fp8 =>
            if value.toList.head? = some '-' ∨ value = "0" ∨ value = "0.00000000" then some none
            else
              match (tx.index "Account").asStr with
              | none => some none
              | some sender =>
                  if monitor.operatorCapital.contains sender then some none
                  else
                    match (tx.index "hash").asStr with
                    | none => some none
                    | some hash =>
                        some (some
                          { sender
                            amount := fp8
                            txHash := lowerHash hash
                            destinationTag :=
                              (tx.index "DestinationTag").asU64.map UInt64.toUInt32
                            ledgerIndex := (entryLedger entry).getD 0
                            isXrp := !amount.isObject })

/-- A marker that is present and not `null`. -/
def pageMarker (result : Json) : Option Json :=
  match result.get "marker" with
  | none | some .null => none
  | some marker => some marker

def maxPages : Nat := 50

/-- Follow the markers. A transport error ends the scan, and so does the panic on a response
that has no members; an error of the node ends the walk with the pages gathered so far.
-/
def fetchPages : Nat → List (Except String Json) → Except String (List Json)
  | 0, _ => .ok []
  | _ + 1, [] => .error "XRPL RPC request failed"
  | _ + 1, .error e :: _ => .error e
  | count + 1, .ok resp :: rest =>
      match resp.indexMut "result" with
      | none => .error "cannot access key \"result\""
      | some result =>
          if (result.get "error").isSome then .ok []
          else
            match pageMarker result with
            | none => .ok [result]
            | some _ => (fetchPages count rest).map (fun pages => result :: pages)

def pageTxs (result : Json) : List Json := (result.index "transactions").asArray.getD []

/-- The high-water advances for every entry, whatever it is. -/
def raise (newLedger : Nat) (entry : Json) : Nat :=
  match entryLedger entry with
  | some index => max newLedger index.toUInt32.toNat
  | none => newLedger

/-- The inner loop over the entries of a page. -/
def scanTxs (monitor : XrplMonitor)
    : List Json → List DepositEvent → Nat → Option (List DepositEvent × Nat)
  | [], deposits, newLedger => some (deposits, newLedger)
  | entry :: rest, deposits, newLedger =>
      match depositOf monitor entry with
      | none => none
      | some none => scanTxs monitor rest deposits (raise newLedger entry)
      | some (some deposit) =>
          scanTxs monitor rest (deposits ++ [deposit]) (raise newLedger entry)

/-- The outer loop over the pages; a page without a marker is the last one. -/
def scanFrom (monitor : XrplMonitor)
    : List Json → List DepositEvent → Nat → Option Json
      → Option (List DepositEvent × Nat × Option Json)
  | [], deposits, newLedger, pending => some (deposits, newLedger, pending)
  | result :: rest, deposits, newLedger, _ =>
      match scanTxs monitor (pageTxs result) deposits newLedger with
      | none => none
      | some (deposits, newLedger) =>
          match pageMarker result with
          | some marker => scanFrom monitor rest deposits newLedger (some marker)
          | none => some (deposits, newLedger, none)

/-- The highest ledger that is known to be complete. -/
def capToComplete (newLedger : Nat) (pending : Option Json) (floor : Nat) : Nat :=
  match pending with
  | none => newLedger
  | some marker =>
      match (marker.index "ledger").asU64 with
      | some ledger => max (min newLedger (min (ledger.toNat - 1) (2 ^ 32 - 1))) floor
      | none => floor

def scanPages (monitor : XrplMonitor) (lastLedger : Nat) (pages : List Json)
    : Option (List DepositEvent × Nat) :=
  (scanFrom monitor pages [] lastLedger none).map (fun (deposits, newLedger, pending) =>
    (deposits, capToComplete newLedger pending lastLedger))

/-- What one tick of the loop meets: the answers of the node and, for each deposit, the
reply to its credit call.
-/
structure Tick where
  responses : List (Except String Json)
  credit : DepositEvent → EnclaveReply

/-- The enclave has decided: it credited the deposit or refused it with a code. -/
def hasVerdict : EnclaveReply → Bool
  | .ok _ => true
  | .error message => (rcFromError message).isSome

/-- The cursor. The deposits that got a verdict are kept for reference. -/
structure DepositLoop where
  lastLedger : Nat
  settled : List DepositEvent

/-- The deposit step of the main loop while SPV deposits are disabled. A failed credit is
only logged.
-/
def DepositLoop.step (monitor : XrplMonitor) (loop : DepositLoop) (tick : Tick) : DepositLoop :=
  match fetchPages maxPages tick.responses with
  | .error _ => loop
  | .ok pages =>
      match scanPages monitor loop.lastLedger pages with
      | none => loop
      | some (deposits, newLedger) =>
          { lastLedger := if loop.lastLedger < newLedger then newLedger else loop.lastLedger
            settled :=
              loop.settled ++ deposits.filter (fun deposit => hasVerdict (tick.credit deposit)) }

end DepositMonitor

end PerpDex
