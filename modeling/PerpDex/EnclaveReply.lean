import PerpDex.Lib.DecimalText
import PerpDex.Lib.Json

/-! What an enclave call comes back with.
A refusal is an error text with the enclave's code written behind a token; the two places
that read the code differ in the token and in the width of the number.
-/

namespace PerpDex

/-- The answer to a call as the client sees it. -/
abbrev EnclaveReply := Except String Json

/-- The number behind the first occurrence of a token, up to the first character that is
neither a digit nor a minus sign.
-/
def codeAfter (token : String) (bits : Nat) (message : String) : Option Int := do
  let rest ← Text.afterFirst token.toList message.toList
  let value ← Text.parseInt (rest.takeWhile (fun char => char.isDigit || char = '-'))
  if -2 ^ (bits - 1) ≤ value ∧ value < 2 ^ (bits - 1) then some value else none

/-- `perp_client::rc_from_error`, an `i64` behind the full token. -/
def rcFromError (message : String) : Option Int := codeAfter "(rc=" 64 message

example : rcFromError "source=5 src=5 (rc=-74)" = some (-74) := by decide

example : rcFromError "ledger src=21680810" = none := by decide

end PerpDex
