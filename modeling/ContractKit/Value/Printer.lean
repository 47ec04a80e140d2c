import ContractKit.Json.Printer
import ContractKit.Value.Basic
import ContractKit.Value.Scalar

/-!
# Values as literals

The text of a value in the notation of literals. Strings are written as in JSON. An integer or a fixed
point with too many digits has no text.
-/

namespace ContractKit.Value

mutual

/-- The text of a value. -/
def print : Value → Except NumeralError Text
  | .void => .ok "()"
  | .optional none => .ok "nil"
  | .optional (some inner) => print inner
  | .bool value => .ok (if value then "true" else "false")
  | .string text => .ok (Json.quotedString text)
  | .character text => .ok (Json.quotedString text)
  | .address text => .ok text
  | .integer _ number => Numeral.print number
  | .fixed _ raw => FixedPoint.print raw
  | .array items => do .ok (.concat ["[", .intercalate ", " (← printItems items), "]"])
  | .dictionary pairs => do .ok (.concat ["\x7b", .intercalate ", " (← printPairs pairs), "\x7d"])
  | .path domain identifier => .ok (.concat ["/", domain, "/", identifier])
  | .foreign _ text => .ok text

/-- The texts of values in a row. -/
def printItems : List Value → Except NumeralError (List Text)
  | [] => .ok []
  | item :: rest => do
    let text ← print item
    .ok (text :: (← printItems rest))

/-- The texts of pairs. -/
def printPairs : List (Value × Value) → Except NumeralError (List Text)
  | [] => .ok []
  | (key, item) :: rest => do
    let left ← print key
    let right ← print item
    .ok (.concat [left, ": ", right] :: (← printPairs rest))

end

end ContractKit.Value
