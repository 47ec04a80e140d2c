import ContractKit.Value.Kind

/-!
# Values

The typed values that scripts and transactions take as arguments.
-/

namespace ContractKit

/-- A typed value. -/
inductive Value where
  /-- The value that carries nothing. -/
  | void
  /-- No value, or one. -/
  | optional (inner : Option Value)
  /-- A truth value. -/
  | bool (value : Bool)
  /-- A string. -/
  | string (text : Text)
  /-- A character, as the text it consists of. -/
  | character (text : Text)
  /-- An address, `0x` and its digits. -/
  | address (text : Text)
  /-- A number of an integer type. -/
  | integer (kind : IntegerKind) (number : Int)
  /-- A number of a fixed-point type, in units of `10 ^ -8`. -/
  | fixed (kind : FixedKind) (raw : Int)
  /-- Values in a row. -/
  | array (items : List Value)
  /-- Pairs of a key and a value, in order. -/
  | dictionary (pairs : List (Value × Value))
  /-- A path. -/
  | path (domain identifier : Text)
  /-- A value of a type without a wire form, as the text that stands for it. -/
  | foreign (type text : Text)

instance : Inhabited Value := ⟨.void⟩

end ContractKit
