import ContractKit.Entries
import ContractKit.Number.Binary64

/-!
# JSON values

JSON values as documents hold them: whole numbers apart from floating ones, and objects with their
members in order.
-/

namespace ContractKit

/-- A JSON value. -/
inductive Json where
  /-- `null`. -/
  | null
  /-- `true` or `false`. -/
  | bool (value : Bool)
  /-- A number written without point and exponent. -/
  | int (value : Int)
  /-- Any other number. -/
  | float (value : Binary64)
  /-- A string. -/
  | str (value : Text)
  /-- An array. -/
  | arr (items : List Json)
  /-- An object. -/
  | obj (members : List (Text × Json))

namespace Json

instance : Inhabited Json := ⟨null⟩

/-- The object with the given members; a repeated name keeps its first place and its last value. -/
def object (members : List (Text × Json)) : Json :=
  .obj (Entries.ofList members)

/-- The member `name` of an object. -/
def member? (name : Text) : Json → Option Json
  | .obj members => Entries.get? name members
  | _ => none

end Json

end ContractKit
