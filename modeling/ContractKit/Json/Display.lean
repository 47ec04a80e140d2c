import ContractKit.Json.Basic
import ContractKit.Number.Numeral

/-!
# JSON values in messages

How a message shows a JSON value it refuses: a string stands as it is, and inside other values it
is quoted.
-/

namespace ContractKit.Json

mutual

/-- A value as it is shown inside another one. -/
def shown : Json → Text
  | .null => "None"
  | .bool value => if value then "True" else "False"
  | .int value => Numeral.ofInt value
  | .float value => value.text
  | .str value => value.quoted
  | .arr items => .concat ["[", shownItems items, "]"]
  | .obj members => .concat ["\x7b", shownMembers members, "\x7d"]

/-- Items with a comma and a space between neighbours. -/
def shownItems : List Json → Text
  | [] => []
  | [item] => shown item
  | item :: rest => .concat [shown item, ", ", shownItems rest]

/-- Members with a comma and a space between neighbours. -/
def shownMembers : List (Text × Json) → Text
  | [] => []
  | [(name, item)] => .concat [name.quoted, ": ", shown item]
  | (name, item) :: rest => .concat [name.quoted, ": ", shown item, ", ", shownMembers rest]

end

/-- A value as a message shows it. -/
def display : Json → Text
  | .str value => value
  | other => shown other

end ContractKit.Json
