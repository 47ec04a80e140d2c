import ContractKit.Json.Basic
import ContractKit.Number.Numeral

/-!
# JSON text

Writing JSON. `Json.compact` is the form on one line, `Json.pretty` the form of saved documents,
two spaces to a level. Both are pure ASCII: everything else is escaped in UTF-16 units.
-/

namespace ContractKit.Json

/-- The escape of a UTF-16 unit. -/
def unitEscape (unit : Nat) : Text :=
  '\\' :: 'u' :: Numeral.hexadecimal 4 unit

/-- One code point of a string, as it stands between the quotation marks. -/
def escaped (c : CodePoint) : Text :=
  if c = '"' ∨ c = '\\' then ['\\', c]
  else if c = '\n' then ['\\', 'n']
  else if c = '\r' then ['\\', 'r']
  else if c = '\t' then ['\\', 't']
  else if c.val = 8 then ['\\', 'b']
  else if c.val = 12 then ['\\', 'f']
  else if 0x20 ≤ c.val ∧ c.val < 0x7f then [c]
  else if c.val < 0x10000 then unitEscape c.val
  else unitEscape (0xd800 + (c.val - 0x10000) / 0x400) ++ unitEscape (0xdc00 + c.val % 0x400)

/-- A string with its quotation marks. -/
def quotedString (t : Text) : Text :=
  .concat ["\"", t.flatMap escaped, "\""]

/-- A floating number; the special values have names of their own. -/
def floatText : Binary64 → Text
  | .nan => "NaN"
  | .infinite negative => if negative then "-Infinity" else "Infinity"
  | x => x.text

/-- A value that holds no other value. -/
def scalarText : Json → Text
  | .null => "null"
  | .bool value => if value then "true" else "false"
  | .int value => Numeral.ofInt value
  | .float value => floatText value
  | .str value => quotedString value
  | .arr _ => "[]"
  | .obj _ => "\x7b\x7d"

mutual

/-- The text of a value on one line. -/
def compact : Json → Text
  | .arr items => .concat ["[", compactItems items, "]"]
  | .obj members => .concat ["\x7b", compactMembers members, "\x7d"]
  | scalar => scalarText scalar

/-- Items with a comma and a space between neighbours. -/
def compactItems : List Json → Text
  | [] => []
  | [item] => compact item
  | item :: rest => .concat [compact item, ", ", compactItems rest]

/-- Members with a comma and a space between neighbours. -/
def compactMembers : List (Text × Json) → Text
  | [] => []
  | [(name, item)] => .concat [quotedString name, ": ", compact item]
  | (name, item) :: rest =>
    .concat [quotedString name, ": ", compact item, ", ", compactMembers rest]

end

/-- A new line at the given level. -/
def newLine (level : Nat) : Text :=
  .concat ["\n", List.replicate (2 * level) ' ']

mutual

/-- The text of a value over several lines, at the given level. -/
def prettyAt (level : Nat) : Json → Text
  | .arr [] => "[]"
  | .arr items => .concat ["[", prettyItems (level + 1) items, newLine level, "]"]
  | .obj [] => "\x7b\x7d"
  | .obj members => .concat ["\x7b", prettyMembers (level + 1) members, newLine level, "\x7d"]
  | scalar => scalarText scalar

/-- Items on lines of their own. -/
def prettyItems (level : Nat) : List Json → Text
  | [] => []
  | [item] => .concat [newLine level, prettyAt level item]
  | item :: rest => .concat [newLine level, prettyAt level item, ",", prettyItems level rest]

/-- Members on lines of their own. -/
def prettyMembers (level : Nat) : List (Text × Json) → Text
  | [] => []
  | [(name, item)] => .concat [newLine level, quotedString name, ": ", prettyAt level item]
  | (name, item) :: rest =>
    .concat [newLine level, quotedString name, ": ", prettyAt level item, ",",
      prettyMembers level rest]

end

/-- The text of a value over several lines. -/
def pretty (j : Json) : Text :=
  prettyAt 0 j

end ContractKit.Json
