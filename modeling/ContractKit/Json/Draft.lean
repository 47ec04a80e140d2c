import ContractKit.Json.Printer

/-!
# Writing JSON piece by piece

A saved document is written piece by piece, and the writing stops at a whole number with too many
digits: what stands in front of the number is written by then. A `Draft` is a text as far as it has been
written. `Json.draft` is `Json.pretty` unless there is such a number.
-/

namespace ContractKit

/-- A text as far as it has been written. -/
structure Draft where
  /-- What has been written. -/
  text : Text
  /-- Why the writing has stopped, if it has. -/
  fault : Option NumeralError

namespace Draft

/-- A text that is written to the end. -/
def whole (text : Text) : Draft :=
  ⟨text, none⟩

/-- A number in one piece with the text in front of it. -/
def number (before : Text) (value : Int) : Draft :=
  match Numeral.print value with
  | .ok text => whole (before ++ text)
  | .error e => ⟨[], some e⟩

/-- The second text behind the first one, if that is written to the end. -/
def append (first second : Draft) : Draft :=
  match first.fault with
  | none => ⟨first.text ++ second.text, second.fault⟩
  | some _ => first

/-- Texts one after the other. -/
def concat (parts : List Draft) : Draft :=
  parts.foldr append (whole [])

/-- Fails if the writing has stopped. -/
def finish (draft : Draft) : Except NumeralError Unit :=
  match draft.fault with
  | none => .ok ()
  | some e => .error e

end Draft

namespace Json

open Draft (whole number)

/-- An item behind a text, from the item by itself. A number makes one piece with the text. -/
def behind (before : Text) : Json → Draft → Draft
  | .int value, _ => number before value
  | _, item => (whole before).append item

mutual

/-- A value over several lines, at the given level. -/
def draftAt (level : Nat) : Json → Draft
  | .arr [] => whole "[]"
  | .arr items =>
    .concat [draftItems (level + 1) "[" items, whole (newLine level), whole "]"]
  | .obj [] => whole "\x7b\x7d"
  | .obj members =>
    .concat [whole "\x7b", draftMembers (level + 1) members, whole (newLine level), whole "\x7d"]
  | .int value => number [] value
  | scalar => whole (scalarText scalar)

/-- Items on lines of their own, with `mark` in front of the first line. -/
def draftItems (level : Nat) (mark : Text) : List Json → Draft
  | [] => whole []
  | item :: rest =>
    .concat [behind (mark ++ newLine level) item (draftAt level item), draftItems level "," rest]

/-- Members on lines of their own. -/
def draftMembers (level : Nat) : List (Text × Json) → Draft
  | [] => whole []
  | [(name, item)] =>
    .concat [whole (newLine level), whole (quotedString name), whole ": ", draftAt level item]
  | (name, item) :: rest =>
    .concat [whole (newLine level), whole (quotedString name), whole ": ", draftAt level item,
      whole ",", draftMembers level rest]

end

/-- A value over several lines. -/
def draft (j : Json) : Draft :=
  draftAt 0 j

end Json

end ContractKit
