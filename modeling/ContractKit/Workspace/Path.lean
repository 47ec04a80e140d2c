import ContractKit.Text.CodePoint

/-!
# Paths

Paths in normal form: doubled slashes and `.` parts are dropped, `..` parts stay. The path without
parts is written `.`.
-/

namespace ContractKit

/-- A path. -/
structure Path where
  /-- The slashes an absolute path starts with, empty for a relative path. -/
  anchor : Text
  /-- The names between slashes. -/
  parts : List Text
deriving DecidableEq

namespace Path

/-- The texts between the slashes of a text. -/
def splitSlashes : Text → List Text
  | [] => [[]]
  | c :: rest =>
    if c = '/' then [] :: splitSlashes rest
    else
      match splitSlashes rest with
      | [] => [[c]]
      | part :: parts => (c :: part) :: parts

/-- The slashes a text starts with that make a path absolute: exactly two stay two, more become
one. -/
def anchorOf (text : Text) : Text :=
  match (text.takeWhile (· = ('/' : CodePoint))).length with
  | 0 => ""
  | 2 => "//"
  | _ => "/"

/-- The path a text names. -/
def ofText (text : Text) : Path :=
  ⟨anchorOf text, (splitSlashes text).filter fun part => part ≠ [] ∧ part ≠ "."⟩

/-- The path of the current directory. -/
def current : Path := ⟨[], []⟩

/-- The text of a path. -/
def text (path : Path) : Text :=
  if path.anchor = [] ∧ path.parts = [] then "."
  else .concat [path.anchor, .intercalate "/" path.parts]

/-- Whether the path does not depend on the current directory. -/
def isAbsolute (path : Path) : Bool :=
  path.anchor ≠ []

/-- The path without its last part. -/
def parent (path : Path) : Path :=
  { path with parts := path.parts.dropLast }

/-- The path taken from the directory `base`, if it is not absolute. -/
def within (base path : Path) : Path :=
  if path.isAbsolute then path else ⟨base.anchor, base.parts ++ path.parts⟩

end Path

end ContractKit
