/-!
# Code points and text

A `Text` is a list of code points, and a code point may be a lone surrogate: JSON escapes and
command lines can hold one, and positions and lengths count code points. `Text.concat` is how
messages are put together, and the character classes stand in the modules beside this one.
-/

namespace ContractKit

/-- A code point: a Unicode scalar value or a lone surrogate. -/
structure CodePoint where
  /-- The number of the code point. -/
  val : Nat
  /-- Code points end at `0x10ffff`. -/
  val_lt : val < 0x110000
deriving DecidableEq

/-- A sequence of code points. -/
abbrev Text := List CodePoint

namespace CodePoint

/-- The code point numbered `n`; numbers past the last one give the replacement character. -/
def ofNat (n : Nat) : CodePoint :=
  if h : n < 0x110000 then ⟨n, h⟩ else ⟨0xfffd, by decide⟩

/-- Every character is a code point. -/
def ofChar (c : Char) : CodePoint :=
  ⟨c.toNat, by
    have h := c.valid
    simp only [UInt32.isValidChar, Nat.isValidChar] at h
    show c.val.toNat < 0x110000
    omega⟩

instance : Coe Char CodePoint := ⟨ofChar⟩

instance : Inhabited CodePoint := ⟨ofNat 0⟩

/-- Code points are ordered by their number. -/
instance : LT CodePoint := ⟨fun a b => a.val < b.val⟩

instance (a b : CodePoint) : Decidable (a < b) := Nat.decLt a.val b.val

/-- Whether the code point lies in one of the ranges, each given by its first and last number. -/
def inRanges (c : CodePoint) (ranges : List (Nat × Nat)) : Bool :=
  ranges.any fun range => range.1 ≤ c.val && c.val ≤ range.2

/-! ## ASCII classes -/

/-- `lo ≤ c ≤ hi`. -/
def between (c lo hi : CodePoint) : Bool :=
  lo.val ≤ c.val && c.val ≤ hi.val

/-- `0` to `9`. -/
def isAsciiDigit (c : CodePoint) : Bool :=
  c.between '0' '9'

/-- `a` to `z` or `A` to `Z`. -/
def isAsciiLetter (c : CodePoint) : Bool :=
  c.between 'a' 'z' || c.between 'A' 'Z'

/-- A letter or `_`: what an identifier starts with. -/
def startsIdentifier (c : CodePoint) : Bool :=
  c.isAsciiLetter || c = '_'

/-- A letter, a digit or `_`: what an identifier goes on with. -/
def continuesIdentifier (c : CodePoint) : Bool :=
  c.isAsciiLetter || c.isAsciiDigit || c = '_'

/-- A high surrogate, the first half of a pair. -/
def isHighSurrogate (c : CodePoint) : Bool :=
  0xd800 ≤ c.val && c.val < 0xdc00

/-- A low surrogate, the second half of a pair. -/
def isLowSurrogate (c : CodePoint) : Bool :=
  0xdc00 ≤ c.val && c.val < 0xe000

/-- A surrogate of either kind. -/
def isSurrogate (c : CodePoint) : Bool :=
  0xd800 ≤ c.val && c.val < 0xe000

end CodePoint

namespace Text

/-- The code points of a string. -/
def ofString (s : String) : Text :=
  s.toList.map CodePoint.ofChar

instance : Coe String Text := ⟨ofString⟩

/-- Texts are compared by their code points. -/
instance : LawfulBEq Text := inferInstance

/-- The pieces one after the other. -/
def concat (pieces : List Text) : Text :=
  pieces.flatten

/-- The pieces with `separator` between neighbours. -/
def intercalate (separator : Text) (pieces : List Text) : Text :=
  List.intercalate separator pieces

/-- `t` between single quotation marks, with nothing escaped. -/
def quote (t : Text) : Text :=
  .concat ["'", t, "'"]

/-- The rest of `t` after `start`, when `t` starts with it. -/
def dropStart? (start t : Text) : Option Text :=
  if start.isPrefixOf t then some (t.drop start.length) else none

/-- Whether the second text stands somewhere in the first. -/
def contains : Text → Text → Bool
  | [], part => part.isEmpty
  | c :: t, part => part.isPrefixOf (c :: t) || contains t part

/-- Comparison by code point: the first difference decides, and a start comes before the whole. -/
def le (a b : Text) : Bool :=
  !decide (b < a)

/-- The texts in increasing order. -/
def sort (ts : List Text) : List Text :=
  ts.mergeSort le

/-- `t` with `fill` put in front of it up to `width` code points. -/
def padLeft (fill : CodePoint) (width : Nat) (t : Text) : Text :=
  List.replicate (width - t.length) fill ++ t

/-- `t` with `fill` put behind it up to `width` code points. -/
def padRight (fill : CodePoint) (width : Nat) (t : Text) : Text :=
  t ++ List.replicate (width - t.length) fill

end Text

end ContractKit
