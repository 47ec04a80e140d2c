import ContractKit.Text.CodePoint

/-!
# Blank characters

The characters that separate words and are trimmed from the ends of a text: the Unicode
separators and spaces, and the controls that act as separators.
-/

namespace ContractKit

/-- First and last code point of each run of blank characters, in order. -/
def blankRanges : List (Nat × Nat) :=
  [(0x9, 0xd), (0x1c, 0x20), (0x85, 0x85), (0xa0, 0xa0), (0x1680, 0x1680), (0x2000, 0x200a),
   (0x2028, 0x2029), (0x202f, 0x202f), (0x205f, 0x205f), (0x3000, 0x3000)]

/-- A blank character. -/
def CodePoint.isBlank (c : CodePoint) : Bool :=
  c.inRanges blankRanges

/-- The ASCII blanks: space, tab, line feed, vertical tab, form feed and carriage return. -/
def CodePoint.isAsciiBlank (c : CodePoint) : Bool :=
  c.val = 0x20 || 0x9 ≤ c.val && c.val ≤ 0xd

namespace Text

/-- `t` without the blanks it starts with. -/
def trimLeft (t : Text) : Text :=
  t.dropWhile CodePoint.isBlank

/-- `t` without the blanks it ends with. -/
def trimRight (t : Text) : Text :=
  (t.reverse.dropWhile CodePoint.isBlank).reverse

/-- `t` without the blanks at its ends. -/
def trim (t : Text) : Text :=
  trimRight (trimLeft t)

end Text

end ContractKit
