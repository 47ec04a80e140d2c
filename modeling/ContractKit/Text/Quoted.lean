import ContractKit.Number.Digits
import ContractKit.Text.Printable

/-!
# Quoted text

The form in which messages show a text exactly: between quotation marks, with everything that has
no visible form of its own escaped. Single marks are used unless the text holds a single mark and
no double one.
-/

namespace ContractKit

/-- One code point inside the quotation mark `mark`. -/
def CodePoint.escapedFor (mark c : CodePoint) : Text :=
  if c = mark ∨ c = '\\' then ['\\', c]
  else if c = '\n' then ['\\', 'n']
  else if c = '\r' then ['\\', 'r']
  else if c = '\t' then ['\\', 't']
  else if c.isPrintable then [c]
  else if c.val < 0x100 then '\\' :: 'x' :: Numeral.hexadecimal 2 c.val
  else if c.val < 0x10000 then '\\' :: 'u' :: Numeral.hexadecimal 4 c.val
  else '\\' :: 'U' :: Numeral.hexadecimal 8 c.val

/-- The quotation mark that spares an escape where it can. -/
def Text.quotationMark (t : Text) : CodePoint :=
  if ('\'' : CodePoint) ∈ t ∧ ('"' : CodePoint) ∉ t then '"' else '\''

/-- The text between quotation marks, escaped. -/
def Text.quoted (t : Text) : Text :=
  let mark := t.quotationMark
  mark :: t.flatMap (CodePoint.escapedFor mark) ++ [mark]

end ContractKit
