import ContractKit.Text.Blank
import ContractKit.Text.Digit
import ContractKit.Text.Quoted

/-!
# Numerals

Integers as text. Writing and reading decimal numerals is limited to `decimalLimit` digits, in both
directions; numerals of base 2, 8 and 16 have no limit. `NumeralError` says which rule failed.
-/

namespace ContractKit

/-- Why a text and an integer could not be turned into one another. -/
inductive NumeralError where
  /-- The decimal numeral is longer than `Numeral.decimalLimit`. -/
  | tooManyDigits
  /-- The text is no numeral of the base. -/
  | malformed (base : Nat) (text : Text)
deriving DecidableEq

namespace Numeral

/-- The most digits a decimal numeral may have. -/
def decimalLimit : Nat := 4300

/-- The most characters that an error shows of a text, quotation marks and escapes included. -/
def shownLimit : Nat := 200

/-- The value of a list of digits, the most significant first. -/
def value (base : Nat) (ds : List Nat) : Nat :=
  ds.foldl (fun n d => n * base + d) 0

/-- The digits of `n` written as text. -/
def ofNat (base n : Nat) : Text :=
  (digits base n).map digitChar

/-- The decimal numeral of an integer, of any length. -/
def ofInt (n : Int) : Text :=
  if n < 0 then '-' :: ofNat 10 n.natAbs else ofNat 10 n.natAbs

/-- The decimal numeral of an integer, refused when it has too many digits. -/
def print (n : Int) : Except NumeralError Text :=
  if decimalLimit < (digits 10 n.natAbs).length then .error .tooManyDigits else .ok (ofInt n)

/-- The value of a hexadecimal digit. -/
def hexValue? (c : CodePoint) : Option Nat :=
  if c.between '0' '9' then some (c.val - 48)
  else if c.between 'a' 'f' then some (c.val - 87)
  else if c.between 'A' 'F' then some (c.val - 55)
  else none

/-- A hexadecimal digit of either case. -/
def isHexDigit (c : CodePoint) : Bool :=
  (hexValue? c).isSome

/-- The number written by a run of decimal digits of any script, refused when it is too long. -/
def readDecimal (text : Text) : Except NumeralError Nat :=
  match text.mapM CodePoint.decimalValue? with
  | none => .error (.malformed 10 text)
  | some [] => .error (.malformed 10 text)
  | some ds => if decimalLimit < ds.length then .error .tooManyDigits else .ok (value 10 ds)

/-- The digits of a numeral in which one `_` may stand between two digits. -/
def groupedDigits? : Text → Option (List Nat)
  | [] => none
  | [c] => (c.decimalValue?).map ([·])
  | c :: u :: rest =>
    match c.decimalValue? with
    | none => none
    | some d =>
      if u = '_' then (groupedDigits? rest).map (d :: ·)
      else (groupedDigits? (u :: rest)).map (d :: ·)

/-- The integer written in decimal with blanks around it, a sign of either kind and single `_`
between digits. -/
def readInt (text : Text) : Except NumeralError Int :=
  let trimmed := text.trim
  let body := match trimmed with
    | c :: rest => if c = '-' ∨ c = '+' then rest else trimmed
    | [] => trimmed
  match groupedDigits? body with
  | none => .error (.malformed 10 text)
  | some ds =>
    if decimalLimit < ds.length then .error .tooManyDigits
    else if trimmed.head? = some ('-' : CodePoint) then .ok (-(value 10 ds : Int))
    else .ok (value 10 ds)

end Numeral

/-- The wording of a numeral error. -/
def NumeralError.message : NumeralError → Text
  | .tooManyDigits => .concat ["Exceeds the limit (", Numeral.ofNat 10 Numeral.decimalLimit, " digits)"]
  | .malformed base text =>
    .concat ["invalid literal for int() with base ", Numeral.ofNat 10 base, ": ",
      text.quoted.take Numeral.shownLimit]

end ContractKit
