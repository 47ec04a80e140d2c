import ContractKit.Number.Numeral
import ContractKit.Text.Lowercase
import ContractKit.Value.Kind

/-!
# Addresses, integers and fixed points as text

The canonical text of an address has sixteen lower-case hexadecimal digits (`Address.normalize`).
Integers are checked against the range of their type (`IntegerKind.check`). Fixed points are whole
numbers of units of `10 ^ -8`, read by `FixedPoint.read` and written by `FixedPoint.print`.
`ScalarError` says why a text is none of these.
-/

namespace ContractKit

/-- Why a text or a number is no value of a type. -/
inductive ScalarError where
  /-- A numeral could not be read or written. -/
  | numeral (e : NumeralError)
  /-- The text is no address. -/
  | address (text : Text)
  /-- The number, given as text, lies outside the range of the type. -/
  | outOfRange (number type : Text)
  /-- The text is no fixed-point numeral. -/
  | fixedPoint (type text : Text)
  /-- The text has more decimal places than the type. -/
  | tooManyPlaces (type : Text)
deriving DecidableEq

/-- How many decimal places fixed points have. -/
def fixedPlaces : Nat := 8

/-- How many units make one. -/
def fixedFactor : Nat := Nat.pow 10 fixedPlaces

/-- The wording of an error. -/
def ScalarError.message : ScalarError → Text
  | .numeral e => e.message
  | .address text => .concat ["Invalid address: ", text.quoted]
  | .outOfRange number type => .concat [number, " is out of range for ", type]
  | .fixedPoint type text => .concat ["Invalid ", type, " value: ", text.quoted]
  | .tooManyPlaces type =>
    .concat [type, " supports at most ", Numeral.ofNat 10 fixedPlaces, " fractional digits"]

/-! ## Addresses -/

namespace Address

/-- The number of hexadecimal digits of an address. -/
def width : Nat := 16

/-- A hexadecimal digit in lower case. -/
def isDigit (c : CodePoint) : Bool :=
  c.between '0' '9' || c.between 'a' 'f'

/-- The digits an address text holds, without blanks around it, in lower case and without the
`0x` it may start with. -/
def bare (text : Text) : Text :=
  let lowered := text.trim.lower
  (Text.dropStart? "0x" lowered).getD lowered

/-- The sixteen digits of an address. -/
def normalize (text : Text) : Except ScalarError Text :=
  let digits := bare text
  if digits = [] ∨ width < digits.length ∨ ¬ digits.all isDigit then .error (.address text)
  else .ok (Text.padLeft '0' width digits)

end Address

/-! ## Integers -/

/-- The number itself, when it is one of the type. -/
def IntegerKind.check (kind : IntegerKind) (n : Int) : Except ScalarError Int :=
  if kind.InRange n then .ok n
  else
    match Numeral.print n with
    | .ok text => .error (.outOfRange text kind.name)
    | .error e => .error (.numeral e)

/-! ## Fixed points -/

namespace FixedPoint

/-- The text of `raw` units, with all eight places. -/
def write (raw : Int) : Text :=
  .concat [if raw < 0 then "-" else "", Numeral.ofNat 10 (raw.natAbs / fixedFactor), ".",
    Text.padLeft '0' fixedPlaces (Numeral.ofNat 10 (raw.natAbs % fixedFactor))]

/-- The text of `raw` units, refused when the ones have too many digits. -/
def print (raw : Int) : Except NumeralError Text :=
  if Numeral.decimalLimit < (Numeral.digits 10 (raw.natAbs / fixedFactor)).length then
    .error .tooManyDigits
  else .ok (write raw)

/-- A minus sign or none, decimal digits, a point and decimal digits: the sign and the two runs of
digits. -/
def split? (text : Text) : Option (Bool × Text × Text) :=
  let negative := text.head? = some ('-' : CodePoint)
  let unsigned := if negative then text.drop 1 else text
  let whole := unsigned.takeWhile CodePoint.isDecimal
  match unsigned.dropWhile CodePoint.isDecimal with
  | [] => none
  | point :: fraction =>
    if point = '.' ∧ whole ≠ [] ∧ fraction ≠ [] ∧ fraction.all CodePoint.isDecimal then
      some (negative, whole, fraction)
    else none

/-- The units of the fixed point a text holds. -/
def read (kind : FixedKind) (text : Text) : Except ScalarError Int :=
  match split? text.trim with
  | none => .error (.fixedPoint kind.name text)
  | some (negative, whole, fraction) =>
    if fixedPlaces < fraction.length then .error (.tooManyPlaces kind.name)
    else
      match Numeral.readDecimal whole,
          Numeral.readDecimal (Text.padRight '0' fixedPlaces fraction) with
      | .ok ones, .ok places =>
        let units : Int := (ones * fixedFactor + places : Nat)
        let raw := if negative then -units else units
        if kind.InRange raw then .ok raw else .error (.outOfRange text kind.name)
      | .error e, _ => .error (.numeral e)
      | _, .error e => .error (.numeral e)

end FixedPoint

end ContractKit
