import ContractKit.Number.Digits

/-!
# Binary floating point

The numbers of the IEEE 754 format binary64, kept exactly as `mantissa * 2 ^ exponent`.
`Binary64.ofDecimal` reads a decimal number, rounding to the nearest and a tie to the even
mantissa. `Binary64.shortest` finds the fewest decimal digits that read back, the nearest of
those, and `Binary64.text` writes them: positionally from `10 ^ -4` up to `10 ^ 16`, with an exponent
outside.
-/

namespace ContractKit

/-- A binary64 number. -/
inductive Binary64 where
  /-- Not a number. -/
  | nan
  /-- Infinity of either sign. -/
  | infinite (negative : Bool)
  /-- `± mantissa * 2 ^ exponent`, the mantissa below `2 ^ 53` and as large as the format allows. -/
  | finite (negative : Bool) (mantissa : Nat) (exponent : Int)
deriving DecidableEq

namespace Binary64

/-- The least exponent of the format. -/
def minExponent : Int := -1074

/-- The greatest exponent of the format. -/
def maxExponent : Int := 971

/-- `numerator / denominator` rounded to a whole number, a tie to the even one. -/
def roundDiv (numerator denominator : Nat) : Nat :=
  let quotient := numerator / denominator
  let twice := 2 * (numerator % denominator)
  if twice < denominator then quotient
  else if denominator < twice then quotient + 1
  else quotient + quotient % 2

/-- `numerator / denominator` as a fraction of `2 ^ exponent`. -/
def scale (numerator denominator : Nat) (exponent : Int) : Nat × Nat :=
  if 0 ≤ exponent then (numerator, denominator * Nat.pow 2 exponent.toNat)
  else (numerator * Nat.pow 2 (-exponent).toNat, denominator)

/-- The least mantissa that takes all 53 bits, `2 ^ 52`. -/
def leastFullMantissa : Nat := 0x10000000000000

/-- The nearest number of the format to `± numerator / denominator`. -/
def ofRatio (negative : Bool) (numerator denominator : Nat) : Binary64 :=
  if numerator = 0 then .finite negative 0 minExponent
  else
    let guess : Int := (Nat.log2 numerator : Int) - Nat.log2 denominator - 52
    let (n, d) := scale numerator denominator guess
    let exponent := max minExponent (if n / d < leastFullMantissa then guess - 1 else guess)
    let (n, d) := scale numerator denominator exponent
    let rounded := roundDiv n d
    let (mantissa, exponent) :=
      if rounded = 2 * leastFullMantissa then (leastFullMantissa, exponent + 1) else (rounded, exponent)
    if maxExponent < exponent then .infinite negative else .finite negative mantissa exponent

/-- The nearest number of the format to `± significand * 10 ^ exponent`. Beyond the range of the
format the exponent is not worked out. -/
def ofDecimal (negative : Bool) (significand : Nat) (exponent : Int) : Binary64 :=
  let magnitude := (Numeral.digits 10 significand).length + exponent
  if significand = 0 ∨ magnitude < -400 then .finite negative 0 minExponent
  else if 400 < magnitude then .infinite negative
  else if 0 ≤ exponent then ofRatio negative (significand * Nat.pow 10 exponent.toNat) 1
  else ofRatio negative significand (Nat.pow 10 (-exponent).toNat)

/-! ## Shortest decimal text -/

/-- Whether `significand * 10 ^ exponent` is read back as the positive number
`mantissa * 2 ^ binary`. -/
def readsBack (mantissa : Nat) (binary : Int) (significand : Nat) (exponent : Int) : Bool :=
  ofDecimal false significand exponent == .finite false mantissa binary

/-- The power of ten just above `mantissa * 2 ^ binary`. -/
def decimalMagnitude (mantissa : Nat) (binary : Int) : Int :=
  if 0 ≤ binary then (Numeral.digits 10 (mantissa * Nat.pow 2 binary.toNat)).length
  else
    let denominator := Nat.pow 2 (-binary).toNat
    if denominator ≤ mantissa then (Numeral.digits 10 (mantissa / denominator)).length
    else
      let lifts := (List.range 400).find? fun lift => denominator ≤ mantissa * Nat.pow 10 (lift + 1)
      Int.negOfNat (lifts.getD 0)

/-- On the grid of `digits` significant decimal digits, the neighbour of
`mantissa * 2 ^ binary` that reads back, the nearer one if both do. -/
def onGrid? (mantissa : Nat) (binary : Int) (digits : Nat) : Option (Nat × Int) :=
  let exponent := decimalMagnitude mantissa binary - digits
  let (n, d) := scale mantissa 1 (-binary)
  let (n, d) :=
    if 0 ≤ exponent then (n, d * Nat.pow 10 exponent.toNat)
    else (n * Nat.pow 10 (-exponent).toNat, d)
  let below := n / d
  let nearest := roundDiv n d
  let other := if nearest = below then below + 1 else below
  if readsBack mantissa binary nearest exponent then some (nearest, exponent)
  else if readsBack mantissa binary other exponent then some (other, exponent)
  else none

/-- The shortest decimal that reads back, as `significand * 10 ^ exponent`. -/
def shortest (mantissa : Nat) (binary : Int) : Nat × Int :=
  ((List.range 17).findSome? fun n => onGrid? mantissa binary (n + 1)).getD (mantissa, binary)

/-- The significant digits without the zeros at their end. -/
def significantDigits (significand : Nat) : List Nat :=
  ((Numeral.digits 10 significand).reverse.dropWhile (· = 0)).reverse

/-- Digits with the point standing `point` places after the first of them, with an exponent where
that is outside `-4 < point ≤ 16`. -/
def layout (ds : List Nat) (point : Int) : Text :=
  let chars := ds.map Numeral.digitChar
  if -4 < point ∧ point ≤ 0 then
    .concat ["0.", List.replicate (-point).toNat '0', chars]
  else if 0 < point ∧ point ≤ 16 then
    let whole := Text.padRight '0' point.toNat (chars.take point.toNat)
    let fraction := chars.drop point.toNat
    .concat [whole, ".", if fraction.isEmpty then "0" else fraction]
  else
    let exponent := point - 1
    let width := (Numeral.digits 10 exponent.natAbs).map Numeral.digitChar
    .concat [chars.take 1, if chars.length ≤ 1 then "" else ".", chars.drop 1, "e",
      if exponent < 0 then "-" else "+", Text.padLeft '0' 2 width]

/-- The shortest text that reads back; a whole number keeps one zero behind the point. -/
def text : Binary64 → Text
  | .nan => "nan"
  | .infinite negative => if negative then "-inf" else "inf"
  | .finite negative mantissa exponent =>
    let unsigned : Text :=
      if mantissa = 0 then "0.0"
      else
        let (significand, power) := shortest mantissa exponent
        let all := Numeral.digits 10 significand
        layout (significantDigits significand) (all.length + power)
    if negative then '-' :: unsigned else unsigned

end Binary64

end ContractKit
