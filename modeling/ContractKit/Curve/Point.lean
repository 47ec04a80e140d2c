import ContractKit.Number.Numeral

/-!
# Elliptic curves

Short Weierstrass curves `y² = x³ + a x + b` over a prime field, with the point at infinity.
`Curve.add` adds two points and `Curve.multiply` takes multiples by doubling and adding. Both refuse
points for which the formulas do not give a point of the curve.
-/

namespace ContractKit

/-- A curve with a generator of prime order. -/
structure Curve where
  /-- The order of the field. -/
  p : Nat
  /-- The order of the generator. -/
  n : Nat
  /-- The coefficient of `x`. -/
  a : Int
  /-- The constant coefficient. -/
  b : Int
  /-- The first coordinate of the generator. -/
  gx : Int
  /-- The second coordinate of the generator. -/
  gy : Int

/-- A point: the one at infinity, or one given by its coordinates. -/
inductive Point where
  | infinity
  | affine (x y : Int)
deriving DecidableEq

/-- Why two points have no sum. -/
inductive CurveError where
  /-- A number that has to be divided by has no inverse. -/
  | notInvertible
  /-- The formulas give no point of the curve. -/
  | offCurve
deriving DecidableEq

/-- The wording of an error. -/
def CurveError.message : CurveError → Text
  | .notInvertible => "base is not invertible for the given modulus"
  | .offCurve => "Point operation produced invalid curve point"

/-! ## Inverses -/

/-- Euclid's algorithm on `a` and `b`: their greatest common divisor and its coefficient, where `s`
and `t` are the coefficients of `a` and `b`. -/
def bezout (a b : Nat) (s t : Int) : Nat × Int :=
  if _h : b = 0 then (a, s) else bezout b (a % b) t (s - (a / b : Nat) * t)
termination_by b
decreasing_by exact Nat.mod_lt _ (Nat.pos_of_ne_zero _h)

/-- The inverse of `a` modulo `m`, between `0` and `m`. -/
def inverse? (a : Int) (m : Nat) : Option Int :=
  match bezout (a % m).toNat m 1 0 with
  | (1, s) => some (s % m)
  | _ => none

/-- The inverse of `a` modulo `m`, or the error that there is none. -/
def invert (a : Int) (m : Nat) : Except CurveError Int :=
  match inverse? a m with
  | some r => .ok r
  | none => .error .notInvertible

namespace Curve

/-- The generator. -/
def generator (curve : Curve) : Point :=
  .affine curve.gx curve.gy

/-- Whether the coordinates satisfy the equation of the curve; the point at infinity lies on every
curve. -/
def contains (curve : Curve) : Point → Bool
  | .infinity => true
  | .affine x y => (y * y - (x * x * x + curve.a * x + curve.b)) % curve.p = 0

/-- The slope of the line through two points, the tangent when they are the same. -/
def slope (curve : Curve) (x₁ y₁ x₂ y₂ : Int) : Except CurveError Int :=
  if x₁ = x₂ ∧ y₁ = y₂ then do
    let d ← invert (2 * y₁ % curve.p) curve.p
    .ok ((3 * x₁ * x₁ + curve.a) * d % curve.p)
  else do
    let d ← invert ((x₂ - x₁) % curve.p) curve.p
    .ok ((y₂ - y₁) * d % curve.p)

/-- The third point of the line of the given slope, reflected. -/
def third (curve : Curve) (slope x₁ y₁ x₂ : Int) : Point :=
  let x₃ := (slope * slope - x₁ - x₂) % curve.p
  .affine x₃ ((slope * (x₁ - x₃) - y₁) % curve.p)

/-- The sum of two points. -/
def add (curve : Curve) : Point → Point → Except CurveError Point
  | .infinity, q => .ok q
  | p, .infinity => .ok p
  | .affine x₁ y₁, .affine x₂ y₂ =>
    if x₁ = x₂ ∧ (y₁ + y₂) % curve.p = 0 then .ok .infinity
    else do
      let m ← curve.slope x₁ y₁ x₂ y₂
      let sum := curve.third m x₁ y₁ x₂
      if curve.contains sum then .ok sum else .error .offCurve

/-- `result + k * addend`, by the binary digits of `k` from the lowest. The addend is doubled once
for every digit. -/
def multiplyFrom (curve : Curve) (k : Nat) (result addend : Point) : Except CurveError Point :=
  if _h : k = 0 then .ok result
  else do
    let result ← if k % 2 = 1 then curve.add result addend else .ok result
    let addend ← curve.add addend addend
    curve.multiplyFrom (k / 2) result addend
termination_by k
decreasing_by omega

/-- The multiple `k * point`, with `k` taken modulo the order of the generator. -/
def multiply (curve : Curve) (k : Int) (point : Point) : Except CurveError Point :=
  if k % curve.n = 0 ∨ point = .infinity then .ok .infinity
  else curve.multiplyFrom (k % curve.n).toNat .infinity point

end Curve

end ContractKit
