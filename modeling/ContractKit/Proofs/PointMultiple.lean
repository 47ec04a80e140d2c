import ContractKit.Proofs.CurveOrder

/-!
# Multiples as repeated sums

Multiplying by doubling and adding gives what adding the point again and again gives. A valid point
stands for a group element (`Curve.IsSmooth.exists_denotes_of_isValid`), each further sum adds that
element once more (`Curve.IsSmooth.exists_repeatedSum`), and the digits of a number give the same multiple
of it, so both ways end at one point (`Curve.multiply_eq_repeatedSum`).
-/

namespace ContractKit

namespace Curve

/-- The point added `k` times to the point at infinity, one sum after the other. -/
def repeatedSum (curve : Curve) (point : Point) : Nat → Except CurveError Point
  | 0 => .ok .infinity
  | k + 1 => do
    let sum ← curve.repeatedSum point k
    curve.add sum point

/-- The point at infinity, or a point of the curve with reduced coordinates. -/
def IsValid (curve : Curve) : Point → Prop
  | .infinity => True
  | .affine x y => (0 ≤ x ∧ x < curve.p) ∧ (0 ≤ y ∧ y < curve.p) ∧
    curve.contains (.affine x y) = true

instance (curve : Curve) : DecidablePred curve.IsValid
  | .infinity => isTrue trivial
  | .affine x y => inferInstanceAs (Decidable ((0 ≤ x ∧ x < curve.p) ∧ (0 ≤ y ∧ y < curve.p) ∧
      curve.contains (.affine x y) = true))

variable {curve : Curve}

section

variable [Fact curve.p.Prime]

/-- A valid point stands for an element. -/
theorem IsSmooth.exists_denotes_of_isValid (h : curve.IsSmooth) {point : Point}
    (hpoint : curve.IsValid point) : ∃ g, curve.Denotes point g := by
  cases point with
  | infinity => exact ⟨0, rfl⟩
  | affine x y =>
    obtain ⟨hx, hy, hcontains⟩ := hpoint
    exact h.exists_denotes hx hy hcontains

/-- Adding a point `k` times does not fail and takes the multiple by `k` in the group. -/
theorem IsSmooth.exists_repeatedSum (h : curve.IsSmooth) {point : Point}
    {g : curve.overField.Point} (hpoint : curve.Denotes point g) (k : Nat) :
    ∃ sum, curve.repeatedSum point k = .ok sum ∧ curve.Denotes sum (k • g) := by
  induction k with
  | zero => exact ⟨.infinity, rfl, zero_nsmul g⟩
  | succ k ih =>
    obtain ⟨sum, hsum, hdenotes⟩ := ih
    obtain ⟨next, hnext, hnextDenotes⟩ := h.exists_add hdenotes hpoint
    refine ⟨next, ?_, ?_⟩
    · rw [repeatedSum, hsum, ok_bind, hnext]
    · rwa [succ_nsmul]

end

/-- On the curve of an algorithm a multiple of a valid point is found without error, by any number, and
it is the point added as often to the point at infinity as the number says modulo the order. -/
theorem multiply_eq_repeatedSum {algorithm : Text} (hcurve : ofAlgorithm? algorithm = some curve)
    {point : Point} (hpoint : curve.IsValid point) (k : Int) :
    ∃ product, curve.multiply k point = .ok product ∧
      curve.repeatedSum point (k % curve.n).toNat = .ok product := by
  obtain ⟨hp, hn⟩ := prime_of_ofAlgorithm? hcurve
  have : Fact curve.p.Prime := ⟨hp⟩
  obtain ⟨hsmooth, -⟩ := exists_generator (hasGenerator_of_ofAlgorithm? hcurve) hn
  obtain ⟨g, hg⟩ := hsmooth.exists_denotes_of_isValid hpoint
  obtain ⟨product, hproduct, hdenotes⟩ := hsmooth.exists_multiply_emod hg k
  obtain ⟨sum, hsum, hsumDenotes⟩ := hsmooth.exists_repeatedSum hg (k % curve.n).toNat
  exact ⟨product, hproduct, hdenotes.unique hsumDenotes ▸ hsum⟩

/-- The opposite of a generator is the generator added once less than its order says. -/
theorem multiply_neg_one_generator : ∃ product,
    secp256k1.multiply (-1) secp256k1.generator = .ok product ∧
      secp256k1.repeatedSum secp256k1.generator ((-1) % (secp256k1.n : Int)).toNat = .ok product :=
  multiply_eq_repeatedSum (show ofAlgorithm? "ECDSA_secp256k1" = some secp256k1 from rfl)
    (show secp256k1.IsValid secp256k1.generator by decide +kernel) (-1)

end Curve

end ContractKit
