import ContractKit.Proofs.PointMultiple

/-!
# Sums of valid points

The valid points of a smooth curve are those that stand for group elements
(`Curve.IsSmooth.isValid_iff_exists_denotes`), and points that stand for elements have a sum that stands
for the sum of the elements. So valid points have a valid sum, and since the group is commutative their
order does not matter (`Curve.exists_valid_sum`).
-/

namespace ContractKit

namespace Curve

variable {curve : Curve}

section

variable [Fact curve.p.Prime]

/-- A point that stands for an element is valid. -/
theorem Denotes.isValid {point : Point} {g : curve.overField.Point} (h : curve.Denotes point g) :
    curve.IsValid point := by
  cases point with
  | infinity => trivial
  | affine x y =>
    obtain ⟨hx, hy, hnonsingular, -⟩ := h
    exact ⟨hx, hy, contains_iff.mpr hnonsingular.1⟩

/-- The valid points are those that stand for elements. -/
theorem IsSmooth.isValid_iff_exists_denotes (h : curve.IsSmooth) {point : Point} :
    curve.IsValid point ↔ ∃ g, curve.Denotes point g :=
  ⟨h.exists_denotes_of_isValid, fun ⟨_, hg⟩ => hg.isValid⟩

/-- Valid points of a smooth curve have a valid sum, in either order. -/
theorem IsSmooth.exists_add_comm (h : curve.IsSmooth) {point point' : Point}
    (hpoint : curve.IsValid point) (hpoint' : curve.IsValid point') :
    ∃ sum, curve.add point point' = .ok sum ∧ curve.IsValid sum ∧
      curve.add point' point = .ok sum := by
  obtain ⟨g, hg⟩ := h.isValid_iff_exists_denotes.mp hpoint
  obtain ⟨g', hg'⟩ := h.isValid_iff_exists_denotes.mp hpoint'
  obtain ⟨sum, hsum, hdenotes⟩ := h.exists_add hg hg'
  obtain ⟨swapped, hswapped, hswappedDenotes⟩ := h.exists_add hg' hg
  rw [add_comm] at hswappedDenotes
  exact ⟨sum, hsum, hdenotes.isValid, hdenotes.unique hswappedDenotes ▸ hswapped⟩

end

/-- On the curve of an algorithm any two valid points have a sum: no number that is divided by lacks an
inverse, and the formulas give a point of the curve. The sum is valid and does not depend on the order
of the points. -/
theorem exists_valid_sum {algorithm : Text} (hcurve : ofAlgorithm? algorithm = some curve)
    {point point' : Point} (hpoint : curve.IsValid point) (hpoint' : curve.IsValid point') :
    ∃ sum, curve.add point point' = .ok sum ∧ curve.IsValid sum ∧
      curve.add point' point = .ok sum := by
  obtain ⟨hp, hn⟩ := prime_of_ofAlgorithm? hcurve
  have : Fact curve.p.Prime := ⟨hp⟩
  obtain ⟨hsmooth, -⟩ := exists_generator (hasGenerator_of_ofAlgorithm? hcurve) hn
  exact hsmooth.exists_add_comm hpoint hpoint'

/-- A generator and its double, whose line is a chord. -/
theorem exists_valid_sum_generator_double : ∃ double sum,
    secp256k1.add secp256k1.generator secp256k1.generator = .ok double ∧
      double ≠ secp256k1.generator ∧
      secp256k1.add secp256k1.generator double = .ok sum ∧ secp256k1.IsValid sum ∧
      secp256k1.add double secp256k1.generator = .ok sum := by
  have hcurve : ofAlgorithm? "ECDSA_secp256k1" = some secp256k1 := rfl
  have hgenerator : secp256k1.IsValid secp256k1.generator := by decide +kernel
  obtain ⟨double, hdouble, hvalid, -⟩ := exists_valid_sum hcurve hgenerator hgenerator
  obtain ⟨sum, hsum⟩ := exists_valid_sum hcurve hgenerator hvalid
  refine ⟨double, sum, hdouble, ?_, hsum⟩
  rintro rfl
  exact absurd hdouble (by decide +kernel)

end Curve

end ContractKit
