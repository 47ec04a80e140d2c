import Mathlib.AlgebraicGeometry.EllipticCurve.Affine.Point
import ContractKit.Curve.PrivateKey
import ContractKit.Proofs.Result

/-!
# Points as group elements

The points of a curve over a prime field form a group. `Curve.Denotes` says which element of the group a
point with reduced coordinates stands for. On such points addition never fails and adds in the group
(`Curve.IsSmooth.exists_add`): a number that is divided by has an inverse, and the sum lies on the
curve. So multiplication takes multiples in the group (`Curve.IsSmooth.exists_multiply_emod`).
-/

namespace ContractKit

/-! ## Inverses -/

/-- Euclid's algorithm gives the greatest common divisor and keeps both numbers multiples of `x`, the
coefficients being the factors. -/
theorem bezout_spec {m : Nat} {x : ZMod m} (a b : Nat) (s t : Int) (ha : (a : ZMod m) = s * x)
    (hb : (b : ZMod m) = t * x) :
    (bezout a b s t).1 = a.gcd b ∧ (a.gcd b : ZMod m) = (bezout a b s t).2 * x := by
  induction b using Nat.strong_induction_on generalizing a s t with
  | _ b ih =>
    rw [bezout]
    split_ifs with hzero
    · rw [hzero, Nat.gcd_zero_right]
      exact ⟨rfl, ha⟩
    · have hmod : ((a % b : Nat) : ZMod m) = (s - (a / b : Nat) * t : Int) * x := by
        have hdiv : (a : ZMod m) = b * (a / b : Nat) + (a % b : Nat) := by
          rw [← Nat.cast_mul, ← Nat.cast_add, Nat.div_add_mod]
        rw [Int.cast_sub, Int.cast_mul, Int.cast_natCast, sub_mul, ← ha, mul_assoc, ← hb, hdiv]
        ring
      have := ih (a % b) (Nat.mod_lt _ (Nat.pos_of_ne_zero hzero)) b t _ hb hmod
      rwa [Nat.gcd_comm, ← Nat.gcd_rec, Nat.gcd_comm] at this

/-- Modulo a prime everything but zero has an inverse. -/
theorem exists_invert {p : Nat} [Fact p.Prime] {a : Int} (h : (a : ZMod p) ≠ 0) :
    ∃ d, invert a p = .ok d ∧ (d : ZMod p) = (a : ZMod p)⁻¹ := by
  obtain ⟨r, hr⟩ : ∃ r, r = (a % p).toNat := ⟨_, rfl⟩
  have hpos : (p : Int) ≠ 0 := Int.natCast_ne_zero.mpr (NeZero.ne p)
  have hcast : (r : ZMod p) = a := by
    have hnonneg : ((r : Nat) : Int) = a % p := by
      rw [hr, Int.toNat_of_nonneg (Int.emod_nonneg a hpos)]
    rw [← Int.cast_natCast, hnonneg, ZMod.intCast_mod]
  have hcoprime : r.gcd p = 1 := by
    rw [← Nat.coprime_iff_gcd_eq_one, ← ZMod.isUnit_iff_coprime, hcast]
    exact h.isUnit
  obtain ⟨hgcd, hcoefficient⟩ := bezout_spec (x := (a : ZMod p)) r p 1 0 (by simp [hcast]) (by simp)
  rw [hcoprime] at hgcd hcoefficient
  obtain ⟨⟨g, s⟩, hrun⟩ : ∃ run, bezout r p 1 0 = run := ⟨_, rfl⟩
  rw [hrun] at hgcd hcoefficient
  obtain rfl : g = 1 := hgcd
  refine ⟨s % p, ?_, ?_⟩
  · rw [invert, inverse?, ← hr, hrun]
    rfl
  · rw [ZMod.intCast_mod]
    exact eq_inv_of_mul_eq_one_left (by rw [← hcoefficient, Nat.cast_one])

/-! ## The group -/

namespace Curve

variable (curve : Curve) [Fact curve.p.Prime]

/-- The curve over its prime field. -/
def overField : WeierstrassCurve.Affine (ZMod curve.p) :=
  ⟨0, 0, 0, curve.a, curve.b⟩

/-- The order of the field is odd and the curve has no singular point. -/
structure IsSmooth : Prop where
  odd : curve.p ≠ 2
  discriminant : (4 * curve.a ^ 3 + 27 * curve.b ^ 2 : Int) % curve.p ≠ 0

/-- The group element that a point stands for, if its coordinates are reduced. -/
def Denotes : Point → curve.overField.Point → Prop
  | .infinity, g => g = 0
  | .affine x y, g => (0 ≤ x ∧ x < curve.p) ∧ (0 ≤ y ∧ y < curve.p) ∧
    ∃ h, g = .some (x : ZMod curve.p) (y : ZMod curve.p) h

variable {curve}

theorem equation_iff {x y : ZMod curve.p} : curve.overField.Equation x y ↔
    y * y - (x * x * x + curve.a * x + curve.b) = 0 := by
  rw [WeierstrassCurve.Affine.equation_iff']
  simp only [overField]
  ring_nf

theorem negY_eq (x y : ZMod curve.p) : curve.overField.negY x y = -y := by
  simp [WeierstrassCurve.Affine.negY, overField]

theorem addX_eq (x₁ x₂ m : ZMod curve.p) : curve.overField.addX x₁ x₂ m = m ^ 2 - x₁ - x₂ := by
  simp [WeierstrassCurve.Affine.addX, overField]

theorem addY_eq (x₁ x₂ y₁ m : ZMod curve.p) :
    curve.overField.addY x₁ x₂ y₁ m = m * (x₁ - (m ^ 2 - x₁ - x₂)) - y₁ := by
  rw [WeierstrassCurve.Affine.addY, negY_eq, WeierstrassCurve.Affine.negAddY, addX_eq]
  ring

/-- The slope of the tangent. -/
theorem slope_self {x y : ZMod curve.p} (hy : y ≠ -y) :
    curve.overField.slope x x y y = (3 * x ^ 2 + curve.a) / (2 * y) := by
  rw [WeierstrassCurve.Affine.slope_of_Y_ne rfl (by rwa [negY_eq]), negY_eq, sub_neg_eq_add,
    ← two_mul]
  simp [overField]

theorem contains_iff {x y : Int} : curve.contains (.affine x y) = true ↔
    curve.overField.Equation (x : ZMod curve.p) (y : ZMod curve.p) := by
  rw [equation_iff, contains, decide_eq_true_eq, ← Int.dvd_iff_emod_eq_zero,
    ← ZMod.intCast_zmod_eq_zero_iff_dvd]
  push_cast
  rfl

theorem IsSmooth.two_ne_zero (h : curve.IsSmooth) : (2 : ZMod curve.p) ≠ 0 := by
  intro hzero
  have hdvd : curve.p ∣ 2 := (ZMod.natCast_eq_zero_iff 2 curve.p).mp (by exact_mod_cast hzero)
  exact h.odd ((Nat.prime_dvd_prime_iff_eq Fact.out Nat.prime_two).mp hdvd)

theorem IsSmooth.discriminant_ne_zero (h : curve.IsSmooth) : curve.overField.Δ ≠ 0 := by
  have hdiscriminant : (4 * curve.a ^ 3 + 27 * curve.b ^ 2 : ZMod curve.p) ≠ 0 := by
    intro hzero
    refine h.discriminant (Int.emod_eq_zero_of_dvd ?_)
    rw [← ZMod.intCast_zmod_eq_zero_iff_dvd]
    exact_mod_cast hzero
  have heq : curve.overField.Δ = - 2 ^ 4 * (4 * curve.a ^ 3 + 27 * curve.b ^ 2) := by
    simp only [WeierstrassCurve.Δ, WeierstrassCurve.b₂, WeierstrassCurve.b₄, WeierstrassCurve.b₆,
      WeierstrassCurve.b₈, overField]
    ring
  rw [heq]
  exact mul_ne_zero (neg_ne_zero.mpr (pow_ne_zero 4 h.two_ne_zero)) hdiscriminant

/-- A point of the curve with reduced coordinates stands for an element. -/
theorem IsSmooth.exists_denotes (h : curve.IsSmooth) {x y : Int} (hx : 0 ≤ x ∧ x < curve.p)
    (hy : 0 ≤ y ∧ y < curve.p) (hcontains : curve.contains (.affine x y) = true) :
    ∃ g, curve.Denotes (.affine x y) g :=
  ⟨_, hx, hy, (WeierstrassCurve.Affine.equation_iff_nonsingular_of_Δ_ne_zero
    h.discriminant_ne_zero).mp (contains_iff.mp hcontains), rfl⟩

/-! ## Reduced coordinates -/

theorem cast_inj {x y : Int} (hx : 0 ≤ x ∧ x < curve.p) (hy : 0 ≤ y ∧ y < curve.p) :
    (x : ZMod curve.p) = y ↔ x = y := by
  rw [ZMod.intCast_eq_intCast_iff', Int.emod_eq_of_lt hx.1 hx.2, Int.emod_eq_of_lt hy.1 hy.2]

theorem emod_reduced (curve : Curve) [Fact curve.p.Prime] (x : Int) :
    0 ≤ x % curve.p ∧ x % curve.p < curve.p := by
  have hpos : (0 : Int) < curve.p := Int.natCast_pos.mpr (NeZero.pos curve.p)
  exact ⟨Int.emod_nonneg x hpos.ne', Int.emod_lt_of_pos x hpos⟩

/-- A group element belongs to one point. -/
theorem Denotes.unique {point point' : Point} {g : curve.overField.Point}
    (h : curve.Denotes point g) (h' : curve.Denotes point' g) : point = point' := by
  match point, point', h, h' with
  | .infinity, .infinity, _, _ => rfl
  | .infinity, .affine _ _, h, ⟨_, _, hnonsingular, h'⟩ =>
    exact absurd (h'.symm.trans h) (WeierstrassCurve.Affine.Point.some_ne_zero hnonsingular)
  | .affine _ _, .infinity, ⟨_, _, hnonsingular, h⟩, h' =>
    exact absurd (h.symm.trans h') (WeierstrassCurve.Affine.Point.some_ne_zero hnonsingular)
  | .affine x y, .affine x' y', ⟨hx, hy, _, h⟩, ⟨hx', hy', _, h'⟩ =>
    obtain ⟨hxx, hyy⟩ := WeierstrassCurve.Affine.Point.some.inj (h.symm.trans h')
    rw [(cast_inj hx hx').mp hxx, (cast_inj hy hy').mp hyy]

/-- A point stands for one element. -/
theorem Denotes.element_unique {point : Point} {g g' : curve.overField.Point}
    (h : curve.Denotes point g) (h' : curve.Denotes point g') : g = g' := by
  cases point with
  | infinity => exact h.trans h'.symm
  | affine x y =>
    obtain ⟨-, -, _, rfl⟩ := h
    obtain ⟨-, -, _, rfl⟩ := h'
    rfl

/-! ## Addition -/

/-- The slope is that of the line through both points, if they are not opposite. -/
theorem IsSmooth.exists_slope (h : curve.IsSmooth) {x₁ y₁ x₂ y₂ : Int}
    (hx₁ : 0 ≤ x₁ ∧ x₁ < curve.p) (hy₁ : 0 ≤ y₁ ∧ y₁ < curve.p) (hx₂ : 0 ≤ x₂ ∧ x₂ < curve.p)
    (hy₂ : 0 ≤ y₂ ∧ y₂ < curve.p)
    (h₁ : curve.overField.Equation (x₁ : ZMod curve.p) (y₁ : ZMod curve.p))
    (h₂ : curve.overField.Equation (x₂ : ZMod curve.p) (y₂ : ZMod curve.p))
    (hopposite : ¬ ((x₁ : ZMod curve.p) = x₂ ∧ (y₁ : ZMod curve.p) = -y₂)) :
    ∃ m, curve.slope x₁ y₁ x₂ y₂ = .ok m ∧
      (m : ZMod curve.p) = curve.overField.slope (x₁ : ZMod curve.p) x₂ y₁ y₂ := by
  unfold slope
  split_ifs with hsame
  · obtain ⟨rfl, rfl⟩ := hsame
    have hy : (y₁ : ZMod curve.p) ≠ -y₁ := fun hy => hopposite ⟨rfl, hy⟩
    have hdouble : ((2 * y₁ % curve.p : Int) : ZMod curve.p) ≠ 0 := by
      rw [ZMod.intCast_mod, Int.cast_mul]
      refine mul_ne_zero (by exact_mod_cast h.two_ne_zero) fun hzero => hy ?_
      rw [hzero, neg_zero]
    obtain ⟨d, hd, hcast⟩ := exists_invert hdouble
    refine ⟨_, by rw [hd]; rfl, ?_⟩
    rw [slope_self hy, ZMod.intCast_mod, Int.cast_mul, hcast, ZMod.intCast_mod, div_eq_mul_inv]
    push_cast
    ring
  · have hne : (x₁ : ZMod curve.p) ≠ x₂ := by
      intro heq
      rcases WeierstrassCurve.Affine.Y_eq_of_X_eq h₁ h₂ heq with hy | hy
      · exact hsame ⟨(cast_inj hx₁ hx₂).mp heq, (cast_inj hy₁ hy₂).mp hy⟩
      · exact hopposite ⟨heq, negY_eq (x₂ : ZMod curve.p) y₂ ▸ hy⟩
    have hdifference : (((x₂ - x₁) % curve.p : Int) : ZMod curve.p) ≠ 0 := by
      rw [ZMod.intCast_mod, Int.cast_sub]
      exact sub_ne_zero.mpr hne.symm
    obtain ⟨d, hd, hcast⟩ := exists_invert hdifference
    refine ⟨_, by rw [hd]; rfl, ?_⟩
    rw [WeierstrassCurve.Affine.slope_of_X_ne hne, ZMod.intCast_mod, Int.cast_mul, hcast,
      ZMod.intCast_mod, ← neg_div_neg_eq, neg_sub, neg_sub, div_eq_mul_inv, Int.cast_sub,
      Int.cast_sub]

/-- The third point has reduced coordinates, which are those of the sum. -/
theorem exists_third (curve : Curve) [Fact curve.p.Prime] (m x₁ y₁ x₂ : Int) :
    ∃ x y, curve.third m x₁ y₁ x₂ = .affine x y ∧
    (0 ≤ x ∧ x < curve.p) ∧ (0 ≤ y ∧ y < curve.p) ∧
    (x : ZMod curve.p) = curve.overField.addX (x₁ : ZMod curve.p) x₂ m ∧
    (y : ZMod curve.p) = curve.overField.addY (x₁ : ZMod curve.p) x₂ y₁ m := by
  refine ⟨_, _, rfl, emod_reduced curve _, emod_reduced curve _, ?_, ?_⟩
  · rw [ZMod.intCast_mod, addX_eq]
    push_cast
    ring
  · rw [ZMod.intCast_mod, Int.cast_sub, Int.cast_mul, Int.cast_sub, ZMod.intCast_mod, addY_eq]
    push_cast
    ring

/-- On points that stand for elements addition gives the point of the sum. -/
theorem IsSmooth.exists_add (h : curve.IsSmooth) {point point' : Point}
    {g g' : curve.overField.Point} (hpoint : curve.Denotes point g)
    (hpoint' : curve.Denotes point' g') :
    ∃ sum, curve.add point point' = .ok sum ∧ curve.Denotes sum (g + g') := by
  match point, point', hpoint, hpoint' with
  | .infinity, point', hzero, hpoint' =>
    refine ⟨point', rfl, ?_⟩
    rwa [show g = 0 from hzero, zero_add]
  | .affine x y, .infinity, hpoint, hzero =>
    refine ⟨.affine x y, rfl, ?_⟩
    rwa [show g' = 0 from hzero, add_zero]
  | .affine x₁ y₁, .affine x₂ y₂, ⟨hx₁, hy₁, h₁, hg⟩, ⟨hx₂, hy₂, h₂, hg'⟩ =>
    have hcondition : (x₁ = x₂ ∧ (y₁ + y₂) % curve.p = 0) ↔
        (x₁ : ZMod curve.p) = x₂ ∧ (y₁ : ZMod curve.p) = -y₂ := by
      rw [cast_inj hx₁ hx₂, ← Int.dvd_iff_emod_eq_zero, ← ZMod.intCast_zmod_eq_zero_iff_dvd,
        Int.cast_add, add_eq_zero_iff_eq_neg]
    rw [hg, hg', add]
    simp only [hcondition]
    split_ifs with hopposite
    · refine ⟨.infinity, rfl, ?_⟩
      exact WeierstrassCurve.Affine.Point.add_of_Y_eq hopposite.1
        ((negY_eq (x₂ : ZMod curve.p) y₂).symm ▸ hopposite.2)
    · obtain ⟨m, hm, hcast⟩ := h.exists_slope hx₁ hy₁ hx₂ hy₂ h₁.1 h₂.1 hopposite
      obtain ⟨x, y, hthird, hx, hy, hxcast, hycast⟩ := exists_third curve m x₁ y₁ x₂
      rw [hcast] at hxcast hycast
      have hsum := WeierstrassCurve.Affine.nonsingular_add h₁ h₂ (by rwa [negY_eq])
      rw [← hxcast, ← hycast] at hsum
      rw [WeierstrassCurve.Affine.Point.add_some (by rwa [negY_eq])]
      refine ⟨.affine x y, ?_, hx, hy, hsum, ?_⟩
      · rw [hm, ok_bind, hthird, if_pos (contains_iff.mpr hsum.1)]
      · simp only [hxcast, hycast]

/-- Multiplication adds multiples to the result, and its last doubling does not fail either. -/
theorem IsSmooth.exists_multiplyFrom (h : curve.IsSmooth) (k : Nat) {result addend : Point}
    {g g' : curve.overField.Point} (hresult : curve.Denotes result g)
    (haddend : curve.Denotes addend g') :
    ∃ product, curve.multiplyFrom k result addend = .ok product ∧
      curve.Denotes product (g + k • g') := by
  induction k using Nat.strong_induction_on generalizing result addend g g' with
  | _ k ih =>
    rw [multiplyFrom]
    split_ifs with hzero hodd
    · refine ⟨result, rfl, ?_⟩
      rwa [hzero, zero_nsmul, add_zero]
    all_goals
      obtain ⟨double, hdouble, hdenotes⟩ := h.exists_add haddend haddend
    · obtain ⟨sum, hsum, hsumDenotes⟩ := h.exists_add hresult haddend
      obtain ⟨product, hproduct, hproductDenotes⟩ := ih (k / 2) (by omega) hsumDenotes hdenotes
      refine ⟨product, by simp only [hsum, ok_bind, hdouble, hproduct], ?_⟩
      have hk : k • g' = g' + (k / 2) • (g' + g') := by
        rw [← two_nsmul, ← mul_nsmul, ← succ_nsmul']
        congr 1
        omega
      rwa [hk, ← add_assoc]
    · obtain ⟨product, hproduct, hproductDenotes⟩ := ih (k / 2) (by omega) hresult hdenotes
      refine ⟨product, by simp only [ok_bind, hdouble, hproduct], ?_⟩
      have hk : k • g' = (k / 2) • (g' + g') := by
        rw [← two_nsmul, ← mul_nsmul]
        congr 1
        omega
      rwa [hk]

/-- Multiplication does not fail and takes the multiple by the number modulo the order. -/
theorem IsSmooth.exists_multiply_emod (h : curve.IsSmooth) {point : Point}
    {g : curve.overField.Point} (hpoint : curve.Denotes point g) (k : Int) :
    ∃ product, curve.multiply k point = .ok product ∧
      curve.Denotes product ((k % curve.n).toNat • g) := by
  rw [multiply]
  split_ifs with htrivial
  · refine ⟨.infinity, rfl, ?_⟩
    rcases htrivial with hzero | rfl
    · rw [hzero]
      exact zero_nsmul g
    · rw [show g = 0 from hpoint]
      exact nsmul_zero _
  · obtain ⟨product, hproduct, hdenotes⟩ := h.exists_multiplyFrom (k % curve.n).toNat
      (show curve.Denotes .infinity 0 from rfl) hpoint
    rw [zero_add] at hdenotes
    exact ⟨product, hproduct, hdenotes⟩

end Curve

end ContractKit
