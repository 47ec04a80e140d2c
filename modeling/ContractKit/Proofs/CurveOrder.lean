import ContractKit.Proofs.CurveGroup
import ContractKit.Proofs.Primality

/-!
# The order of the generator

Multiples of the generator are computed here without division: a point `(x / z², y / z³)` is kept as `x`,
`y` and `z`. If `z` is not zero in the end, it was not zero on the way, and the multiple is that of the
group (`Curve.IsSmooth.represents_multiple`). Computing one multiple thus shows how many there are
(`Curve.exists_generator`).
-/

namespace ContractKit

/-- The coordinates of the point `(x / z², y / z³)`. -/
structure Scaled where
  /-- The first coordinate, scaled. -/
  x : Int
  /-- The second coordinate, scaled. -/
  y : Int
  /-- The scale. -/
  z : Int

namespace Curve

/-- Twice a point. -/
def twice (curve : Curve) (point : Scaled) : Scaled :=
  let ⟨x, y, z⟩ := point
  let m := 3 * x * x + curve.a * z ^ 4
  let s := 4 * x * y * y
  let x' := (m * m - 2 * s) % curve.p
  ⟨x', (m * (s - x') - 8 * y ^ 4) % curve.p, 2 * y * z % curve.p⟩

/-- The sum of a point and the generator. -/
def plusGenerator (curve : Curve) (point : Scaled) : Scaled :=
  let ⟨x, y, z⟩ := point
  let h := curve.gx * z ^ 2 - x
  let r := curve.gy * z ^ 3 - y
  let x' := (r * r - h ^ 3 - 2 * x * h ^ 2) % curve.p
  ⟨x', (r * (x * h ^ 2 - x') - y * h ^ 3) % curve.p, z * h % curve.p⟩

/-- Twice a multiple of the generator, and the generator added for the digit one. Nothing stands for
the point at infinity. -/
def nextMultiple (curve : Curve) (point : Option Scaled) (digit : Nat) : Option Scaled :=
  if digit = 0 then point.map curve.twice
  else
    match point with
    | none => some ⟨curve.gx, curve.gy, 1⟩
    | some point => some (curve.plusGenerator (curve.twice point))

/-- The multiple `n * generator`, by the binary digits of `n` from the highest. -/
def multiple (curve : Curve) (n : Nat) : Option Scaled :=
  (Numeral.digits 2 n).foldl curve.nextMultiple none

variable {curve : Curve} [Fact curve.p.Prime]

/-- The element that scaled coordinates stand for, if the scale is not zero. -/
def Represents : Option Scaled → curve.overField.Point → Prop
  | none, g => g = 0
  | some ⟨x, y, z⟩, g => (z : ZMod curve.p) ≠ 0 →
    ∃ h, g = .some ((x : ZMod curve.p) / z ^ 2) ((y : ZMod curve.p) / z ^ 3) h

theorem exists_eq_some {g : curve.overField.Point} {x y x' y' : ZMod curve.p}
    {h : curve.overField.Nonsingular x y} (hg : g = .some x y h) (hx : x = x') (hy : y = y') :
    ∃ h', g = .some x' y' h' := by
  subst hx hy
  exact ⟨h, hg⟩

/-- A sum has the coordinates that the slope gives. -/
theorem exists_sum {x₁ y₁ x₂ y₂ m : ZMod curve.p} (h₁ : curve.overField.Nonsingular x₁ y₁)
    (h₂ : curve.overField.Nonsingular x₂ y₂) (hopposite : ¬ (x₁ = x₂ ∧ y₁ = -y₂))
    (hm : curve.overField.slope x₁ x₂ y₁ y₂ = m) :
    ∃ h, (.some x₁ y₁ h₁ + .some x₂ y₂ h₂ : curve.overField.Point) =
      .some (m ^ 2 - x₁ - x₂) (m * (x₁ - (m ^ 2 - x₁ - x₂)) - y₁) h := by
  refine exists_eq_some (WeierstrassCurve.Affine.Point.add_some (by rwa [negY_eq])) ?_ ?_
  · rw [addX_eq, hm]
  · rw [addY_eq, hm]

theorem IsSmooth.represents_twice (h : curve.IsSmooth) {point : Scaled}
    {g : curve.overField.Point} (hpoint : Represents (some point) g) :
    Represents (some (curve.twice point)) (g + g) := by
  obtain ⟨x, y, z⟩ := point
  obtain ⟨x', y', z', htwice, hx', hy', hz'⟩ : ∃ x' y' z', curve.twice ⟨x, y, z⟩ = ⟨x', y', z'⟩ ∧
      (x' : ZMod curve.p) = (3 * x * x + curve.a * z ^ 4) ^ 2 - 8 * x * y ^ 2 ∧
      (y' : ZMod curve.p) = (3 * x * x + curve.a * z ^ 4) * (4 * x * y ^ 2 - x') - 8 * y ^ 4 ∧
      (z' : ZMod curve.p) = 2 * y * z := by
    refine ⟨_, _, _, rfl, ?_, ?_, ?_⟩
    all_goals
      rw [ZMod.intCast_mod]
      push_cast
      ring
  rw [htwice]
  intro hne
  rw [hz'] at hne
  have htwo := h.two_ne_zero
  have hz : (z : ZMod curve.p) ≠ 0 := right_ne_zero_of_mul hne
  have hy : (y : ZMod curve.p) ≠ 0 := right_ne_zero_of_mul (left_ne_zero_of_mul hne)
  obtain ⟨hnonsingular, rfl⟩ := hpoint hz
  have hopposite : (y / z ^ 3 : ZMod curve.p) ≠ -(y / z ^ 3) := by
    rw [← sub_ne_zero, sub_neg_eq_add, ← two_mul]
    exact mul_ne_zero htwo (div_ne_zero hy (pow_ne_zero 3 hz))
  obtain ⟨hsum, heq⟩ := exists_sum hnonsingular hnonsingular
    (fun hboth => hopposite hboth.2) (slope_self hopposite)
  refine exists_eq_some heq ?_ ?_
  · rw [hx', hz']
    field_simp
    ring
  · rw [hy', hx', hz']
    field_simp
    ring

theorem represents_plusGenerator {point : Scaled} {g generator : curve.overField.Point}
    (hpoint : Represents (some point) g) (hgenerator : curve.Denotes curve.generator generator) :
    Represents (some (curve.plusGenerator point)) (g + generator) := by
  obtain ⟨x, y, z⟩ := point
  obtain ⟨x', y', z', hplus, hx', hy', hz'⟩ : ∃ x' y' z',
      curve.plusGenerator ⟨x, y, z⟩ = ⟨x', y', z'⟩ ∧
      (x' : ZMod curve.p) = (curve.gy * z ^ 3 - y) ^ 2 - (curve.gx * z ^ 2 - x) ^ 3 -
        2 * x * (curve.gx * z ^ 2 - x) ^ 2 ∧
      (y' : ZMod curve.p) = (curve.gy * z ^ 3 - y) * (x * (curve.gx * z ^ 2 - x) ^ 2 - x') -
        y * (curve.gx * z ^ 2 - x) ^ 3 ∧
      (z' : ZMod curve.p) = z * (curve.gx * z ^ 2 - x) := by
    refine ⟨_, _, _, rfl, ?_, ?_, ?_⟩
    all_goals
      rw [ZMod.intCast_mod]
      push_cast
      ring
  -- `d` tells the first coordinates apart.
  obtain ⟨d, hd⟩ : ∃ d : ZMod curve.p, curve.gx * z ^ 2 - x = d := ⟨_, rfl⟩
  rw [hd] at hx' hy' hz'
  rw [hplus]
  intro hne
  rw [hz'] at hne
  have hz : (z : ZMod curve.p) ≠ 0 := left_ne_zero_of_mul hne
  have hdifference : d ≠ 0 := right_ne_zero_of_mul hne
  have hgx : (curve.gx : ZMod curve.p) = (x + d) / z ^ 2 := by
    rw [← hd]
    field_simp
    ring
  obtain ⟨hnonsingular, rfl⟩ := hpoint hz
  obtain ⟨-, -, hgeneratorPoint, rfl⟩ := hgenerator
  have hne : (x / z ^ 2 : ZMod curve.p) ≠ curve.gx := by
    rw [hgx, ← sub_ne_zero, ← sub_div]
    simpa using ⟨hdifference, hz⟩
  have hslope : curve.overField.slope (x / z ^ 2 : ZMod curve.p) curve.gx (y / z ^ 3) curve.gy =
      (curve.gy * z ^ 3 - y) / (z * d) := by
    have hminus : (x / z ^ 2 - (x + d) / z ^ 2 : ZMod curve.p) = -(d / z ^ 2) := by ring
    rw [WeierstrassCurve.Affine.slope_of_X_ne hne, hgx, hminus]
    field_simp
    ring
  obtain ⟨hsum, heq⟩ := exists_sum hnonsingular hgeneratorPoint (fun hboth => hne hboth.1) hslope
  refine exists_eq_some heq ?_ ?_
  · rw [hx', hz', hgx]
    field_simp
    ring
  · rw [hy', hx', hz', hgx]
    field_simp
    ring

theorem IsSmooth.represents_nextMultiple (h : curve.IsSmooth) {point : Option Scaled}
    {g generator : curve.overField.Point} (hgenerator : curve.Denotes curve.generator generator)
    (hpoint : Represents point g) {digit : Nat} (hdigit : digit < 2) :
    Represents (curve.nextMultiple point digit) (g + g + digit • generator) := by
  rcases (by omega : digit = 0 ∨ digit = 1) with rfl | rfl
  · rw [zero_nsmul, add_zero]
    cases point with
    | none =>
      rw [show g = 0 from hpoint, add_zero]
      rfl
    | some point => exact h.represents_twice hpoint
  · rw [one_nsmul]
    cases point with
    | none =>
      rw [show g = 0 from hpoint, add_zero, zero_add]
      intro _
      obtain ⟨-, -, hnonsingular, heq⟩ := hgenerator
      exact exists_eq_some heq (by simp) (by simp)
    | some point => exact represents_plusGenerator (h.represents_twice hpoint) hgenerator

/-- Multiples of the generator are computed as they are in the group. -/
theorem IsSmooth.represents_multiple (h : curve.IsSmooth) {generator : curve.overField.Point}
    (hgenerator : curve.Denotes curve.generator generator) (n : Nat) :
    Represents (curve.multiple n) (n • generator) := by
  have hdigits : ∀ ds : List Nat, (∀ d ∈ ds, d < 2) →
      Represents (ds.foldl curve.nextMultiple none) (Numeral.value 2 ds • generator) := by
    intro ds
    induction ds using List.reverseRecOn with
    | nil => exact fun _ => zero_nsmul generator
    | append_singleton ds d ih =>
      intro hds
      have hlast := h.represents_nextMultiple hgenerator
        (ih fun d hd => hds d (List.mem_append_left _ hd)) (hds d (by simp))
      rw [List.foldl_append, Numeral.value_append, add_nsmul, mul_nsmul, two_nsmul]
      exact hlast
  have hn := hdigits _ (Numeral.lt_of_mem_digits le_rfl n)
  rwa [Numeral.value_digits le_rfl] at hn

/-! ## The order -/

/-- Whether scaled coordinates are those of the point opposite to the generator. -/
def isOpposite (curve : Curve) : Option Scaled → Bool
  | none => false
  | some ⟨x, y, z⟩ => z % curve.p ≠ 0 && (x - curve.gx * z ^ 2) % curve.p = 0 &&
    (y + curve.gy * z ^ 3) % curve.p = 0

theorem cast_eq_zero_iff {x : Int} : (x : ZMod curve.p) = 0 ↔ x % curve.p = 0 := by
  rw [ZMod.intCast_zmod_eq_zero_iff_dvd, Int.dvd_iff_emod_eq_zero]

theorem eq_neg_of_isOpposite {point : Option Scaled} {g generator : curve.overField.Point}
    (hgenerator : curve.Denotes curve.generator generator) (hpoint : Represents point g)
    (h : curve.isOpposite point = true) : g = -generator := by
  match point, hpoint, h with
  | some ⟨x, y, z⟩, hpoint, h =>
    simp only [isOpposite, Bool.and_eq_true, decide_eq_true_eq, ← cast_eq_zero_iff, Int.cast_sub,
      Int.cast_add, Int.cast_mul, Int.cast_pow] at h
    obtain ⟨⟨hnonzero, hx⟩, hy⟩ := h
    have hz : (z : ZMod curve.p) ≠ 0 := fun hzero => hnonzero (cast_eq_zero_iff.mp hzero)
    obtain ⟨hnonsingular, rfl⟩ := hpoint hz
    obtain ⟨-, -, hgeneratorPoint, rfl⟩ := hgenerator
    have hfirst : (x / z ^ 2 : ZMod curve.p) = curve.gx :=
      (div_eq_iff (pow_ne_zero 2 hz)).mpr (sub_eq_zero.mp hx)
    have hsecond : (y / z ^ 3 : ZMod curve.p) = curve.overField.negY (curve.gx : ZMod curve.p)
        curve.gy := by
      rw [negY_eq, div_eq_iff (pow_ne_zero 3 hz), neg_mul]
      exact eq_neg_of_add_eq_zero_left hy
    exact (exists_eq_some rfl hfirst hsecond).choose_spec

/-- What is computed about a curve: it is smooth, and its generator lies on it and has the order `n`, as
far as this is known from the multiple before the last. -/
def hasGenerator (curve : Curve) : Bool :=
  curve.p ≠ 2 && (4 * curve.a ^ 3 + 27 * curve.b ^ 2) % curve.p ≠ 0 &&
    (0 ≤ curve.gx && curve.gx < curve.p) && (0 ≤ curve.gy && curve.gy < curve.p) &&
    curve.contains curve.generator && curve.isOpposite (curve.multiple (curve.n - 1))

theorem hasGenerator_of_ofAlgorithm? {algorithm : Text} {curve : Curve}
    (h : ofAlgorithm? algorithm = some curve) : curve.hasGenerator = true := by
  unfold ofAlgorithm? at h
  split_ifs at h
  all_goals
    obtain rfl := Option.some.inj h
    decide +kernel

/-- A curve whose generator is computed to have the order `n` is smooth, and if `n` is prime the
generator has as many multiples. -/
theorem exists_generator (h : curve.hasGenerator = true) (hn : curve.n.Prime) :
    curve.IsSmooth ∧ ∃ generator, curve.Denotes curve.generator generator ∧
      addOrderOf generator = curve.n := by
  simp only [hasGenerator, Bool.and_eq_true, decide_eq_true_eq] at h
  obtain ⟨⟨⟨⟨⟨hodd, hdiscriminant⟩, hx⟩, hy⟩, hcontains⟩, hopposite⟩ := h
  have hsmooth : curve.IsSmooth := ⟨hodd, hdiscriminant⟩
  obtain ⟨generator, hgenerator⟩ := hsmooth.exists_denotes hx hy hcontains
  refine ⟨hsmooth, generator, hgenerator, ?_⟩
  have : Fact curve.n.Prime := ⟨hn⟩
  refine addOrderOf_eq_prime ?_ ?_
  · have hlast := eq_neg_of_isOpposite hgenerator
      (hsmooth.represents_multiple hgenerator (curve.n - 1)) hopposite
    rw [← Nat.sub_add_cancel hn.one_le, succ_nsmul, hlast, neg_add_cancel]
  · rintro rfl
    exact absurd (hgenerator.unique (show curve.Denotes .infinity 0 from rfl)) nofun

end Curve

end ContractKit
