import ContractKit.Proofs.CurveOrder
import ContractKit.Proofs.PrivateKey

/-!
# Public keys

A key that is validated has a public key, which is a point of the curve, and keys with different numbers
have different public keys (`PrivateKey.exists_publicKey_and_ne`). The number of a key is below the order
of the generator, so its multiple is a point with coordinates (`Curve.IsSmooth.exists_multiply`), and
both coordinates can be read from the bytes (`PrivateKey.bigEndian_bytes`).
-/

namespace ContractKit

/-! ## Multiples -/

/-- Below the order of the generator its multiples are points with coordinates. -/
theorem Curve.IsSmooth.exists_multiply {curve : Curve} [Fact curve.p.Prime] (h : curve.IsSmooth)
    {generator : curve.overField.Point} (hgenerator : curve.Denotes curve.generator generator)
    (horder : addOrderOf generator = curve.n) {k : Nat} (hk : 1 ≤ k ∧ k < curve.n) :
    ∃ x y, curve.multiply k curve.generator = .ok (.affine x y) ∧
      curve.Denotes (.affine x y) (k • generator) := by
  have hmod : ((k : Int) % curve.n).toNat = k := by
    rw [Int.emod_eq_of_lt (by omega) (by omega), Int.toNat_natCast]
  obtain ⟨product, hproduct, hdenotes⟩ := h.exists_multiply_emod hgenerator k
  rw [hmod] at hdenotes
  cases product with
  | infinity =>
    have hdvd : curve.n ∣ k := horder ▸ addOrderOf_dvd_of_nsmul_eq_zero hdenotes
    exact absurd (Nat.le_of_dvd hk.1 hdvd) (Nat.not_le.mpr hk.2)
  | affine x y => exact ⟨x, y, hproduct, hdenotes⟩

/-- A coordinate has room in 32 bytes. -/
theorem Curve.lt_of_ofAlgorithm? {algorithm : Text} {curve : Curve}
    (h : ofAlgorithm? algorithm = some curve) : curve.p < 256 ^ 32 := by
  unfold ofAlgorithm? at h
  split_ifs at h
  all_goals
    obtain rfl := Option.some.inj h
    decide

namespace PrivateKey

/-! ## Bytes -/

/-- The number that bytes stand for, the most significant first. -/
def bigEndian (data : List UInt8) : Nat :=
  Numeral.value 256 (data.map UInt8.toNat)

theorem length_bytes : ∀ count n : Nat, (bytes count n).length = count
  | 0, _ => rfl
  | count + 1, n => by rw [bytes, List.length_append, length_bytes count, List.length_singleton]

theorem bigEndian_bytes : ∀ {count n : Nat}, n < 256 ^ count → bigEndian (bytes count n) = n
  | 0, n, h => by
    obtain rfl : n = 0 := by simpa using h
    rfl
  | count + 1, n, h => by
    have hrest : n / 256 < 256 ^ count := by
      rw [Nat.div_lt_iff_lt_mul (by omega)]
      rwa [Nat.pow_succ] at h
    have hlast : (UInt8.ofNat n).toNat = n % 256 := UInt8.toNat_ofNat'
    have ih : Numeral.value 256 ((bytes count (n / 256)).map UInt8.toNat) = n / 256 :=
      bigEndian_bytes hrest
    rw [bigEndian, bytes, List.map_append, List.map_singleton, Numeral.value_append, ih, hlast]
    omega

/-- The coordinates of a field of at most 256 bits are read from their bytes. -/
theorem bigEndian_append {x y : Nat} (hx : x < 256 ^ 32) (hy : y < 256 ^ 32) :
    bigEndian ((bytes 32 x ++ bytes 32 y).take 32) = x ∧
      bigEndian ((bytes 32 x ++ bytes 32 y).drop 32) = y := by
  rw [List.take_left' (length_bytes 32 x), List.drop_left' (length_bytes 32 x)]
  exact ⟨bigEndian_bytes hx, bigEndian_bytes hy⟩

/-! ## The public key -/

/-- The number of a validated key is below the order of the generator. -/
theorem number_lt_of_validate {text algorithm key : Text} {curve : Curve} {k : Nat}
    (hcurve : Curve.ofAlgorithm? algorithm = some curve) (hkey : validate text algorithm = .ok key)
    (hk : number key = .ok k) : 1 ≤ k ∧ k < curve.n := by
  obtain ⟨curve', k', hcurve', -, hk', hrange⟩ := validate_eq_ok_iff.mp hkey
  obtain rfl := Option.some.inj (hcurve.symm.trans hcurve')
  obtain rfl := Except.ok.inj (hk.symm.trans hk')
  exact hrange

/-- The public key of a validated key consists of the coordinates of the multiple by its number. -/
theorem exists_publicKey {text algorithm key : Text} {curve : Curve} {k : Nat}
    [Fact curve.p.Prime] {generator : curve.overField.Point}
    (hcurve : Curve.ofAlgorithm? algorithm = some curve) (hsmooth : curve.IsSmooth)
    (hgenerator : curve.Denotes curve.generator generator) (horder : addOrderOf generator = curve.n)
    (hkey : validate text algorithm = .ok key) (hk : number key = .ok k) :
    ∃ x y : Nat, publicKey text algorithm = .ok (bytes 32 x ++ bytes 32 y) ∧ x < curve.p ∧
      y < curve.p ∧ curve.Denotes (.affine x y) (k • generator) := by
  obtain ⟨x, y, hmultiple, hdenotes⟩ :=
    hsmooth.exists_multiply hgenerator horder (number_lt_of_validate hcurve hkey hk)
  have hx : (x.toNat : Int) = x := Int.toNat_of_nonneg hdenotes.1.1
  have hy : (y.toNat : Int) = y := Int.toNat_of_nonneg hdenotes.2.1.1
  refine ⟨x.toNat, y.toNat, ?_, ?_, ?_, ?_⟩
  · simp only [publicKey, curveFor_eq_ok_iff.mpr hcurve, hkey, hk, ok_bind, hmultiple]
  · exact Int.ofNat_lt.mp (hx ▸ hdenotes.1.2)
  · exact Int.ofNat_lt.mp (hy ▸ hdenotes.2.1.2)
  · rwa [hx, hy]

/-- Each validated key has a public key of 64 bytes, two coordinates in the field of a point on the
curve, and keys with different numbers have different public keys. -/
theorem exists_publicKey_and_ne {algorithm : Text} {curve : Curve}
    (hcurve : Curve.ofAlgorithm? algorithm = some curve) :
    (∀ text key, validate text algorithm = .ok key → ∃ data,
      publicKey text algorithm = .ok data ∧ data.length = 64 ∧
      bigEndian (data.take 32) < curve.p ∧ bigEndian (data.drop 32) < curve.p ∧
      curve.contains (.affine (bigEndian (data.take 32)) (bigEndian (data.drop 32))) = true) ∧
    ∀ text text' key key' k k', validate text algorithm = .ok key →
      validate text' algorithm = .ok key' → number key = .ok k → number key' = .ok k' → k ≠ k' →
        publicKey text algorithm ≠ publicKey text' algorithm := by
  obtain ⟨hp, hn⟩ := Curve.prime_of_ofAlgorithm? hcurve
  have : Fact curve.p.Prime := ⟨hp⟩
  obtain ⟨hsmooth, generator, hgenerator, horder⟩ :=
    Curve.exists_generator (Curve.hasGenerator_of_ofAlgorithm? hcurve) hn
  have hsize : curve.p < 256 ^ 32 := Curve.lt_of_ofAlgorithm? hcurve
  constructor
  · intro text key hkey
    obtain ⟨-, k, -, -, hk, -⟩ := validate_eq_ok_iff.mp hkey
    obtain ⟨x, y, hpublic, hx, hy, -, -, hnonsingular, -⟩ :=
      exists_publicKey hcurve hsmooth hgenerator horder hkey hk
    obtain ⟨hfirst, hsecond⟩ := bigEndian_append (hx.trans hsize) (hy.trans hsize)
    refine ⟨_, hpublic, by simp [length_bytes], ?_⟩
    rw [hfirst, hsecond]
    exact ⟨hx, hy, Curve.contains_iff.mpr hnonsingular.1⟩
  · intro text text' key key' k k' hkey hkey' hk hk' hne heq
    obtain ⟨x, y, hpublic, hx, hy, hdenotes⟩ :=
      exists_publicKey hcurve hsmooth hgenerator horder hkey hk
    obtain ⟨x', y', hpublic', hx', hy', hdenotes'⟩ :=
      exists_publicKey hcurve hsmooth hgenerator horder hkey' hk'
    have hdata := Except.ok.inj ((hpublic.symm.trans heq).trans hpublic')
    obtain ⟨hfirst, hsecond⟩ := bigEndian_append (hx.trans hsize) (hy.trans hsize)
    obtain ⟨hfirst', hsecond'⟩ := bigEndian_append (hx'.trans hsize) (hy'.trans hsize)
    rw [hdata, hfirst'] at hfirst
    rw [hdata, hsecond'] at hsecond
    rw [hfirst, hsecond] at hdenotes'
    -- Equal multiples below the order of the generator are multiples by one number.
    refine hne (nsmul_injOn_Iio_addOrderOf ?_ ?_ (hdenotes.element_unique hdenotes'))
    · exact horder ▸ (number_lt_of_validate hcurve hkey hk).2
    · exact horder ▸ (number_lt_of_validate hcurve hkey' hk').2

/-- The keys one and two have public keys that differ. -/
theorem publicKey_one_ne_publicKey_two : ∃ one two : Text,
    Curve.ofAlgorithm? "ECDSA_secp256k1" = some Curve.secp256k1 ∧
      number one = .ok 1 ∧ number two = .ok 2 ∧
      publicKey one "ECDSA_secp256k1" ≠ publicKey two "ECDSA_secp256k1" := by
  obtain ⟨one, hone⟩ : ∃ one : Text,
    one = "0000000000000000000000000000000000000000000000000000000000000001" := ⟨_, rfl⟩
  obtain ⟨two, htwo⟩ : ∃ two : Text,
    two = "0000000000000000000000000000000000000000000000000000000000000002" := ⟨_, rfl⟩
  have hcurve : Curve.ofAlgorithm? "ECDSA_secp256k1" = some Curve.secp256k1 := rfl
  have hvalidOne : validate one "ECDSA_secp256k1" = .ok one := by
    rw [hone]
    decide +kernel
  have hvalidTwo : validate two "ECDSA_secp256k1" = .ok two := by
    rw [htwo]
    decide +kernel
  have hnumberOne : number one = .ok 1 := by
    rw [hone]
    decide +kernel
  have hnumberTwo : number two = .ok 2 := by
    rw [htwo]
    decide +kernel
  exact ⟨one, two, hcurve, hnumberOne, hnumberTwo, (exists_publicKey_and_ne hcurve).2 one two one two
    1 2 hvalidOne hvalidTwo hnumberOne hnumberTwo (by decide)⟩

end PrivateKey

end ContractKit
