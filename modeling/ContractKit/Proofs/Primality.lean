import ContractKit.Curve.PrivateKey
import ContractKit.Proofs.Numeral

/-!
# Primes with certificates

A number `n` is prime if a large enough part of `n - 1` is known as a product of primes, and a number
has an order modulo `n` that this part divides (`prime_of_pocklington`). A certificate names these primes
and the number, and is checked by taking powers modulo `n` (`PrimeCertificate.holds`). In a list of
certificates each rests on primes that come before it (`PrimeCertificate.prime_of_mem`).
-/

namespace ContractKit

/-! ## Pocklington's criterion -/

/-- If `f * f` exceeds `n`, `f` divides `n - 1`, and `a ^ (n - 1)` is one modulo `n` while for no prime
`q` of `f` the power `a ^ ((n - 1) / q)` is one modulo any prime of `n`, then `n` is prime. -/
theorem prime_of_pocklington {n f : Nat} {a : ZMod n} (hn : 1 < n) (hf : f ∣ n - 1)
    (hlarge : n < f * f) (hpow : a ^ (n - 1) = 1)
    (hunit : ∀ q, q.Prime → q ∣ f → IsUnit (a ^ ((n - 1) / q) - 1)) : n.Prime := by
  by_contra hnot
  -- The least prime of `n` has a square that is at most `n`.
  obtain ⟨p, hp⟩ : ∃ p, p = n.minFac := ⟨_, rfl⟩
  have hprime : p.Prime := hp ▸ Nat.minFac_prime hn.ne'
  have hsmall : p * p ≤ n := by
    rw [hp, ← sq]
    exact Nat.minFac_sq_le_self (by omega) hnot
  have : Fact p.Prime := ⟨hprime⟩
  let reduce : ZMod n →+* ZMod p := ZMod.castHom (hp ▸ n.minFac_dvd) (ZMod p)
  obtain ⟨c, hc⟩ := hf
  have hfpos : 0 < f := Nat.pos_of_ne_zero fun h => by simp [h] at hlarge
  -- Modulo `p` the power by what is left of `n - 1` has the order `f`.
  have horder : orderOf (reduce a ^ c) = f := by
    refine orderOf_eq_of_pow_and_pow_div_prime hfpos ?_ fun q hq hqf hone => ?_
    · rw [← pow_mul, mul_comm, ← hc, ← map_pow, hpow, map_one]
    · have hdiv : (n - 1) / q = c * (f / q) := by
        rw [hc, mul_comm, Nat.mul_div_assoc c hqf]
      have hzero : reduce (a ^ ((n - 1) / q) - 1) = 0 := by
        rw [hdiv, map_sub, map_pow, map_one, pow_mul, hone, sub_self]
      exact ((hunit q hq hqf).map reduce).ne_zero hzero
  have hne : reduce a ^ c ≠ 0 := by
    intro hzero
    rw [hzero, orderOf_zero] at horder
    omega
  have hle : f ≤ p - 1 := by
    rw [← horder]
    exact Nat.le_of_dvd (by have := hprime.two_le; omega) (ZMod.orderOf_dvd_card_sub_one hne)
  have : f * f ≤ p * p := Nat.mul_le_mul (by omega) (by omega)
  omega

/-! ## Powers modulo a number -/

/-- The power `a ^ n` modulo `m`, by the binary digits of `n`. -/
def powMod (m a n : Nat) : Nat :=
  (Numeral.digits 2 n).foldl (fun r d => r * r * a ^ d % m) 1

theorem cast_powMod (m a n : Nat) : (powMod m a n : ZMod m) = (a : ZMod m) ^ n := by
  have hdigits : ∀ ds : List Nat, (ds.foldl (fun r d => r * r * a ^ d % m) 1 : Nat) =
      (a : ZMod m) ^ Numeral.value 2 ds := by
    intro ds
    induction ds using List.reverseRecOn with
    | nil => simp [Numeral.value]
    | append_singleton ds d ih =>
      rw [List.foldl_append, Numeral.value_append]
      simp only [List.foldl_cons, List.foldl_nil, ZMod.natCast_mod, Nat.cast_mul, Nat.cast_pow, ih]
      ring
  rw [powMod, hdigits, Numeral.value_digits le_rfl]

/-! ## Certificates -/

/-- What shows that a number is prime. -/
structure PrimeCertificate where
  /-- The number. -/
  n : Nat
  /-- A number of large order modulo `n`. -/
  base : Nat
  /-- Primes of `n - 1` with the exponents with which they are taken. -/
  factors : List (Nat × Nat)

namespace PrimeCertificate

/-- The part of `n - 1` that the primes make up. -/
def part (certificate : PrimeCertificate) : Nat :=
  (certificate.factors.map fun factor => factor.1 ^ factor.2).prod

/-- Whether a certificate holds, when the numbers in `known` are prime. -/
def holds (known : List Nat) (certificate : PrimeCertificate) : Bool :=
  let ⟨n, base, factors⟩ := certificate
  1 < n && (n - 1) % certificate.part = 0 && n < certificate.part * certificate.part &&
    powMod n base (n - 1) % n = 1 &&
    factors.all fun factor => known.contains factor.1 &&
      (powMod n base ((n - 1) / factor.1) + (n - 1)).gcd n = 1

/-- Whether all certificates of a list hold, each with the help of those before it. -/
def allHold (known : List Nat) : List PrimeCertificate → Bool
  | [] => true
  | certificate :: rest => certificate.holds known && allHold (certificate.n :: known) rest

theorem prime_of_holds {known : List Nat} {certificate : PrimeCertificate}
    (hknown : ∀ q ∈ known, q.Prime) (h : certificate.holds known = true) :
    certificate.n.Prime := by
  obtain ⟨n, base, factors⟩ := certificate
  simp only [holds, Bool.and_eq_true, decide_eq_true_eq, List.all_eq_true,
    List.contains_iff_mem] at h
  obtain ⟨⟨⟨⟨hn, hpart⟩, hlarge⟩, hpow⟩, hfactors⟩ := h
  refine prime_of_pocklington (a := (base : ZMod n)) hn (Nat.dvd_of_mod_eq_zero hpart) hlarge ?_
    fun q hq hdvd => ?_
  · rw [← cast_powMod, ← ZMod.natCast_mod, hpow, Nat.cast_one]
  · obtain ⟨power, hpower, hdvd⟩ := hq.prime.dvd_prod_iff.mp hdvd
    obtain ⟨factor, hfactor, rfl⟩ := List.mem_map.mp hpower
    obtain ⟨hmem, hgcd⟩ := hfactors factor hfactor
    obtain rfl : q = factor.1 :=
      (Nat.prime_dvd_prime_iff_eq hq (hknown _ hmem)).mp (hq.dvd_of_dvd_pow hdvd)
    have hcast : (base : ZMod n) ^ ((n - 1) / factor.1) - 1 =
        (powMod n base ((n - 1) / factor.1) + (n - 1) : Nat) := by
      rw [Nat.cast_add, cast_powMod, Nat.cast_sub hn.le, ZMod.natCast_self]
      ring
    rw [hcast]
    exact (ZMod.isUnit_iff_coprime _ _).mpr hgcd

/-- A certified number is prime. -/
theorem prime_of_mem : ∀ {known : List Nat} {certificates : List PrimeCertificate},
    (∀ q ∈ known, q.Prime) → allHold known certificates = true →
      ∀ certificate ∈ certificates, certificate.n.Prime
  | _, [], _, _ => by simp
  | known, first :: rest, hknown, h => by
    obtain ⟨hfirst, hrest⟩ := Bool.and_eq_true_iff.mp h
    have hprime := prime_of_holds hknown hfirst
    exact List.forall_mem_cons.mpr
      ⟨hprime, prime_of_mem (List.forall_mem_cons.mpr ⟨hprime, hknown⟩) hrest⟩

/-- Small primes, of which the certificates of the large ones make use. -/
def smallPrimes : List Nat :=
  [2, 3, 5, 11, 29, 59, 3769, 4051, 16699, 18169, 41201, 78283, 85831, 120233, 155317, 3969899,
    7240687]

theorem prime_of_mem_smallPrimes : ∀ q ∈ smallPrimes, q.Prime := by
  simp only [smallPrimes, List.forall_mem_cons, List.not_mem_nil, false_imp_iff, implies_true,
    and_true]
  norm_num

/-- Certificates of the orders of the fields and of the generators of the two curves. -/
def ofCurves : List PrimeCertificate :=
  [⟨107590001, 2, [(5, 4), (29, 1)]⟩,
    ⟨191039911, 2, [(155317, 1)]⟩,
    ⟨204061199, 3, [(11, 1), (3769, 1)]⟩,
    ⟨34282281433, 2, [(204061199, 1)]⟩,
    ⟨1002328039319, 2, [(3969899, 1)]⟩,
    ⟨46076956964474543, 2, [(18169, 1), (78283, 1)]⟩,
    ⟨107361793816595537, 2, [(16699, 1), (85831, 1)]⟩,
    ⟨208150935158385979, 2, [(3, 1), (191039911, 1)]⟩,
    ⟨174723607534414371449, 2, [(59, 1), (4051, 1), (120233, 1)]⟩,
    ⟨2624747550333869278416773953, 2, [(208150935158385979, 1)]⟩,
    ⟨255515944373312847190720520512484175977, 2,
      [(41201, 1), (7240687, 1), (107590001, 1)]⟩,
    ⟨774023187263532362759620327192479577272145303, 2,
      [(34282281433, 1), (46076956964474543, 1)]⟩,
    ⟨835945042244614951780389953367877943453916927241, 2,
      [(774023187263532362759620327192479577272145303, 1)]⟩,
    ⟨205115282021455665897114700593932402728804164701536103180137503955397371, 2,
      [(255515944373312847190720520512484175977, 1)]⟩,
    ⟨Curve.p256.p, 2, [(835945042244614951780389953367877943453916927241, 1)]⟩,
    ⟨Curve.p256.n, 2, [(1002328039319, 1), (2624747550333869278416773953, 1)]⟩,
    ⟨Curve.secp256k1.p, 2,
      [(205115282021455665897114700593932402728804164701536103180137503955397371, 1)]⟩,
    ⟨Curve.secp256k1.n, 5,
      [(2, 6), (107361793816595537, 1), (174723607534414371449, 1)]⟩]

theorem allHold_ofCurves : allHold smallPrimes ofCurves = true := by
  decide +kernel

end PrimeCertificate

/-! ## The orders of the curves -/

/-- The fields of the two curves and their generators have prime orders. -/
theorem Curve.prime_of_ofAlgorithm? {algorithm : Text} {curve : Curve}
    (h : ofAlgorithm? algorithm = some curve) : curve.p.Prime ∧ curve.n.Prime := by
  have hprime := PrimeCertificate.prime_of_mem PrimeCertificate.prime_of_mem_smallPrimes
    PrimeCertificate.allHold_ofCurves
  have hmem : ∀ {n base factors}, ⟨n, base, factors⟩ ∈ PrimeCertificate.ofCurves.drop 14 → n.Prime :=
    fun hmem => hprime _ (List.mem_of_mem_drop hmem)
  unfold ofAlgorithm? at h
  split_ifs at h
  · obtain rfl := Option.some.inj h
    exact ⟨hmem (.head _), hmem (.tail _ (.head _))⟩
  · obtain rfl := Option.some.inj h
    exact ⟨hmem (.tail _ (.tail _ (.head _))), hmem (.tail _ (.tail _ (.tail _ (.head _))))⟩

end ContractKit
