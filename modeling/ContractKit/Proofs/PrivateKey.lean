import ContractKit.Curve.PrivateKey
import ContractKit.Proofs.Result
import ContractKit.Proofs.Scalar

/-!
# Validated keys

A validated key that consists of hexadecimal digits is validated again as it is
(`PrivateKey.validate_of_isCanonical`). A blank that stands in front of its digits is kept, though, and
then it is no key any more (`PrivateKey.exists_error_of_not_isCanonical`).
-/

namespace ContractKit.PrivateKey

/-- The key is what validation of some text for the algorithm returns. -/
def IsValidated (key algorithm : Text) : Prop :=
  ∃ text, validate text algorithm = .ok key

/-- The key consists of 64 hexadecimal digits. -/
def IsCanonical (key : Text) : Prop :=
  key.length = width ∧ ∀ c ∈ key, Numeral.isHexDigit c = true

instance (key : Text) : Decidable (IsCanonical key) := by
  unfold IsCanonical
  infer_instance

/-! ## What validation accepts -/

theorem normalize_eq_ok_iff {text key : Text} :
    normalize text = .ok key ↔ bare text = key ∧ key.length = width ∧ isHexPairs key = true := by
  unfold normalize
  simp only
  split_ifs with hlength hpairs
  · simp only [false_iff, not_and]
    rintro rfl h
    exact absurd h hlength
  · rw [Except.ok.injEq]
    refine ⟨fun h => ⟨h, h ▸ not_not.mp hlength, h ▸ hpairs⟩, fun h => h.1⟩
  · simp only [false_iff, not_and]
    rintro rfl _ h
    exact hpairs h

theorem curveFor_eq_ok_iff {algorithm : Text} {curve : Curve} :
    curveFor algorithm = .ok curve ↔ Curve.ofAlgorithm? algorithm = some curve := by
  unfold curveFor
  split
  · next found hfound => rw [hfound, Except.ok.injEq, Option.some.injEq]
  · next hnone => simp [hnone]

theorem validate_eq_ok_iff {text algorithm key : Text} :
    validate text algorithm = .ok key ↔ ∃ curve k, Curve.ofAlgorithm? algorithm = some curve ∧
      normalize text = .ok key ∧ number key = .ok k ∧ 1 ≤ k ∧ k < curve.n := by
  unfold validate
  simp only [bind_eq_ok_iff, curveFor_eq_ok_iff]
  constructor
  · rintro ⟨curve, hcurve, found, hfound, k, hk, h⟩
    split_ifs at h with hrange
    obtain rfl := Except.ok.inj h
    exact ⟨curve, k, hcurve, hfound, hk, hrange⟩
  · rintro ⟨curve, k, hcurve, hkey, hk, hrange⟩
    exact ⟨curve, hcurve, key, hkey, k, hk, if_pos hrange⟩

theorem val_lt_of_isHexDigit {c : CodePoint} (h : Numeral.isHexDigit c = true) : c.val < 0x80 := by
  rcases CodePoint.isHexDigit_iff.mp h with h | h
  · rcases CodePoint.isAddressDigit_iff.mp h with h | h <;> omega
  · omega

theorem mem_lower_of_mem_bare {text : Text} {c : CodePoint} (h : c ∈ bare text) :
    c ∈ text.trim.lower := by
  unfold bare at h
  simp only at h
  cases hdrop : Text.dropStart? "0x" text.trim.lower with
  | none => simpa [hdrop] using h
  | some rest =>
    rw [hdrop] at h
    rw [Text.dropStart?_eq_some_iff.mp hdrop]
    exact List.mem_append_right _ h

/-- The hexadecimal digits of a bare key are in lower case. -/
theorem isAddressDigit_of_mem_bare (text : Text) {c : CodePoint} (h : c ∈ bare text)
    (hhex : Numeral.isHexDigit c = true) : Address.isDigit c = true := by
  obtain ⟨b, -, hc⟩ :=
    Text.exists_of_mem_lowerAfter (val_lt_of_isHexDigit hhex) (mem_lower_of_mem_bare h)
  exact CodePoint.isAddressDigit_of_mem_lower hc hhex

/-- What stands between the blanks around a validated key is hexadecimal. -/
theorem isHexDigit_of_mem_trim {key : Text} {k : Nat} (h : number key = .ok k) :
    ∀ c ∈ key.trim, Numeral.isHexDigit c = true := by
  unfold number at h
  split at h
  · next d ds hmap =>
    intro c hc
    obtain ⟨d', -, hd'⟩ := exists_left_of_forall₂ (forall₂_of_mapM_eq_some hmap) c hc
    rw [Numeral.isHexDigit, hd']
    rfl
  · cases h

theorem val_lt_of_isAsciiBlank {c : CodePoint} (h : c.isAsciiBlank = true) : c.val < 0x80 := by
  simp only [CodePoint.isAsciiBlank, Bool.or_eq_true, Bool.and_eq_true, decide_eq_true_eq] at h
  omega

theorem isAscii_of_isHexPairs {key : Text} (h : isHexPairs key = true) : key.IsAscii := by
  fun_induction isHexPairs key with
  | case1 => exact fun _ hc => by cases hc
  | case2 c => exact List.forall_mem_singleton.mpr (val_lt_of_isAsciiBlank h)
  | case3 c d rest hblank ih =>
    exact List.forall_mem_cons.mpr ⟨val_lt_of_isAsciiBlank hblank, ih h⟩
  | case4 c d rest _ ih =>
    simp only [Bool.and_eq_true] at h
    exact List.forall_mem_cons.mpr ⟨val_lt_of_isHexDigit h.1.1,
      List.forall_mem_cons.mpr ⟨val_lt_of_isHexDigit h.1.2, ih h.2⟩⟩

/-- A validated key may hold blanks, but nothing beyond ASCII. -/
theorem IsValidated.isAscii {key algorithm : Text} (h : IsValidated key algorithm) :
    key.IsAscii := by
  obtain ⟨text, htext⟩ := h
  obtain ⟨-, -, -, hnormal, -⟩ := validate_eq_ok_iff.mp htext
  exact isAscii_of_isHexPairs (normalize_eq_ok_iff.mp hnormal).2.2

/-! ## Validating again -/

theorem validate_of_isCanonical {key algorithm : Text} (hkey : IsValidated key algorithm)
    (h : IsCanonical key) : validate key algorithm = .ok key := by
  obtain ⟨text, htext⟩ := hkey
  obtain ⟨curve, k, hcurve, hnormal, hk⟩ := validate_eq_ok_iff.mp htext
  obtain ⟨hbare, hlength, hpairs⟩ := normalize_eq_ok_iff.mp hnormal
  have hdigits : ∀ c ∈ key, Address.isDigit c = true := fun c hc =>
    isAddressDigit_of_mem_bare text (hbare ▸ hc) (h.2 c hc)
  have hself : bare key = key := Address.bare_of_forall hdigits
  exact validate_eq_ok_iff.mpr
    ⟨curve, k, hcurve, normalize_eq_ok_iff.mpr ⟨hself, hlength, hpairs⟩, hk⟩

theorem length_bare_le (text : Text) : (bare text).length ≤ text.trim.lower.length := by
  unfold bare
  simp only
  cases hdrop : Text.dropStart? "0x" text.trim.lower with
  | none => simp
  | some rest =>
    rw [Option.getD_some, Text.dropStart?_eq_some_iff.mp hdrop, List.length_append]
    omega

/-- What is no digit in a validated key has to be trimmed, and what is left is too short. -/
theorem length_bare_lt_of_not_isCanonical {key algorithm : Text} (hkey : IsValidated key algorithm)
    (h : ¬ IsCanonical key) : (bare key).length < width := by
  obtain ⟨text, htext⟩ := hkey
  obtain ⟨-, k, -, hnormal, hk, -⟩ := validate_eq_ok_iff.mp htext
  obtain ⟨hbare, hlength, -⟩ := normalize_eq_ok_iff.mp hnormal
  have htrim := isHexDigit_of_mem_trim hk
  have hdigits : ∀ c ∈ key.trim, Address.isDigit c = true := fun c hc =>
    isAddressDigit_of_mem_bare text (hbare ▸ (Text.trim_infix key).subset hc) (htrim c hc)
  have hlower : key.trim.lower = key.trim :=
    Text.lower_of_forall fun c hc => CodePoint.lower_of_isAddressDigit (hdigits c hc)
  have hshort : key.trim.length < key.length := by
    refine lt_of_le_of_ne (Text.trim_infix key).length_le fun heq => h ⟨hlength, ?_⟩
    have hsame : key.trim = key := (Text.trim_infix key).eq_of_length heq
    rwa [hsame] at htrim
  have := length_bare_le key
  rw [hlower] at this
  omega

theorem normalize_of_not_isCanonical {key algorithm : Text} (hkey : IsValidated key algorithm)
    (h : ¬ IsCanonical key) : normalize key = .error .wrongLength := by
  unfold normalize
  exact if_pos (length_bare_lt_of_not_isCanonical hkey h).ne

theorem exists_error_of_not_isCanonical {key algorithm : Text} (hkey : IsValidated key algorithm)
    (h : ¬ IsCanonical key) (algorithm' : Text) : ∃ e, validate key algorithm' = .error e := by
  refine exists_error_of_forall_ne fun found hfound => ?_
  obtain ⟨-, -, -, hagain, -⟩ := validate_eq_ok_iff.mp hfound
  rw [normalize_of_not_isCanonical hkey h] at hagain
  cases hagain

end ContractKit.PrivateKey
