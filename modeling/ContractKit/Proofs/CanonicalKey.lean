import ContractKit.Proofs.Accounts

/-!
# Canonical keys

A validated key is canonical unless a blank stands between the `0x` and the digits of the text that it is
validated from (`PrivateKey.IsIndented`): no blank is left at the ends of a bare text but behind its `0x`
(`PrivateKey.trim_bare`), and what has no blank at its ends is read as digits throughout. A canonical
key is accepted again, by validation and from a saved account, and any other is refused again
(`PrivateKey.canonical_of_validate`).
-/

namespace ContractKit.PrivateKey

/-- Behind the `0x` that the text starts with stands a blank. -/
def IsIndented (text : Text) : Prop :=
  ∃ digits ∈ Text.dropStart? "0x" text.trim.lower, ∃ c ∈ digits.head?, c.isBlank = true

instance : DecidablePred IsIndented := fun text => by
  unfold IsIndented
  infer_instance

/-! ## The ends of a bare text -/

theorem bare_suffix (text : Text) : bare text <:+ text.trim.lower := by
  unfold bare
  simp only
  cases hdrop : Text.dropStart? "0x" text.trim.lower with
  | none => exact List.suffix_rfl
  | some digits =>
    rw [Text.dropStart?_eq_some_iff.mp hdrop]
    exact List.suffix_append _ _

/-- A text of ASCII characters that is bare starts with no blank, unless behind a `0x`. -/
theorem isBlank_head?_bare {text : Text} (hascii : (bare text).IsAscii) (h : ¬ IsIndented text) :
    ∀ c ∈ (bare text).head?, c.isBlank = false := by
  intro c hc
  have hlow : c.val < 0x80 := hascii c (List.mem_of_mem_head? hc)
  rw [← Bool.not_eq_true]
  intro hblank
  unfold bare at hc
  simp only at hc
  cases hdrop : Text.dropStart? "0x" text.trim.lower with
  | none =>
    rw [hdrop] at hc
    obtain ⟨b, hb, hlower⟩ := Text.head?_lowerAfter hlow hc
    have := CodePoint.isBlank_of_mem_lower hlower hblank hlow
    rw [Text.isBlank_head?_trim text b hb] at this
    cases this
  | some digits =>
    rw [hdrop] at hc
    exact h ⟨digits, hdrop, c, hc, hblank⟩

theorem isBlank_getLast?_bare {text : Text} (hascii : (bare text).IsAscii) :
    ∀ c ∈ (bare text).getLast?, c.isBlank = false := by
  intro c hc
  have hlow : c.val < 0x80 := hascii c (List.mem_of_mem_getLast? hc)
  obtain ⟨start, hstart⟩ := bare_suffix text
  have hlast : c ∈ text.trim.lower.getLast? := by
    rw [← hstart, List.getLast?_append, Option.mem_def.mp hc]
    rfl
  obtain ⟨b, hb, hlower⟩ := Text.getLast?_lowerAfter hlow hlast
  rw [← Bool.not_eq_true]
  intro hblank
  have := CodePoint.isBlank_of_mem_lower hlower hblank hlow
  rw [Text.isBlank_getLast?_trim text b hb] at this
  cases this

/-- Nothing is left to trim of a bare text, unless behind a `0x`. -/
theorem trim_bare {text : Text} (hascii : (bare text).IsAscii) (h : ¬ IsIndented text) :
    (bare text).trim = bare text :=
  Text.trim_of_ends (isBlank_head?_bare hascii h) (isBlank_getLast?_bare hascii)

/-! ## Keys that are canonical -/

theorem isCanonical_of_not_isIndented {text algorithm key : Text}
    (hkey : validate text algorithm = .ok key) (h : ¬ IsIndented text) : IsCanonical key := by
  obtain ⟨-, k, -, hnormal, hk, -⟩ := validate_eq_ok_iff.mp hkey
  obtain ⟨rfl, hlength, hpairs⟩ := normalize_eq_ok_iff.mp hnormal
  have htrim := trim_bare (isAscii_of_isHexPairs hpairs) h
  exact ⟨hlength, htrim ▸ isHexDigit_of_mem_trim hk⟩

theorem exists_isBlank_of_isIndented {text : Text} (h : IsIndented text) :
    ∃ c ∈ bare text, c.isBlank = true := by
  obtain ⟨digits, hdrop, c, hc, hblank⟩ := h
  have heq : bare text = digits := by
    rw [bare, Option.mem_def.mp hdrop]
    rfl
  exact ⟨c, heq ▸ List.mem_of_mem_head? hc, hblank⟩

theorem not_isCanonical_of_isBlank {text : Text} (h : ∃ c ∈ bare text, c.isBlank = true) :
    ¬ IsCanonical (bare text) := by
  obtain ⟨c, hc, hblank⟩ := h
  intro hcanonical
  have hdigit := isAddressDigit_of_mem_bare text hc (hcanonical.2 c hc)
  rw [CodePoint.isBlank_of_isAddressDigit hdigit] at hblank
  cases hblank

/-- A validated key consists of 64 hexadecimal digits in lower case, is validated as it is and read as it
is from an account, unless a blank stands behind the `0x` of the text. Then it keeps the blank, and neither
validation nor the reader of accounts accepts it again. -/
theorem canonical_of_validate {text algorithm key : Text} (h : validate text algorithm = .ok key) :
    (¬ IsIndented text → (key.length = width ∧ ∀ c ∈ key, Address.isDigit c = true) ∧
      validate key algorithm = .ok key ∧
      ∀ name, Accounts.readPrivateKey name (.str key) algorithm = .ok key) ∧
    (IsIndented text → (∃ c ∈ key, c.isBlank = true) ∧
      validate key algorithm = .error .wrongLength ∧
      ∀ name, Accounts.readPrivateKey name (.str key) algorithm =
        .error (.invalidKey name .wrongLength)) := by
  obtain ⟨curve, -, hcurve, hnormal, -⟩ := validate_eq_ok_iff.mp h
  obtain ⟨rfl, hlength, -⟩ := normalize_eq_ok_iff.mp hnormal
  have hne : bare text ≠ [] := by
    intro hnil
    rw [hnil] at hlength
    cases hlength
  have hread : ∀ name, Accounts.readPrivateKey name (.str (bare text)) algorithm =
      (validate (bare text) algorithm).mapError (.invalidKey name) := by
    intro name
    rw [Accounts.readPrivateKey, Format.text_eq_ok_iff.mpr ⟨rfl, hne⟩, ok_bind]
    cases validate (bare text) algorithm <;> rfl
  constructor
  · intro hindented
    have hcanonical := isCanonical_of_not_isIndented h hindented
    have hagain := validate_of_isCanonical ⟨text, h⟩ hcanonical
    refine ⟨⟨hlength, fun c hc => ?_⟩, hagain, fun name => ?_⟩
    · exact isAddressDigit_of_mem_bare text hc (hcanonical.2 c hc)
    · rw [hread, hagain]
      rfl
  · intro hindented
    have hblank := exists_isBlank_of_isIndented hindented
    have hrefused : validate (bare text) algorithm = .error .wrongLength := by
      rw [validate, curveFor_eq_ok_iff.mpr hcurve, ok_bind,
        normalize_of_not_isCanonical ⟨text, h⟩ (not_isCanonical_of_isBlank hblank)]
      rfl
    refine ⟨hblank, hrefused, fun name => ?_⟩
    rw [hread, hrefused]
    rfl

/-- A key in capitals between blanks is kept in lower case. -/
theorem canonical_of_validate_capitals :
    let text : Text := " 0XABCDEFABCDEFABCDEFABCDEFABCDEFABCDEFABCDEFABCDEFABCDEFABCDEFABCD "
    let key : Text := "abcdefabcdefabcdefabcdefabcdefabcdefabcdefabcdefabcdefabcdefabcd"
    validate text "ECDSA_P256" = .ok key ∧ validate key "ECDSA_P256" = .ok key := by
  intro text key
  have hvalid : validate text "ECDSA_P256" = .ok key := by decide +kernel
  exact ⟨hvalid, ((canonical_of_validate hvalid).1 (by decide +kernel)).2.1⟩

/-- The two blanks behind the `0x` count as digits, and the key that keeps them is refused. -/
theorem not_forall_canonical_of_validate :
    ¬ ∀ text algorithm key : Text, validate text algorithm = .ok key →
      (key.length = width ∧ ∀ c ∈ key, Address.isDigit c = true) ∧
        validate key algorithm = .ok key := by
  intro hall
  have hvalid : validate "0x  11111111111111111111111111111111111111111111111111111111111111"
      "ECDSA_P256" = .ok "  11111111111111111111111111111111111111111111111111111111111111" := by
    decide +kernel
  exact absurd ((hall _ _ _ hvalid).1.2 ' ' (by decide)) (by decide)

end ContractKit.PrivateKey
