import ContractKit.Proofs.Result
import ContractKit.Proofs.Text
import Mathlib.Data.Nat.Digits.Defs

/-!
# Numerals are read back

The digits of a number give the number back (`Numeral.value_digits`), in decimal
(`Numeral.readDecimal_map_digitChar`) and, filled with zeros, in hexadecimal
(`Numeral.value_hexDigits`). A decimal numeral within the limit denotes an integer whose own numeral
is within the limit (`Numeral.isShort_of_readDecimal`), so what has been read can be written.
-/

namespace ContractKit.Numeral

/-! ## Digits -/

theorem digitsOnto_eq_append (base : Nat) : ∀ (n : Nat) (rest : List Nat),
    digitsOnto base n rest = digits base n ++ rest := by
  intro n
  induction n using Nat.strong_induction_on with
  | _ n ih =>
    intro rest
    rw [digits, digitsOnto.eq_def base n rest, digitsOnto.eq_def base n []]
    split_ifs with h
    · rfl
    · have hlt : n / base < n := Nat.div_lt_self (by omega) (by omega)
      rw [ih _ hlt, ih _ hlt [n % base], List.append_assoc]
      rfl

theorem digits_of_lt {base n : Nat} (h : n < base) : digits base n = [n] := by
  rw [digits, digitsOnto, dif_pos (Or.inl h)]

theorem digits_of_le {base n : Nat} (hb : 2 ≤ base) (h : base ≤ n) :
    digits base n = digits base (n / base) ++ [n % base] := by
  rw [digits, digitsOnto, dif_neg (by omega), digitsOnto_eq_append]

theorem digits_ne_nil (base n : Nat) : digits base n ≠ [] := by
  rw [digits, digitsOnto]
  split_ifs
  · simp
  · simp [digitsOnto_eq_append]

theorem lt_of_mem_digits {base : Nat} (hb : 2 ≤ base) (n : Nat) : ∀ d ∈ digits base n, d < base := by
  induction n using Nat.strong_induction_on with
  | _ n ih =>
    rcases Nat.lt_or_ge n base with h | h
    · rw [digits_of_lt h]
      simpa using h
    · rw [digits_of_le hb h]
      intro d hd
      rcases List.mem_append.mp hd with hd | hd
      · exact ih (n / base) (Nat.div_lt_self (by omega) (by omega)) d hd
      · rw [List.mem_singleton.mp hd]
        exact Nat.mod_lt _ (by omega)

/-- Only zero starts with a zero. -/
theorem eq_zero_of_digits_eq {base : Nat} (hb : 2 ≤ base) {n : Nat} {rest : List Nat}
    (h : digits base n = 0 :: rest) : n = 0 := by
  induction n using Nat.strong_induction_on generalizing rest with
  | _ n ih =>
    rcases Nat.lt_or_ge n base with hlt | hge
    · rw [digits_of_lt hlt] at h
      exact (List.cons.inj h).1
    · exfalso
      rw [digits_of_le hb hge] at h
      cases hds : digits base (n / base) with
      | nil => exact digits_ne_nil base _ hds
      | cons d ds =>
        rw [hds] at h
        obtain ⟨rfl, -⟩ := List.cons.inj h
        have hzero := ih (n / base) (Nat.div_lt_self (by omega) (by omega)) hds
        have := Nat.div_pos hge (by omega)
        omega

theorem length_digits_le {base : Nat} (hb : 2 ≤ base) :
    ∀ {k n : Nat}, n < base ^ (k + 1) → (digits base n).length ≤ k + 1
  | 0, n, h => by
    rw [digits_of_lt (by simpa using h), List.length_singleton]
  | k + 1, n, h => by
    rcases Nat.lt_or_ge n base with hn | hn
    · rw [digits_of_lt hn, List.length_singleton]
      omega
    · have hdiv : n / base < base ^ (k + 1) := by
        rw [Nat.div_lt_iff_lt_mul (by omega)]
        rwa [Nat.pow_succ] at h
      have := length_digits_le hb hdiv
      rw [digits_of_le hb hn, List.length_append, List.length_singleton]
      omega

/-! ## Values -/

theorem value_append (base : Nat) (ds : List Nat) (d : Nat) :
    value base (ds ++ [d]) = value base ds * base + d := by
  simp [value]

theorem value_eq_ofDigits (base : Nat) (ds : List Nat) :
    value base ds = Nat.ofDigits base ds.reverse := by
  rw [value, Nat.ofDigits_eq_foldr, List.foldr_reverse]
  simp only [Nat.cast_id, Nat.add_comm, Nat.mul_comm]

theorem value_digits {base : Nat} (hb : 2 ≤ base) (n : Nat) : value base (digits base n) = n := by
  induction n using Nat.strong_induction_on with
  | _ n ih =>
    rcases Nat.lt_or_ge n base with h | h
    · rw [digits_of_lt h]
      simp [value]
    · have hlt : n / base < n := Nat.div_lt_self (by omega) (by omega)
      rw [digits_of_le hb h, value_append, ih _ hlt]
      exact Nat.div_add_mod' n base

theorem value_replicate_zero_append (base k : Nat) (ds : List Nat) :
    value base (List.replicate k 0 ++ ds) = value base ds := by
  induction k with
  | zero => rfl
  | succ k ih =>
    rw [← ih]
    simp [value, List.replicate_succ]

theorem value_lt {base : Nat} (ds : List Nat) (h : ∀ d ∈ ds, d < base) :
    value base ds < base ^ ds.length := by
  induction ds using List.reverseRecOn with
  | nil => simp [value]
  | append_singleton ds d ih =>
    have hd := h d (by simp)
    have hds := ih fun e he => h e (by simp [he])
    rw [value_append, List.length_append, List.length_singleton, Nat.pow_succ]
    calc value base ds * base + d < value base ds * base + base := by omega
      _ = (value base ds + 1) * base := by rw [Nat.add_mul, Nat.one_mul]
      _ ≤ base ^ ds.length * base := Nat.mul_le_mul_right _ hds

/-! ## Characters of digits -/

theorem val_digitChar {d : Nat} (h : d < 16) :
    (digitChar d).val = if d < 10 then 48 + d else 87 + d := by
  rw [digitChar, CodePoint.val_ofNat]
  split_ifs <;> omega

theorem isAddressDigit_digitChar {d : Nat} (h : d < 16) : Address.isDigit (digitChar d) = true := by
  rw [CodePoint.isAddressDigit_iff, val_digitChar h]
  split_ifs <;> omega

theorem decimalValue?_digitChar : ∀ d, d < 10 → (digitChar d).decimalValue? = some d := by
  decide

theorem hexValue?_digitChar : ∀ d, d < 16 → hexValue? (digitChar d) = some d := by
  decide

theorem isAsciiDigit_digitChar : ∀ d, d < 10 → (digitChar d).isAsciiDigit = true := by
  decide

theorem isAsciiDigit_of_mem_map {ds : List Nat} (h : ∀ d ∈ ds, d < 10) :
    ∀ c ∈ ds.map digitChar, c.isAsciiDigit = true := by
  intro c hc
  obtain ⟨d, hd, rfl⟩ := List.mem_map.mp hc
  exact isAsciiDigit_digitChar d (h d hd)

theorem isAsciiDigit_of_mem_ofNat {n : Nat} : ∀ c ∈ ofNat 10 n, c.isAsciiDigit = true :=
  isAsciiDigit_of_mem_map (lt_of_mem_digits (by omega) n)

theorem ofNat_ne_nil (base n : Nat) : ofNat base n ≠ [] :=
  fun h => digits_ne_nil base n (List.map_eq_nil_iff.mp h)

theorem exists_cons_ofNat (n : Nat) : ∃ c t, ofNat 10 n = c :: t ∧ c.isAsciiDigit = true := by
  obtain ⟨c, t, heq⟩ := List.exists_cons_of_ne_nil (ofNat_ne_nil 10 n)
  exact ⟨c, t, heq, isAsciiDigit_of_mem_ofNat c (heq ▸ List.mem_cons_self)⟩

theorem dropStart?_minus_ofNat (n : Nat) : Text.dropStart? "-" (ofNat 10 n) = none :=
  Text.dropStart?_eq_none (c := '-') (by decide) fun h =>
    absurd (isAsciiDigit_of_mem_ofNat _ h) (by decide)

theorem dropStart?_minus_cons (t : Text) : Text.dropStart? "-" (('-' : CodePoint) :: t) = some t :=
  Text.dropStart?_append "-" t

theorem mapM_map_digitChar {base : Nat} {valueOf? : CodePoint → Option Nat}
    (hvalue : ∀ d, d < base → valueOf? (digitChar d) = some d) {ds : List Nat}
    (h : ∀ d ∈ ds, d < base) : (ds.map digitChar).mapM valueOf? = some ds := by
  induction ds with
  | nil => rfl
  | cons d ds ih =>
    rw [List.map_cons, List.mapM_cons, hvalue d (h d (by simp)),
      ih fun e he => h e (by simp [he])]
    rfl

theorem map_ofNat_padLeft (width : Nat) (ds : List Nat) :
    Text.padLeft '0' width (ds.map digitChar) =
      (List.replicate (width - ds.length) 0 ++ ds).map digitChar := by
  rw [Text.padLeft, List.length_map, List.map_append, List.map_replicate]
  rfl

theorem isAscii_digits {ds : List Nat} (h : ∀ d ∈ ds, d < 16) :
    Text.IsAscii (ds.map digitChar) := by
  intro c hc
  obtain ⟨d, hd, rfl⟩ := List.mem_map.mp hc
  have := h d hd
  rw [val_digitChar this]
  split_ifs <;> omega

theorem isAscii_ofNat (n : Nat) : Text.IsAscii (ofNat 10 n) :=
  isAscii_digits fun d hd => (lt_of_mem_digits (by omega) n d hd).trans (by omega)

theorem isAscii_ofInt (n : Int) : Text.IsAscii (ofInt n) := by
  unfold ofInt
  split_ifs
  · exact Text.IsAscii.append (s := ['-']) (by decide) (isAscii_ofNat n.natAbs)
  · exact isAscii_ofNat n.natAbs

/-! ## Decimal numerals -/

/-- An integer whose decimal numeral has no more digits than are allowed. -/
def IsShort (n : Int) : Prop :=
  (digits 10 n.natAbs).length ≤ decimalLimit

instance (n : Int) : Decidable (IsShort n) := by
  unfold IsShort
  infer_instance

theorem isShort_of_print {n : Int} {text : Text} (h : print n = .ok text) :
    IsShort n ∧ text = ofInt n := by
  unfold print at h
  split_ifs at h with hlong
  exact ⟨Nat.not_lt.mp hlong, (Except.ok.inj h).symm⟩

theorem eq_tooManyDigits_of_print {n : Int} {e : NumeralError} (h : print n = .error e) :
    ¬ IsShort n ∧ e = .tooManyDigits := by
  unfold print at h
  split_ifs at h with hlong
  exact ⟨Nat.not_le.mpr hlong, (Except.error.inj h).symm⟩

theorem isShort_of_lt {n : Int} {k : Nat} (hk : k < decimalLimit) (h : n.natAbs < 10 ^ (k + 1)) :
    IsShort n :=
  (length_digits_le (by omega) h).trans hk

/-- A number with more digits than are allowed. -/
theorem not_isShort_of_le {n : Nat} (h : 10 ^ decimalLimit ≤ n) : ¬ IsShort n := by
  rw [IsShort, Int.natAbs_natCast]
  intro hshort
  have hlt : n < 10 ^ (digits 10 n).length := by
    have := value_lt _ (lt_of_mem_digits (show 2 ≤ 10 by omega) n)
    rwa [value_digits (by omega)] at this
  exact absurd (h.trans_lt hlt) (Nat.not_lt.mpr (Nat.pow_le_pow_right (by omega) hshort))

theorem readDecimal_map_digitChar {ds : List Nat} (hd : ∀ d ∈ ds, d < 10) (hne : ds ≠ [])
    (hlen : ds.length ≤ decimalLimit) : readDecimal (ds.map digitChar) = .ok (value 10 ds) := by
  rw [readDecimal, mapM_map_digitChar decimalValue?_digitChar hd]
  cases ds with
  | nil => exact absurd rfl hne
  | cons d ds => exact if_neg (Nat.not_lt.mpr hlen)

theorem readDecimal_ofNat {n : Nat} (h : IsShort n) : readDecimal (ofNat 10 n) = .ok n := by
  rw [ofNat, readDecimal_map_digitChar (lt_of_mem_digits (by omega) n) (digits_ne_nil 10 n) h,
    value_digits (by omega)]

theorem decimalValue?_lt {c : CodePoint} {d : Nat} (h : c.decimalValue? = some d) : d < 10 := by
  obtain ⟨first, hfirst, rfl⟩ := Option.map_eq_some_iff.mp h
  have := List.find?_some hfirst
  simp only [Bool.and_eq_true, decide_eq_true_eq] at this
  omega

theorem lt_of_mapM_decimalValue? {text : Text} {ds : List Nat}
    (h : text.mapM CodePoint.decimalValue? = some ds) : ∀ d ∈ ds, d < 10 := by
  intro d hd
  obtain ⟨c, -, hc⟩ := exists_right_of_forall₂ (forall₂_of_mapM_eq_some h) d hd
  exact decimalValue?_lt hc

/-- A number read from so many digits has no more digits than that. -/
theorem isShort_value {ds : List Nat} (hd : ∀ d ∈ ds, d < 10) (hlen : ds.length ≤ decimalLimit) :
    IsShort (value 10 ds : Nat) := by
  have hpos : 0 < decimalLimit := by decide
  refine isShort_of_lt (k := decimalLimit - 1) (by omega) ?_
  rw [Nat.sub_add_cancel hpos]
  exact (value_lt ds hd).trans_le (Nat.pow_le_pow_right (by omega) hlen)

theorem isShort_of_readDecimal {text : Text} {n : Nat} (h : readDecimal text = .ok n) :
    IsShort n := by
  unfold readDecimal at h
  split at h
  · simp at h
  · simp at h
  · next ds _ hds =>
    split_ifs at h with hlong
    obtain rfl := Except.ok.inj h
    exact isShort_value (lt_of_mapM_decimalValue? hds) (Nat.not_lt.mp hlong)

theorem isShort_neg {n : Int} (h : IsShort n) : IsShort (-n) := by
  rwa [IsShort, Int.natAbs_neg]

/-- The digits of a hexadecimal numeral of the given width. -/
def hexDigits (width n : Nat) : List Nat :=
  List.replicate (width - (digits 16 n).length) 0 ++ digits 16 n

theorem hexadecimal_eq (width n : Nat) : hexadecimal width n = (hexDigits width n).map digitChar :=
  map_ofNat_padLeft width _

theorem value_hexDigits (width n : Nat) : value 16 (hexDigits width n) = n := by
  rw [hexDigits, value_replicate_zero_append, value_digits (by omega)]

theorem lt_of_mem_hexDigits (width n : Nat) : ∀ d ∈ hexDigits width n, d < 16 := by
  intro d hd
  rcases List.mem_append.mp hd with hd | hd
  · rw [List.eq_of_mem_replicate hd]
    omega
  · exact lt_of_mem_digits (by omega) n d hd

theorem length_hexDigits {width n : Nat} (h : n < 16 ^ (width + 1)) :
    (hexDigits (width + 1) n).length = width + 1 := by
  have := length_digits_le (by omega) h
  rw [hexDigits, List.length_append, List.length_replicate]
  omega

end ContractKit.Numeral
