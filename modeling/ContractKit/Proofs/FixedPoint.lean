import Mathlib.Data.Nat.Digits.Lemmas
import Mathlib.Data.Rat.Cast.Order
import ContractKit.Proofs.Scalar

/-!
# Fixed points are exact

A fixed point is read from a decimal numeral with a point: the digits may be of any script, and there
are at most `Numeral.decimalLimit` before the point and at most `fixedPlaces` behind it
(`FixedPoint.Decimal`). The number of units that is read is the rational number that the numeral
denotes, times `10 ^ fixedPlaces` (`FixedPoint.Decimal.amount_mul`). So nothing is rounded, and what is
out of range is refused (`FixedPoint.text_exact`).
-/

namespace ContractKit

/-! ## Runs of digits -/

namespace Numeral

/-- The values of the decimal digits of a text. -/
def digitValues (text : Text) : List Nat :=
  text.filterMap CodePoint.decimalValue?

theorem mapM_decimalValue? {text : Text} (h : ∀ c ∈ text, c.isDecimal = true) :
    text.mapM CodePoint.decimalValue? = some (digitValues text) := by
  induction text with
  | nil => rfl
  | cons c text ih =>
    obtain ⟨d, hd⟩ := Option.isSome_iff_exists.mp (h c (by simp))
    rw [List.mapM_cons, ih fun e he => h e (by simp [he]), hd, digitValues, digitValues,
      List.filterMap_cons, hd]
    rfl

theorem length_digitValues {text : Text} (h : ∀ c ∈ text, c.isDecimal = true) :
    (digitValues text).length = text.length :=
  (forall₂_of_mapM_eq_some (mapM_decimalValue? h)).length_eq.symm

/-- A run of decimal digits is refused only for its length. -/
theorem readDecimal_eq {text : Text} (h : ∀ c ∈ text, c.isDecimal = true) (hne : text ≠ []) :
    readDecimal text = if decimalLimit < text.length then .error .tooManyDigits
      else .ok (value 10 (digitValues text)) := by
  have hlength := length_digitValues h
  rw [readDecimal, mapM_decimalValue? h]
  cases hvalues : digitValues text with
  | nil =>
    rw [hvalues] at hlength
    exact absurd (List.length_eq_zero_iff.mp hlength.symm) hne
  | cons d ds => rw [← hlength, hvalues]

theorem value_append_replicate_zero (ds : List Nat) (k : Nat) :
    value 10 (ds ++ List.replicate k 0) = value 10 ds * 10 ^ k := by
  rw [value_eq_ofDigits, value_eq_ofDigits, List.reverse_append, List.reverse_replicate,
    Nat.ofDigits_append, Nat.ofDigits_replicate_zero, List.length_replicate, Nat.zero_add,
    Nat.mul_comm]

/-- Digits behind a point are so many parts of ten to the power of their number. -/
theorem ofDigits_tenth_mul (ds : List Nat) :
    Nat.ofDigits (1 / 10 : ℚ) (0 :: ds) * 10 ^ ds.length = value 10 ds := by
  have hcons : ∀ (d : Nat) (ds : List Nat),
      Nat.ofDigits (1 / 10 : ℚ) (d :: ds) = d + 1 / 10 * Nat.ofDigits (1 / 10 : ℚ) ds :=
    fun _ _ => rfl
  rw [value_eq_ofDigits]
  induction ds with
  | nil => simp [Nat.ofDigits]
  | cons d ds ih =>
    rw [Nat.ofDigits_reverse_cons, Nat.cast_add, ← ih, hcons, hcons, hcons, List.length_cons]
    push_cast
    ring

end Numeral

namespace FixedPoint

/-! ## Decimal numerals with a point -/

/-- A decimal numeral with a point that a fixed point can be read from. -/
structure Decimal where
  /-- Whether there is a minus sign. -/
  negative : Bool
  /-- The digits before the point. -/
  whole : Text
  /-- The digits behind the point. -/
  fraction : Text
  isDecimal_whole : ∀ c ∈ whole, c.isDecimal = true
  isDecimal_fraction : ∀ c ∈ fraction, c.isDecimal = true
  length_whole : 1 ≤ whole.length ∧ whole.length ≤ Numeral.decimalLimit
  length_fraction : 1 ≤ fraction.length ∧ fraction.length ≤ fixedPlaces

namespace Decimal

/-- The text of a numeral. -/
def text (number : Decimal) : Text :=
  (if number.negative then "-" else [] : Text) ++
    (number.whole ++ ('.' : CodePoint) :: number.fraction)

/-- The rational number that a numeral denotes: each digit counts for ten times as much as the next. -/
def amount (number : Decimal) : ℚ :=
  let size := Nat.ofDigits 10 (Numeral.digitValues number.whole).reverse +
    Nat.ofDigits (1 / 10) (0 :: Numeral.digitValues number.fraction)
  if number.negative then -size else size

/-- The units of a numeral. -/
def units (number : Decimal) : Int :=
  let size : Nat := Numeral.value 10 (Numeral.digitValues number.whole) * fixedFactor +
    Numeral.value 10 (Numeral.digitValues (Text.padRight '0' fixedPlaces number.fraction))
  if number.negative then -size else size

variable (number : Decimal)

theorem isDecimal_padRight :
    ∀ c ∈ Text.padRight '0' fixedPlaces number.fraction, c.isDecimal = true := by
  intro c hc
  rcases Text.mem_padRight hc with rfl | hc
  · decide
  · exact number.isDecimal_fraction c hc

/-- The places of a numeral, filled with zeros, are its fraction in units. -/
theorem value_padRight :
    (Numeral.value 10 (Numeral.digitValues (Text.padRight '0' fixedPlaces number.fraction)) : ℚ) =
      Nat.ofDigits (1 / 10 : ℚ) (0 :: Numeral.digitValues number.fraction) * 10 ^ fixedPlaces := by
  have hlength := Numeral.length_digitValues number.isDecimal_fraction
  have hzeros : ∀ k, Numeral.digitValues (List.replicate k '0') = List.replicate k 0 := by
    intro k
    rw [Numeral.digitValues, List.filterMap_replicate]
    rfl
  have hplaces : fixedPlaces = number.fraction.length + (fixedPlaces - number.fraction.length) :=
    (Nat.add_sub_of_le number.length_fraction.2).symm
  rw [Text.padRight, Numeral.digitValues, List.filterMap_append, ← Numeral.digitValues,
    ← Numeral.digitValues, hzeros, Numeral.value_append_replicate_zero, Nat.cast_mul,
    ← Numeral.ofDigits_tenth_mul, hlength, Nat.cast_pow, mul_assoc, Nat.cast_ofNat, ← pow_add,
    ← hplaces]

/-- The units are exact. -/
theorem amount_mul : number.amount * 10 ^ fixedPlaces = number.units := by
  have hfactor : ((fixedFactor : Nat) : ℚ) = 10 ^ fixedPlaces := by norm_num [fixedFactor]
  have hwhole : Nat.ofDigits (10 : ℚ) (Numeral.digitValues number.whole).reverse =
      Numeral.value 10 (Numeral.digitValues number.whole) := by
    rw [Numeral.value_eq_ofDigits, Nat.coe_ofDigits]
    rfl
  rw [amount, units, hwhole]
  split_ifs <;> push_cast <;> rw [value_padRight, hfactor] <;> ring

end Decimal

/-! ## Reading -/

/-- A text is taken apart into the sign and the digits before and behind the point. -/
theorem split?_eq_some_iff {text whole fraction : Text} {negative : Bool} :
    split? text = some (negative, whole, fraction) ↔
      text = (if negative then "-" else [] : Text) ++ (whole ++ ('.' : CodePoint) :: fraction) ∧
        ((∀ c ∈ whole, c.isDecimal = true) ∧ whole ≠ []) ∧
          (∀ c ∈ fraction, c.isDecimal = true) ∧ fraction ≠ [] := by
  constructor
  · intro h
    obtain ⟨unsigned, hunsigned⟩ : ∃ unsigned : Text, unsigned =
        if text.head? = some ('-' : CodePoint) then text.drop 1 else text := ⟨_, rfl⟩
    have htext : text =
        (if text.head? = some ('-' : CodePoint) then "-" else [] : Text) ++ unsigned := by
      cases text with
      | nil => simpa using hunsigned.symm
      | cons c rest =>
        rw [hunsigned]
        split_ifs with hminus
        · obtain rfl : c = '-' := by simpa using hminus
          rfl
        · rfl
    simp only [split?, ← hunsigned] at h
    split at h
    · cases h
    · next point rest hrest =>
      split_ifs at h with hparts
      obtain ⟨rfl, hwne, hfne, hf⟩ := hparts
      simp only [Option.some.injEq, Prod.mk.injEq] at h
      obtain ⟨rfl, rfl, rfl⟩ := h
      refine ⟨?_, ⟨fun c hc => List.mem_takeWhile_imp hc, hwne⟩, List.all_eq_true.mp hf, hfne⟩
      rw [← hrest, List.takeWhile_append_dropWhile]
      simpa only [decide_eq_true_eq] using htext
  · rintro ⟨rfl, ⟨hw, hwne⟩, hf, hfne⟩
    exact split?_append hw hf hwne hfne negative

/-- What is read from a numeral. -/
theorem read_eq (kind : FixedKind) {text : Text} {number : Decimal} (h : text.trim = number.text) :
    read kind text = if kind.InRange number.units then .ok number.units
      else .error (.outOfRange text kind.name) := by
  have hwne : number.whole ≠ [] := List.length_pos_iff.mp number.length_whole.1
  have hfne : number.fraction ≠ [] := List.length_pos_iff.mp number.length_fraction.1
  have hsplit : split? text.trim = some (number.negative, number.whole, number.fraction) :=
    split?_eq_some_iff.mpr
      ⟨h, ⟨number.isDecimal_whole, hwne⟩, number.isDecimal_fraction, hfne⟩
  have hpadded : (Text.padRight '0' fixedPlaces number.fraction).length = fixedPlaces := by
    rw [Text.padRight, List.length_append, List.length_replicate]
    exact Nat.add_sub_of_le number.length_fraction.2
  have hpne : Text.padRight '0' fixedPlaces number.fraction ≠ [] :=
    List.append_ne_nil_of_left_ne_nil hfne _
  have hones := Numeral.readDecimal_eq number.isDecimal_whole hwne
  have hplaces := Numeral.readDecimal_eq number.isDecimal_padRight hpne
  rw [if_neg (Nat.not_lt.mpr number.length_whole.2)] at hones
  rw [hpadded, if_neg (by decide)] at hplaces
  simp only [read, hsplit, if_neg (Nat.not_lt.mpr number.length_fraction.2), hones, hplaces]
  rfl

/-- Only numerals are read. -/
theorem exists_decimal_of_read {kind : FixedKind} {text : Text} {raw : Int}
    (h : read kind text = .ok raw) : ∃ number : Decimal, text.trim = number.text := by
  unfold read at h
  split at h
  · cases h
  next negative whole fraction hsplit =>
  split at h
  · cases h
  next hlong =>
  obtain ⟨htext, ⟨hw, hwne⟩, hf, hfne⟩ := split?_eq_some_iff.mp hsplit
  have hones := Numeral.readDecimal_eq hw hwne
  split_ifs at hones with hlimit
  · rw [hones] at h
    cases h
  · exact ⟨{
      negative := negative
      whole := whole
      fraction := fraction
      isDecimal_whole := hw
      isDecimal_fraction := hf
      length_whole := ⟨List.length_pos_iff.mpr hwne, Nat.not_lt.mp hlimit⟩
      length_fraction := ⟨List.length_pos_iff.mpr hfne, Nat.not_lt.mp hlong⟩ }, htext⟩

/-- Every number of the type is printed as a text that it is read from, and a number out of range is
refused if it is printed at all. A text is read if it is a decimal numeral with a point, of the lengths
that are allowed, and denotes a number in range when it is counted in units. Then exactly that number is
read. -/
theorem text_exact (kind : FixedKind) :
    (∀ raw, kind.InRange raw → ∃ text, print raw = .ok text ∧ read kind text = .ok raw) ∧
      (∀ raw text, ¬ kind.InRange raw → print raw = .ok text →
        read kind text = .error (.outOfRange text kind.name)) ∧
      ∀ text,
        ((∃ raw, read kind text = .ok raw) ↔ ∃ number : Decimal, text.trim = number.text ∧
          (kind.lowest : ℚ) ≤ number.amount * 10 ^ fixedPlaces ∧
            number.amount * 10 ^ fixedPlaces ≤ kind.highest) ∧
        ∀ raw, read kind text = .ok raw → ∀ number : Decimal, text.trim = number.text →
          (raw : ℚ) = number.amount * 10 ^ fixedPlaces := by
  have hrange : ∀ number : Decimal, kind.InRange number.units ↔
      (kind.lowest : ℚ) ≤ number.amount * 10 ^ fixedPlaces ∧
        number.amount * 10 ^ fixedPlaces ≤ kind.highest := by
    intro number
    rw [number.amount_mul, Int.cast_le, Int.cast_le]
    rfl
  refine ⟨fun raw h => ⟨_, print_of_inRange h, read_write h⟩, fun raw text h hprint => ?_,
    fun text => ⟨⟨?_, ?_⟩, fun raw hread number htext => ?_⟩⟩
  · obtain ⟨hones, rfl⟩ := print_eq_ok_iff.mp hprint
    rw [read_write_eq kind hones, if_neg h]
  · rintro ⟨raw, hread⟩
    obtain ⟨number, htext⟩ := exists_decimal_of_read hread
    rw [read_eq kind htext] at hread
    split_ifs at hread with h
    exact ⟨number, htext, (hrange number).mp h⟩
  · rintro ⟨number, htext, h⟩
    exact ⟨number.units, by rw [read_eq kind htext, if_pos ((hrange number).mpr h)]⟩
  · rw [read_eq kind htext] at hread
    split_ifs at hread
    rw [number.amount_mul, Except.ok.inj hread]

/-- One and a half below zero, printed, refused where there is no sign, and read from digits of two
scripts between blanks. -/
theorem text_exact_of_two_scripts :
    (FixedKind.fix64.InRange (-150000000) ∧ ∃ text, print (-150000000) = .ok text ∧
        read .fix64 text = .ok (-150000000)) ∧
      (¬ FixedKind.ufix64.InRange (-150000000) ∧ print (-150000000) = .ok "-1.50000000" ∧
        read .ufix64 "-1.50000000" = .error (.outOfRange "-1.50000000" "UFix64")) ∧
      ∃ number : Decimal, Text.trim " -\u0661.\u06f5\t" = number.text ∧ number.amount = -3 / 2 ∧
        read .fix64 " -\u0661.\u06f5\t" = .ok (-150000000) := by
  have hin : FixedKind.fix64.InRange (-150000000) := by decide
  have hout : ¬ FixedKind.ufix64.InRange (-150000000) := by decide
  have hprint : print (-150000000) = .ok "-1.50000000" :=
    print_eq_ok_iff.mpr ⟨isShort_ones hin, by decide +kernel⟩
  let number : Decimal := {
    negative := true
    whole := "\u0661"
    fraction := "\u06f5"
    isDecimal_whole := by decide
    isDecimal_fraction := by decide
    length_whole := by decide
    length_fraction := by decide }
  have hamount : number.amount = -3 / 2 := by
    have hwhole : Numeral.digitValues number.whole = [1] := by decide
    have hfraction : Numeral.digitValues number.fraction = [5] := by decide
    rw [Decimal.amount, hwhole, hfraction]
    norm_num [number, Nat.ofDigits]
  have htrim : Text.trim " -\u0661.\u06f5\t" = number.text := by decide
  obtain ⟨hprinted, hrefused, hread⟩ := text_exact .fix64
  obtain ⟨hiff, hexact⟩ := hread " -\u0661.\u06f5\t"
  obtain ⟨raw, hraw⟩ := hiff.mpr ⟨number, htrim, by
    rw [hamount]
    norm_num [FixedKind.lowest, FixedKind.highest, fixedPlaces]⟩
  have hunits : raw = -150000000 := by
    have := hexact raw hraw number htrim
    rw [hamount] at this
    norm_num [fixedPlaces] at this
    exact_mod_cast this
  exact ⟨⟨hin, hprinted _ hin⟩, ⟨hout, hprint, (text_exact .ufix64).2.1 _ _ hout hprint⟩,
    number, htrim, hamount, hunits ▸ hraw⟩

end FixedPoint

end ContractKit
