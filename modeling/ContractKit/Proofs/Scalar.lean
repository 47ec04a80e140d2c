import ContractKit.Proofs.Numeral

/-!
# Canonical addresses, integers and fixed points

What the readers of scalars return is canonical: sixteen lower-case hexadecimal digits
(`Address.IsCanonical`), a number in the range of its type. Canonical scalars are written and read
back as they are (`Address.normalize_prefixed`, `FixedPoint.read_write`). The texts of addresses are
those that hold one to sixteen digits (`Address.normalize_eq_ok_iff`). Only the two integer types
without a width hold numbers that are too long to be written (`IntegerKind.isUnbounded_of_not_isShort`).
-/

namespace ContractKit

/-! ## Addresses -/

namespace Address

/-- The digits of an address as they are kept: sixteen of them, in lower case. -/
def IsCanonical (digits : Text) : Prop :=
  digits.length = width ∧ ∀ c ∈ digits, isDigit c = true

theorem IsCanonical.isAscii {digits : Text} (h : IsCanonical digits) : digits.IsAscii := by
  intro c hc
  rcases CodePoint.isAddressDigit_iff.mp (h.2 c hc) with h | h <;> omega

theorem IsCanonical.ne_nil {digits : Text} (h : IsCanonical digits) : digits ≠ [] := by
  rintro rfl
  exact absurd h.1 (by decide)

/-- One to sixteen hexadecimal digits of either case. -/
def IsDigits (digits : Text) : Prop :=
  digits ≠ [] ∧ digits.length ≤ width ∧ ∀ c ∈ digits, Numeral.isHexDigit c = true

instance (digits : Text) : Decidable (IsDigits digits) := by
  unfold IsDigits
  infer_instance

/-- The digits as they are kept: in lower case, filled with zeros up to sixteen. -/
def fill (digits : Text) : Text :=
  Text.padLeft '0' width digits.lower

/-- What may stand in front of the digits. -/
def prefixes : List Text := [[], "0x", "0X"]

/-- The text holds the digits, with blanks around them and perhaps a prefix. -/
def Holds (text digits : Text) : Prop :=
  ∃ start ∈ prefixes, text.trim = start ++ digits

section

variable {digits : Text} (hdigits : ∀ c ∈ digits, Numeral.isHexDigit c = true)
include hdigits

theorem lower_eq_flatMap : digits.lower = digits.flatMap CodePoint.lower :=
  Text.lowerAfter_of_not_mem fun hsigma => absurd (hdigits _ hsigma) (by decide)

/-- Lowering keeps the number of digits and their values. -/
theorem lower_digits : digits.lower.length = digits.length ∧
    (∀ c ∈ digits.lower, isDigit c = true) ∧
    digits.lower.filterMap Numeral.hexValue? = digits.filterMap Numeral.hexValue? := by
  rw [lower_eq_flatMap hdigits]
  induction digits with
  | nil => exact ⟨rfl, nofun, rfl⟩
  | cons c digits ih =>
    obtain ⟨hlength, hall, hvalues⟩ := ih fun d hd => hdigits d (List.mem_cons_of_mem c hd)
    obtain ⟨d, hd, hdigit, hvalue⟩ := CodePoint.lower_of_isHexDigit (hdigits c List.mem_cons_self)
    rw [List.flatMap_cons, hd, List.singleton_append]
    refine ⟨by simp [hlength], List.forall_mem_cons.mpr ⟨hdigit, hall⟩, ?_⟩
    rw [List.filterMap_cons, List.filterMap_cons, hvalue, hvalues]

/-- Digits are held by what they make with a prefix. -/
theorem holds_append {start : Text} (hstart : start ∈ prefixes) : Holds (start ++ digits) digits := by
  have hblank : ∀ start ∈ prefixes, ∀ c ∈ start, c.isBlank = false := by decide
  refine ⟨start, hstart, Text.trim_of_forall (List.forall_mem_append.mpr ⟨hblank start hstart, ?_⟩)⟩
  exact fun c hc => CodePoint.isBlank_of_isHexDigit (hdigits c hc)

theorem bare_of_holds {text : Text} (h : Holds text digits) : bare text = digits.lower := by
  obtain ⟨-, hall, -⟩ := lower_digits hdigits
  have hx : ('x' : CodePoint) ∉ digits.lower := fun hx => absurd (hall _ hx) (by decide)
  obtain ⟨start, hstart, htrim⟩ := h
  have hsigma : ('Σ' : CodePoint) ∉ start ++ digits := by
    have hstart' : ∀ start ∈ prefixes, ('Σ' : CodePoint) ∉ start := by decide
    rw [List.mem_append, not_or]
    exact ⟨hstart' start hstart, fun hmem => absurd (hdigits _ hmem) (by decide)⟩
  have hlower : text.trim.lower = start.flatMap CodePoint.lower ++ digits.lower := by
    rw [htrim, Text.lower, Text.lowerAfter_of_not_mem hsigma, List.flatMap_append,
      lower_eq_flatMap hdigits]
  have hsmall : ∀ start ∈ prefixes,
      start.flatMap CodePoint.lower = [] ∨ start.flatMap CodePoint.lower = "0x" := by
    decide +kernel
  rw [bare, hlower]
  rcases hsmall start hstart with h | h
  · rw [h, List.nil_append, Text.dropStart?_eq_none (c := 'x') (by decide) hx]
    rfl
  · rw [h, Text.dropStart?_append]
    rfl

/-- Of the texts that hold digits, those are addresses that hold neither none nor too many. -/
theorem normalize_of_holds {text : Text} (h : Holds text digits) {found : Text} :
    normalize text = .ok found ↔ IsDigits digits ∧ found = fill digits := by
  obtain ⟨hlength, hall, -⟩ := lower_digits hdigits
  have hnil : digits.lower = [] ↔ digits = [] := by
    rw [← List.length_eq_zero_iff, hlength, List.length_eq_zero_iff]
  simp only [normalize, bare_of_holds hdigits h, hnil, hlength, List.all_eq_true.mpr hall,
    not_true_eq_false, or_false]
  split_ifs with hbad
  · refine iff_of_false nofun ?_
    rintro ⟨⟨hne, hle, -⟩, -⟩
    exact hbad.elim hne (Nat.not_lt.mpr hle)
  · rw [not_or, Nat.not_lt] at hbad
    rw [Except.ok.injEq]
    exact ⟨fun h => ⟨⟨hbad.1, hbad.2, hdigits⟩, h.symm⟩, fun h => h.2.symm⟩

end

/-- A text whose lowered form is one of digits, with `0x` before them or not, holds digits. -/
theorem exists_holds_of_bare {text : Text} (hall : ∀ c ∈ bare text, isDigit c = true) :
    ∃ digits, Holds text digits ∧ ∀ c ∈ digits, Numeral.isHexDigit c = true := by
  have hdigits : ∀ {before t : Text}, (∀ c ∈ Text.lowerAfter before t, isDigit c = true) →
      ∀ c ∈ t, Numeral.isHexDigit c = true := by
    intro before t ht c hc
    have hlow : ∀ d ∈ Text.lowerAfter before t, d.val < 0x80 := by
      intro d hd
      rcases CodePoint.isAddressDigit_iff.mp (ht d hd) with h | h <;> omega
    rw [Text.lowerAfter_of_not_mem (Text.not_mem_of_lowerAfter hlow)] at ht
    obtain ⟨d, hd⟩ := List.exists_mem_of_ne_nil _ (CodePoint.lower_ne_nil c)
    exact CodePoint.isHexDigit_of_mem_lower hd (ht d (List.mem_flatMap.mpr ⟨c, hc, hd⟩))
  unfold bare at hall
  simp only at hall
  cases hdrop : Text.dropStart? "0x" text.trim.lower with
  | none =>
    rw [hdrop] at hall
    exact ⟨text.trim, ⟨[], by decide, rfl⟩, hdigits hall⟩
  | some rest =>
    rw [hdrop] at hall
    have hlower : text.trim.lower = ('0' : CodePoint) :: ('x' : CodePoint) :: rest :=
      Text.dropStart?_eq_some_iff.mp hdrop
    obtain ⟨zero, t, htrim, hzero, ht⟩ := Text.exists_cons_of_lowerAfter (.inl (by decide)) hlower
    obtain ⟨x, digits, rfl, hx, rfl⟩ := Text.exists_cons_of_lowerAfter (.inr (by decide)) ht
    refine ⟨digits, ⟨[zero, x], ?_, htrim⟩, hdigits hall⟩
    obtain ⟨rfl, -⟩ := CodePoint.eq_of_mem_lower hzero (by decide)
    rcases (CodePoint.lower_eq_of_mem hx (.inr (by decide))).2 with ⟨rfl, -⟩ | ⟨-, -, hval⟩
    · decide
    · have hcapital : x.val = 88 := Nat.add_right_cancel hval.symm
      rw [← CodePoint.ofNat_val x, hcapital]
      decide

/-- The texts of addresses are those that hold one to sixteen digits, which are kept. -/
theorem normalize_eq_ok_iff {text found : Text} :
    normalize text = .ok found ↔ ∃ digits, IsDigits digits ∧ Holds text digits ∧ found = fill digits := by
  constructor
  · intro h
    have hall : ∀ c ∈ bare text, isDigit c = true := by
      by_contra hbad
      rw [normalize, if_pos (.inr (.inr (by rwa [List.all_eq_true])))] at h
      cases h
    obtain ⟨digits, hholds, hdigits⟩ := exists_holds_of_bare hall
    obtain ⟨hisDigits, hfound⟩ := (normalize_of_holds hdigits hholds).mp h
    exact ⟨digits, hisDigits, hholds, hfound⟩
  · rintro ⟨digits, hdigits, hholds, rfl⟩
    exact (normalize_of_holds hdigits.2.2 hholds).mpr ⟨hdigits, rfl⟩

/-! ### Canonical digits -/

theorem lower_of_forall {digits : Text} (h : ∀ c ∈ digits, isDigit c = true) : digits.lower = digits :=
  Text.lower_of_forall fun c hc => CodePoint.lower_of_isAddressDigit (h c hc)

theorem isHexDigit_of_forall {digits : Text} (h : ∀ c ∈ digits, isDigit c = true) :
    ∀ c ∈ digits, Numeral.isHexDigit c = true :=
  fun c hc => CodePoint.isHexDigit_iff.mpr (.inl (h c hc))

theorem bare_of_forall {digits : Text} (h : ∀ c ∈ digits, isDigit c = true) :
    bare digits = digits := by
  have hholds : Holds digits digits :=
    holds_append (isHexDigit_of_forall h) (show [] ∈ prefixes by decide)
  rw [bare_of_holds (isHexDigit_of_forall h) hholds, lower_of_forall h]

theorem IsCanonical.isDigits {digits : Text} (h : IsCanonical digits) : IsDigits digits :=
  ⟨h.ne_nil, h.1.le, isHexDigit_of_forall h.2⟩

theorem IsCanonical.fill_eq {digits : Text} (h : IsCanonical digits) : fill digits = digits := by
  rw [fill, lower_of_forall h.2, Text.padLeft_of_le h.1.ge]

theorem isCanonical_fill {digits : Text} (h : IsDigits digits) : IsCanonical (fill digits) := by
  obtain ⟨hlength, hall, -⟩ := lower_digits h.2.2
  refine ⟨Text.length_padLeft (hlength.trans_le h.2.1), fun c hc => ?_⟩
  rcases Text.mem_padLeft hc with rfl | hc
  · decide
  · exact hall c hc

theorem isCanonical_of_normalize {text digits : Text} (h : normalize text = .ok digits) :
    IsCanonical digits := by
  obtain ⟨held, hdigits, -, rfl⟩ := normalize_eq_ok_iff.mp h
  exact isCanonical_fill hdigits

theorem IsCanonical.normalize_append {start digits : Text} (h : IsCanonical digits)
    (hstart : start ∈ prefixes) : normalize (start ++ digits) = .ok digits :=
  normalize_eq_ok_iff.mpr
    ⟨digits, h.isDigits, holds_append h.isDigits.2.2 hstart, h.fill_eq.symm⟩

theorem normalize_of_isCanonical {digits : Text} (h : IsCanonical digits) :
    normalize digits = .ok digits :=
  h.normalize_append (show [] ∈ prefixes by decide)

theorem normalize_prefixed {digits : Text} (h : IsCanonical digits) :
    normalize (.concat ["0x", digits]) = .ok digits := by
  rw [show Text.concat ["0x", digits] = "0x" ++ digits by simp [Text.concat]]
  exact h.normalize_append (by decide)

end Address

/-! ## Integers -/

namespace IntegerKind

theorem check_of_inRange {kind : IntegerKind} {n : Int} (h : kind.InRange n) :
    kind.check n = .ok n :=
  if_pos h

theorem inRange_of_check {kind : IntegerKind} {n m : Int} (h : kind.check n = .ok m) :
    m = n ∧ kind.InRange n := by
  unfold check at h
  split_ifs at h with hr
  · exact ⟨(Except.ok.inj h).symm, hr⟩
  · split at h <;> simp at h

/-- Whether every integer is of the type, up to its sign. -/
def IsUnbounded (kind : IntegerKind) : Prop :=
  kind = .int ∨ kind = .uint

instance (kind : IntegerKind) : Decidable kind.IsUnbounded := by
  unfold IsUnbounded
  infer_instance

theorem natAbs_lt_of_inRange {kind : IntegerKind} {n : Int} (hk : ¬ kind.IsUnbounded)
    (h : kind.InRange n) : n.natAbs < 10 ^ (99 + 1) := by
  have hbound : ∀ low high : Int, low ≤ n → n ≤ high →
      (low.natAbs < 10 ^ (99 + 1) ∧ high.natAbs < 10 ^ (99 + 1)) → n.natAbs < 10 ^ (99 + 1) := by
    omega
  cases kind
  case int => exact absurd (Or.inl rfl) hk
  case uint => exact absurd (Or.inr rfl) hk
  all_goals exact hbound _ _ (h.1 _ rfl) (h.2 _ rfl) (by decide)

/-- A number too long to be written is of a type without a width. -/
theorem isUnbounded_of_not_isShort {kind : IntegerKind} {n : Int} (h : kind.InRange n)
    (hlong : ¬ Numeral.IsShort n) : kind.IsUnbounded := by
  by_contra hk
  exact hlong (Numeral.isShort_of_lt (k := 99) (by decide) (natAbs_lt_of_inRange hk h))

end IntegerKind

/-! ## Fixed points -/

namespace FixedPoint

/-- The eight digits behind the point of so many units. -/
def placeDigits (units : Nat) : List Nat :=
  List.replicate (fixedPlaces - (Numeral.digits 10 (units % fixedFactor)).length) 0 ++
    Numeral.digits 10 (units % fixedFactor)

theorem lt_of_mem_placeDigits {units d : Nat} (h : d ∈ placeDigits units) : d < 10 := by
  rcases List.mem_append.mp h with h | h
  · rw [List.eq_of_mem_replicate h]
    omega
  · exact Numeral.lt_of_mem_digits (by omega) _ d h

theorem value_placeDigits (units : Nat) :
    Numeral.value 10 (placeDigits units) = units % fixedFactor := by
  rw [placeDigits, Numeral.value_replicate_zero_append, Numeral.value_digits (by omega)]

theorem length_placeDigits (units : Nat) : (placeDigits units).length = fixedPlaces := by
  have hlt : units % fixedFactor < 10 ^ (7 + 1) := Nat.mod_lt _ (by decide)
  have hlen := Numeral.length_digits_le (by omega) hlt
  have h8 : fixedPlaces = 7 + 1 := rfl
  rw [placeDigits, List.length_append, List.length_replicate]
  omega

/-- The sign, the ones and the places of a written fixed point. -/
theorem write_eq (raw : Int) :
    write raw = (if raw < 0 then "-" else [] : Text) ++
      (Numeral.ofNat 10 (raw.natAbs / fixedFactor) ++
        ('.' : CodePoint) :: (placeDigits raw.natAbs).map Numeral.digitChar) := by
  rw [write, Numeral.ofNat, Numeral.ofNat, Numeral.map_ofNat_padLeft, ← placeDigits]
  split_ifs <;> simp [Text.concat, Text.ofString]

theorem isDecimal_digitChar {d : Nat} (h : d < 10) : (Numeral.digitChar d).isDecimal = true := by
  rw [CodePoint.isDecimal, Numeral.decimalValue?_digitChar d h]
  rfl

theorem isDecimal_of_mem {ds : List Nat} (h : ∀ d ∈ ds, d < 10) :
    ∀ c ∈ ds.map Numeral.digitChar, c.isDecimal = true := by
  intro c hc
  obtain ⟨d, hd, rfl⟩ := List.mem_map.mp hc
  exact isDecimal_digitChar (h d hd)

theorem ne_minus_of_isDecimal {c : CodePoint} (h : c.isDecimal = true) : c ≠ '-' := by
  rintro rfl
  exact absurd h (by decide)

/-- Two runs of digits with a point between them are taken apart again. -/
theorem split?_append {whole fraction : Text} (hw : ∀ c ∈ whole, c.isDecimal = true)
    (hf : ∀ c ∈ fraction, c.isDecimal = true) (hwne : whole ≠ []) (hfne : fraction ≠ [])
    (negative : Bool) :
    split? ((if negative then "-" else [] : Text) ++ (whole ++ ('.' : CodePoint) :: fraction)) =
      some (negative, whole, fraction) := by
  have hpoint : CodePoint.isDecimal '.' = false := by decide
  have htake : (whole ++ ('.' : CodePoint) :: fraction).takeWhile CodePoint.isDecimal = whole := by
    rw [List.takeWhile_append_of_pos hw, List.takeWhile_cons_of_neg (by simp [hpoint]),
      List.append_nil]
  have hdrop : (whole ++ ('.' : CodePoint) :: fraction).dropWhile CodePoint.isDecimal = ('.' : CodePoint) :: fraction := by
    rw [List.dropWhile_append_of_pos hw, List.dropWhile_cons_of_neg (by simp [hpoint])]
  have hhead : (whole ++ ('.' : CodePoint) :: fraction).head? ≠ some ('-' : CodePoint) := by
    cases whole with
    | nil => exact absurd rfl hwne
    | cons c whole => simpa using ne_minus_of_isDecimal (hw c (by simp))
  have hminus : ("-" : Text) = [('-' : CodePoint)] := rfl
  generalize whole ++ ('.' : CodePoint) :: fraction = unsigned at htake hdrop hhead
  cases negative with
  | true =>
    simp [split?, hminus, htake, hdrop, hwne, hfne]
    exact hf
  | false =>
    simp [split?, hhead, htake, hdrop, hwne, hfne]
    exact hf

/-- A written fixed point consists of digits, a point and perhaps a minus sign. -/
theorem of_mem_write {raw : Int} {c : CodePoint} (h : c ∈ write raw) :
    c.isAsciiDigit = true ∨ c = '.' ∨ c = '-' := by
  rw [write_eq] at h
  rcases List.mem_append.mp h with h | h
  · split_ifs at h
    · exact .inr (.inr (List.mem_singleton.mp h))
    · exact absurd h List.not_mem_nil
  rcases List.mem_append.mp h with h | h
  · exact .inl (Numeral.isAsciiDigit_of_mem_ofNat c h)
  rcases List.mem_cons.mp h with rfl | h
  · exact .inr (.inl rfl)
  · exact .inl (Numeral.isAsciiDigit_of_mem_map (fun _ => lt_of_mem_placeDigits) c h)

theorem isBlank_of_mem_write (raw : Int) : ∀ c ∈ write raw, c.isBlank = false := by
  intro c hc
  rcases of_mem_write hc with hc | rfl | rfl
  · exact CodePoint.isBlank_of_isAsciiDigit hc
  · decide
  · decide

theorem isAscii_write (raw : Int) : (write raw).IsAscii := by
  have hplaces : Text.IsAscii ((placeDigits raw.natAbs).map Numeral.digitChar) :=
    Numeral.isAscii_digits fun _ hd => (lt_of_mem_placeDigits hd).trans (by omega)
  rw [write_eq]
  refine .append ?_ (.append (Numeral.isAscii_ofNat _) (.append (s := ['.']) (by decide) hplaces))
  split_ifs <;> decide

theorem natAbs_lt_of_inRange {kind : FixedKind} {raw : Int} (h : kind.InRange raw) :
    raw.natAbs < 10 ^ (99 + 1) := by
  obtain ⟨hlow, hhigh⟩ := h
  cases kind <;> simp only [FixedKind.lowest, FixedKind.highest] at hlow hhigh <;> omega

/-- A text is refused only for the length of its ones. -/
theorem print_eq_ok_iff {raw : Int} {text : Text} : print raw = .ok text ↔
    Numeral.IsShort (raw.natAbs / fixedFactor : Nat) ∧ text = write raw := by
  unfold print
  split_ifs with hlong
  · exact iff_of_false nofun fun h => absurd h.1 (Nat.not_le.mpr hlong)
  · rw [Except.ok.injEq]
    exact ⟨fun h => ⟨Nat.not_lt.mp hlong, h.symm⟩, fun h => h.2.symm⟩

/-- The ones of a number of the type are never too long to be written. -/
theorem isShort_ones {kind : FixedKind} {raw : Int} (h : kind.InRange raw) :
    Numeral.IsShort (raw.natAbs / fixedFactor : Nat) :=
  Numeral.isShort_of_lt (k := 99) (by decide)
    ((Nat.div_le_self _ _).trans_lt (natAbs_lt_of_inRange h))

theorem print_of_inRange {kind : FixedKind} {raw : Int} (h : kind.InRange raw) :
    print raw = .ok (write raw) :=
  print_eq_ok_iff.mpr ⟨isShort_ones h, rfl⟩

/-- A written fixed point is read back if it is of the type. -/
theorem read_write_eq (kind : FixedKind) {raw : Int}
    (hones : Numeral.IsShort (raw.natAbs / fixedFactor : Nat)) :
    read kind (write raw) =
      if kind.InRange raw then .ok raw else .error (.outOfRange (write raw) kind.name) := by
  have hlen : ((placeDigits raw.natAbs).map Numeral.digitChar).length = fixedPlaces := by
    rw [List.length_map, length_placeDigits]
  have hplaces : Numeral.readDecimal ((placeDigits raw.natAbs).map Numeral.digitChar) =
      .ok (raw.natAbs % fixedFactor) := by
    rw [Numeral.readDecimal_map_digitChar (fun _ => lt_of_mem_placeDigits) _ _,
      value_placeDigits]
    · rw [← List.length_pos_iff, length_placeDigits]
      decide
    · rw [length_placeDigits]
      decide
  have hsplit : split? (write raw) = some (decide (raw < 0),
      Numeral.ofNat 10 (raw.natAbs / fixedFactor),
      (placeDigits raw.natAbs).map Numeral.digitChar) := by
    have hw := isDecimal_of_mem (Numeral.lt_of_mem_digits (by omega) (raw.natAbs / fixedFactor))
    have hplaces : ∀ d ∈ placeDigits raw.natAbs, d < 10 := fun _ => lt_of_mem_placeDigits
    have hf := isDecimal_of_mem hplaces
    have hwne : Numeral.ofNat 10 (raw.natAbs / fixedFactor) ≠ [] := by
      simpa [Numeral.ofNat] using Numeral.digits_ne_nil 10 _
    have hfne : (placeDigits raw.natAbs).map Numeral.digitChar ≠ [] := by
      rw [← List.length_pos_iff, hlen]
      decide
    have := split?_append hw hf hwne hfne (decide (raw < 0))
    simpa only [write_eq, Numeral.ofNat, decide_eq_true_eq] using this
  have hunits : ((raw.natAbs / fixedFactor * fixedFactor + raw.natAbs % fixedFactor : Nat) : Int) =
      raw.natAbs := by rw [Nat.div_add_mod']
  rw [read, Text.trim_of_forall (isBlank_of_mem_write raw), hsplit]
  simp only [hlen, Nat.lt_irrefl, ↓reduceIte, Text.padRight_of_le hlen.ge,
    Numeral.readDecimal_ofNat hones, hplaces, hunits, decide_eq_true_eq]
  have hraw : (if raw < 0 then -(raw.natAbs : Int) else raw.natAbs) = raw := by
    split_ifs <;> omega
  rw [hraw]

theorem read_write {kind : FixedKind} {raw : Int} (h : kind.InRange raw) :
    read kind (write raw) = .ok raw := by
  rw [read_write_eq kind (isShort_ones h), if_pos h]

theorem inRange_of_read {kind : FixedKind} {text : Text} {raw : Int}
    (h : read kind text = .ok raw) : kind.InRange raw := by
  have hchecked : ∀ {units : Int} {e : ScalarError},
      (if kind.InRange units then Except.ok units else .error e) = .ok raw → kind.InRange raw := by
    intro units e h
    split_ifs at h with hr
    exact Except.ok.inj h ▸ hr
  unfold read at h
  split at h
  · simp at h
  split at h
  · simp at h
  split at h
  · exact hchecked h
  · simp at h
  · simp at h

end FixedPoint

end ContractKit
