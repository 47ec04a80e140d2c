import Mathlib.Tactic
import Mathlib.Data.List.Forall2
import Mathlib.Data.List.Induction
import Mathlib.Data.List.TakeWhile
import ContractKit.Text.Blank
import ContractKit.Text.Lowercase
import ContractKit.Value.Scalar

/-!
# Texts that stay as they are

Trimming, lowering and dropping a start leave a text alone that has nothing to trim, to lower or to
drop. `Text.dropStart?_eq_some_iff` says what is dropped, `Text.trim_infix` that trimming only drops,
and `CodePoint.lower_eq_of_mem` that nothing but ASCII is lowered to a hexadecimal digit or an `x`.
-/

namespace ContractKit

/-! ## Code points -/

namespace CodePoint

@[simp] theorem ofChar_inj {a b : Char} : CodePoint.ofChar a = CodePoint.ofChar b ↔ a = b := by
  constructor
  · intro h
    exact Char.toNat_inj.mp (congrArg CodePoint.val h)
  · rintro rfl
    rfl

theorem ofNat_val (c : CodePoint) : CodePoint.ofNat c.val = c := by
  rw [CodePoint.ofNat, dif_pos c.val_lt]

theorem val_ofNat {n : Nat} (h : n < 0x110000) : (CodePoint.ofNat n).val = n := by
  rw [CodePoint.ofNat, dif_pos h]

theorem val_ofNat_eq {n : Nat} : (CodePoint.ofNat n).val = n ∨ (CodePoint.ofNat n).val = 0xfffd := by
  unfold CodePoint.ofNat
  split_ifs
  · exact Or.inl rfl
  · exact Or.inr rfl

theorem isHighSurrogate_iff {c : CodePoint} :
    c.isHighSurrogate = true ↔ 0xd800 ≤ c.val ∧ c.val < 0xdc00 := by
  simp [isHighSurrogate]

theorem isLowSurrogate_iff {c : CodePoint} :
    c.isLowSurrogate = true ↔ 0xdc00 ≤ c.val ∧ c.val < 0xe000 := by
  simp [isLowSurrogate]

theorem isSurrogate_eq_false_iff {c : CodePoint} :
    c.isSurrogate = false ↔ c.val < 0xd800 ∨ 0xe000 ≤ c.val := by
  simp only [isSurrogate, Bool.and_eq_false_iff, decide_eq_false_iff_not, Nat.not_le, Nat.not_lt]

theorem between_iff {c lo hi : CodePoint} :
    c.between lo hi = true ↔ lo.val ≤ c.val ∧ c.val ≤ hi.val := by
  simp [between]

/-- A property of the numbers from `lo` to `hi` holds of the code points between them. -/
theorem of_between {P : CodePoint → Prop} {lo hi : Nat}
    (h : ∀ n, n < hi + 1 → lo ≤ n → P (.ofNat n)) {c : CodePoint} (hlo : lo ≤ c.val)
    (hhi : c.val ≤ hi) : P c := by
  have := h c.val (by omega) hlo
  rwa [ofNat_val] at this

theorem isAddressDigit_iff {c : CodePoint} :
    Address.isDigit c = true ↔ (48 ≤ c.val ∧ c.val ≤ 57) ∨ (97 ≤ c.val ∧ c.val ≤ 102) := by
  simp only [Address.isDigit, Bool.or_eq_true, between_iff]
  exact Iff.rfl

/-- What holds of the sixteen lower-case hexadecimal digits. -/
theorem of_isAddressDigit {P : CodePoint → Prop}
    (hdigit : ∀ n, n < 57 + 1 → 48 ≤ n → P (.ofNat n))
    (hletter : ∀ n, n < 102 + 1 → 97 ≤ n → P (.ofNat n)) {c : CodePoint}
    (hc : Address.isDigit c = true) : P c := by
  rcases isAddressDigit_iff.mp hc with ⟨h1, h2⟩ | ⟨h1, h2⟩
  · exact of_between hdigit h1 h2
  · exact of_between hletter h1 h2

theorem isBlank_of_isAddressDigit {c : CodePoint} (hc : Address.isDigit c = true) :
    c.isBlank = false :=
  of_isAddressDigit (P := fun c => c.isBlank = false) (by decide) (by decide) hc

theorem lower_of_isAddressDigit {c : CodePoint} (hc : Address.isDigit c = true) :
    c.lower = [c] :=
  of_isAddressDigit (P := fun c => c.lower = [c]) (by decide +kernel) (by decide +kernel) hc

/-- What holds of the blanks. -/
theorem of_isBlank {P : CodePoint → Prop}
    (h : ∀ range ∈ blankRanges, ∀ n < range.2 + 1 - range.1, P (.ofNat (range.1 + n)))
    {c : CodePoint} (hc : c.isBlank = true) : P c := by
  obtain ⟨range, hrange, hc⟩ := List.any_eq_true.mp hc
  simp only [Bool.and_eq_true, decide_eq_true_eq] at hc
  have := h range hrange (c.val - range.1) (by omega)
  rwa [Nat.add_sub_of_le hc.1, ofNat_val] at this

theorem isBlank_of_isAsciiBlank {c : CodePoint} (hc : c.isAsciiBlank = true) :
    c.isBlank = true := by
  simp only [isAsciiBlank, Bool.or_eq_true, Bool.and_eq_true, decide_eq_true_eq] at hc
  rcases hc with hc | hc
  · exact List.any_eq_true.mpr ⟨(0x1c, 0x20), by decide, by simp [hc]⟩
  · exact List.any_eq_true.mpr ⟨(0x9, 0xd), by decide, by simp [hc]⟩

theorem isAsciiDigit_iff {c : CodePoint} : c.isAsciiDigit = true ↔ 48 ≤ c.val ∧ c.val ≤ 57 :=
  between_iff

theorem isBlank_of_isAsciiDigit {c : CodePoint} (hc : c.isAsciiDigit = true) : c.isBlank = false :=
  isBlank_of_isAddressDigit (isAddressDigit_iff.mpr (.inl (isAsciiDigit_iff.mp hc)))

theorem isHexDigit_iff {c : CodePoint} : Numeral.isHexDigit c = true ↔
    Address.isDigit c = true ∨ (65 ≤ c.val ∧ c.val ≤ 70) := by
  have hupper : ∀ c : CodePoint, c.between 'A' 'F' = true ↔ 65 ≤ c.val ∧ c.val ≤ 70 :=
    fun c => between_iff
  simp only [Numeral.isHexDigit, Numeral.hexValue?, Address.isDigit, Bool.or_eq_true]
  split_ifs with h1 h2 h3
  · simp [h1]
  · simp [h2]
  · simpa [h1, h2] using (hupper c).mp h3
  · simpa [h1, h2] using fun h h' => h3 ((hupper c).mpr ⟨h, h'⟩)

/-- What holds of the hexadecimal digits of either case. -/
theorem of_isHexDigit {P : CodePoint → Prop} (hdigit : ∀ n, n < 57 + 1 → 48 ≤ n → P (.ofNat n))
    (hletter : ∀ n, n < 102 + 1 → 97 ≤ n → P (.ofNat n))
    (hcapital : ∀ n, n < 70 + 1 → 65 ≤ n → P (.ofNat n)) {c : CodePoint}
    (hc : Numeral.isHexDigit c = true) : P c := by
  rcases isHexDigit_iff.mp hc with h | ⟨hlo, hhi⟩
  · exact of_isAddressDigit hdigit hletter h
  · exact of_between hcapital hlo hhi

theorem isBlank_of_isHexDigit {c : CodePoint} (hc : Numeral.isHexDigit c = true) :
    c.isBlank = false :=
  of_isHexDigit (P := fun c => c.isBlank = false) (by decide) (by decide) (by decide) hc

/-- A hexadecimal digit is lowered to a single digit of the same value. -/
theorem lower_of_isHexDigit {c : CodePoint} (hc : Numeral.isHexDigit c = true) :
    ∃ d, c.lower = [d] ∧ Address.isDigit d = true ∧ Numeral.hexValue? d = Numeral.hexValue? c := by
  obtain ⟨hlength, hall⟩ := of_isHexDigit (P := fun c => c.lower.length = 1 ∧
    ∀ d ∈ c.lower, Address.isDigit d = true ∧ Numeral.hexValue? d = Numeral.hexValue? c)
    (by decide +kernel) (by decide +kernel) (by decide +kernel) hc
  obtain ⟨d, hd⟩ := List.length_eq_one_iff.mp hlength
  exact ⟨d, hd, hall d (by simp [hd])⟩

/-- The capitals outside ASCII have no `x` and no hexadecimal digit for a small letter. -/
theorem lower_past_digits : ∀ run ∈ capitalRuns,
    (0x41 ≤ run.first ∧ run.last ≤ 0x5a ∧ run.shift = 32) ∨
    (0x66 < run.first + run.shift ∧ run.last + run.shift < 0x78) ∨
    0x78 < run.first + run.shift := by
  decide +kernel

/-- What lowering leaves up to `f`, or as an `x`, is the small letter of an ASCII capital, or it was
there before and is no ASCII capital. -/
theorem lower_eq_of_mem {c d : CodePoint} (hd : d ∈ c.lower) (hlow : d.val ≤ 0x66 ∨ d.val = 0x78) :
    c.lower = [d] ∧ (d = c ∧ (d.val < 0x41 ∨ 0x5a < d.val) ∨
      0x41 ≤ c.val ∧ c.val ≤ 0x5a ∧ d.val = c.val + 32) := by
  unfold lower at hd ⊢
  split_ifs at hd ⊢ with h130
  · simp only [List.mem_cons, List.not_mem_nil, or_false] at hd
    rcases hd with rfl | rfl
    · exact absurd hlow (by decide)
    · exact absurd hlow (by decide)
  · split at hd
    · next run hrun =>
      have hpast := lower_past_digits run (List.mem_of_find?_eq_some hrun)
      have hcontains := List.find?_some hrun
      simp only [CapitalRun.contains, Bool.and_eq_true, decide_eq_true_eq] at hcontains
      obtain rfl := List.mem_singleton.mp hd
      have hval : (ofNat (c.val + run.shift).toNat).val = (c.val + run.shift).toNat :=
        val_ofNat_eq.resolve_right (by omega)
      exact ⟨rfl, .inr (by omega)⟩
    · next hnone =>
      obtain rfl := List.mem_singleton.mp hd
      have := List.find?_eq_none.mp hnone ⟨0x41, 0x5a, 1, 32⟩ (List.Mem.head _)
      simp only [CapitalRun.contains, Nat.mod_one, beq_self_eq_true, Bool.and_true,
        Bool.and_eq_true, decide_eq_true_eq] at this
      exact ⟨rfl, .inl ⟨rfl, by omega⟩⟩

/-- What lowering leaves up to `Z` was there before and is no capital. -/
theorem eq_of_mem_lower {c d : CodePoint} (hd : d ∈ c.lower) (hlow : d.val ≤ 0x5a) :
    d = c ∧ d.val < 0x41 := by
  rcases (lower_eq_of_mem hd (.inl (by omega))).2 with ⟨rfl, hletter⟩ | hcapital
  · exact ⟨rfl, by omega⟩
  · omega

theorem isHexDigit_of_mem_lower {c d : CodePoint} (hd : d ∈ c.lower)
    (hdigit : Address.isDigit d = true) : Numeral.isHexDigit c = true := by
  rw [isAddressDigit_iff] at hdigit
  rw [isHexDigit_iff, isAddressDigit_iff]
  rcases (lower_eq_of_mem hd (by omega)).2 with ⟨rfl, -⟩ | hcapital
  · exact .inl hdigit
  · omega

theorem isAddressDigit_of_mem_lower {c d : CodePoint} (hd : d ∈ c.lower)
    (hhex : Numeral.isHexDigit d = true) : Address.isDigit d = true := by
  rcases isHexDigit_iff.mp hhex with h | ⟨hlo, hhi⟩
  · exact h
  · have := (eq_of_mem_lower hd (by omega)).2
    omega

theorem lower_ne_nil (c : CodePoint) : c.lower ≠ [] := by
  unfold lower
  split_ifs
  · simp
  · split <;> simp

/-- A blank of ASCII that lowering leaves was there before. -/
theorem isBlank_of_mem_lower {c d : CodePoint} (hd : d ∈ c.lower) (hblank : d.isBlank = true)
    (hascii : d.val < 0x80) : c.isBlank = true := by
  have hlow : d.val ≤ 0x5a := by
    simp only [isBlank, inRanges, blankRanges, List.any_cons, List.any_nil, Bool.or_false,
      Bool.or_eq_true, Bool.and_eq_true, decide_eq_true_eq] at hblank
    omega
  exact (eq_of_mem_lower hd hlow).1 ▸ hblank

end CodePoint

/-! ## Texts -/

namespace Text

/-- All characters of the text are ASCII. -/
def IsAscii (t : Text) : Prop :=
  ∀ c ∈ t, c.val < 0x80

instance (t : Text) : Decidable (IsAscii t) := by
  unfold IsAscii
  infer_instance

theorem IsAscii.append {s t : Text} (hs : IsAscii s) (ht : IsAscii t) : IsAscii (s ++ t) :=
  fun c hc => (List.mem_append.mp hc).elim (hs c) (ht c)

theorem isAscii_concat {pieces : List Text} (h : ∀ piece ∈ pieces, IsAscii piece) :
    IsAscii (Text.concat pieces) := by
  intro c hc
  obtain ⟨piece, hpiece, hc⟩ := List.mem_flatten.mp hc
  exact h piece hpiece c hc

theorem isAscii_ite {p : Prop} [Decidable p] {s t : Text} (hs : IsAscii s) (ht : IsAscii t) :
    IsAscii (if p then s else t) := by
  split_ifs
  · exact hs
  · exact ht

theorem dropStart?_eq_some_iff {start t rest : Text} :
    dropStart? start t = some rest ↔ t = start ++ rest := by
  unfold dropStart?
  constructor
  · intro h
    split_ifs at h with hp
    · obtain ⟨tail, rfl⟩ := List.isPrefixOf_iff_prefix.mp hp
      simpa using h
  · rintro rfl
    rw [if_pos (List.isPrefixOf_iff_prefix.mpr (List.prefix_append _ _)), List.drop_left]

theorem dropStart?_append (start rest : Text) : dropStart? start (start ++ rest) = some rest :=
  dropStart?_eq_some_iff.mpr rfl

theorem dropStart?_eq_none_of_head {start t : Text} {c : CodePoint} (h : t.head? = some c)
    (hstart : start.head? ≠ some c) (hne : start ≠ []) : dropStart? start t = none := by
  rw [Option.eq_none_iff_forall_not_mem]
  intro rest hrest
  rw [dropStart?_eq_some_iff.mp hrest, List.head?_append_of_ne_nil _ hne] at h
  exact hstart h

theorem contains_iff {t part : Text} : contains t part = true ↔ part <:+: t := by
  induction t with
  | nil => rw [contains, List.isEmpty_iff, List.infix_nil]
  | cons c t ih =>
    rw [contains, Bool.or_eq_true, List.isPrefixOf_iff_prefix, ih, List.infix_cons_iff]

/-- Nothing is dropped from a text that lacks a code point of the start. -/
theorem dropStart?_eq_none {start t : Text} {c : CodePoint} (hc : c ∈ start) (ht : c ∉ t) :
    dropStart? start t = none := by
  rw [Option.eq_none_iff_forall_not_mem]
  intro rest h
  rw [dropStart?_eq_some_iff.mp h] at ht
  exact ht (List.mem_append_left _ hc)

theorem head_dropWhile {p : CodePoint → Bool} (s : Text) :
    ∀ c ∈ (s.dropWhile p).head?, p c = false := by
  intro c hc
  have := List.head?_dropWhile_not p s
  simpa [Option.mem_def.mp hc] using this

theorem trimLeft_of_head? {t : Text} (h : ∀ c ∈ t.head?, c.isBlank = false) : t.trimLeft = t := by
  cases t with
  | nil => rfl
  | cons c t => simp [trimLeft, h c rfl]

theorem trimRight_append {t blanks : Text} (hlast : ∀ c ∈ t.getLast?, c.isBlank = false)
    (hblanks : ∀ c ∈ blanks, c.isBlank = true) : trimRight (t ++ blanks) = t := by
  have hreverse : trimLeft t.reverse = t.reverse :=
    trimLeft_of_head? fun c hc => hlast c (by rwa [List.head?_reverse] at hc)
  rw [trimLeft] at hreverse
  rw [trimRight, List.reverse_append,
    List.dropWhile_append_of_pos fun c hc => hblanks c (List.mem_reverse.mp hc), hreverse,
    List.reverse_reverse]

/-- A text that ends in no blank is trimmed in front only. -/
theorem trim_eq_trimLeft {t : Text} (hlast : ∀ c ∈ t.getLast?, c.isBlank = false) :
    t.trim = t.trimLeft := by
  have hleft : ∀ c ∈ t.trimLeft.getLast?, c.isBlank = false := by
    intro c hc
    have hne : t.trimLeft ≠ [] := fun hnil => by simp [hnil] at hc
    obtain ⟨blanks, hblanks⟩ : t.trimLeft <:+ t := List.dropWhile_suffix _
    refine hlast c ?_
    rwa [← hblanks, List.getLast?_append_of_ne_nil _ hne]
  have hright : trimRight (t.trimLeft ++ []) = t.trimLeft := trimRight_append hleft nofun
  rwa [List.append_nil] at hright

/-- Nothing is trimmed from a text without blanks at its ends. -/
theorem trim_of_ends {t : Text} (hhead : ∀ c ∈ t.head?, c.isBlank = false)
    (hlast : ∀ c ∈ t.getLast?, c.isBlank = false) : t.trim = t := by
  rw [trim_eq_trimLeft hlast, trimLeft_of_head? hhead]

theorem trim_of_forall {t : Text} (h : ∀ c ∈ t, c.isBlank = false) : t.trim = t :=
  trim_of_ends (fun c hc => h c (List.mem_of_mem_head? hc))
    fun c hc => h c (List.mem_of_mem_getLast? hc)

theorem prefix_trim (t : Text) : t.trim <+: t.trimLeft := by
  rw [trim, trimRight, ← List.reverse_suffix, List.reverse_reverse]
  exact List.dropWhile_suffix _

theorem isBlank_head?_trim (t : Text) : ∀ c ∈ t.trim.head?, c.isBlank = false := by
  intro c hc
  obtain ⟨rest, hrest⟩ := prefix_trim t
  refine head_dropWhile t c ?_
  rw [trimLeft] at hrest
  rw [← hrest, List.head?_append, Option.mem_def.mp hc]
  rfl

theorem isBlank_getLast?_trim (t : Text) : ∀ c ∈ t.trim.getLast?, c.isBlank = false := by
  intro c hc
  rw [trim, trimRight, List.getLast?_reverse] at hc
  exact head_dropWhile _ c hc

theorem exists_trimRight (t : Text) :
    ∃ blanks, t = trimRight t ++ blanks ∧ ∀ c ∈ blanks, c.isBlank = true := by
  refine ⟨(t.reverse.takeWhile CodePoint.isBlank).reverse, ?_, fun c hc => ?_⟩
  · rw [trimRight, ← List.reverse_append, List.takeWhile_append_dropWhile, List.reverse_reverse]
  · exact List.mem_takeWhile_imp (List.mem_reverse.mp hc)

/-- A text is trimmed to what stands between its blanks. -/
theorem trim_eq_iff {t inside : Text} (hlast : ∀ c ∈ inside.getLast?, c.isBlank = false) :
    t.trim = inside ↔
      ∃ blanks, t.trimLeft = inside ++ blanks ∧ ∀ c ∈ blanks, c.isBlank = true := by
  constructor
  · rintro rfl
    exact exists_trimRight t.trimLeft
  · rintro ⟨blanks, heq, hblanks⟩
    rw [trim, heq, trimRight_append hlast hblanks]

theorem trim_infix (t : Text) : t.trim <:+: t := by
  have hleft : t.trimLeft <:+ t := List.dropWhile_suffix _
  exact (prefix_trim t).isInfix.trans hleft.isInfix

/-! ### Lowering -/

section

variable {before rest t : Text} {c d : CodePoint}

theorem lowerBetween_of_ne (h : c ≠ 'Σ') : lowerBetween before c rest = c.lower :=
  if_neg fun hsigma => h hsigma.1

/-- A sigma is lowered to nothing of ASCII, wherever it stands. -/
theorem lowerBetween_of_mem (hlow : d.val < 0x80) (h : d ∈ lowerBetween before c rest) :
    lowerBetween before c rest = c.lower := by
  unfold lowerBetween at h ⊢
  split_ifs at h ⊢
  · rw [List.mem_singleton.mp h] at hlow
    exact absurd hlow (by decide)
  · rfl

theorem lowerBetween_ne_nil : lowerBetween before c rest ≠ [] := by
  unfold lowerBetween
  split_ifs
  · exact List.cons_ne_nil _ _
  · exact CodePoint.lower_ne_nil c

/-- Without a capital sigma a text is lowered code point by code point. -/
theorem lowerAfter_of_not_mem (h : ('Σ' : CodePoint) ∉ t) :
    lowerAfter before t = t.flatMap CodePoint.lower := by
  induction t generalizing before with
  | nil => rfl
  | cons c t ih =>
    obtain ⟨hc, ht⟩ := List.ne_and_not_mem_of_not_mem_cons h
    rw [lowerAfter, lowerBetween_of_ne hc.symm, ih ht, List.flatMap_cons]

/-- What is lowered to ASCII has no capital sigma. -/
theorem not_mem_of_lowerAfter (h : ∀ d ∈ lowerAfter before t, d.val < 0x80) :
    ('Σ' : CodePoint) ∉ t := by
  induction t generalizing before with
  | nil => exact List.not_mem_nil
  | cons c t ih =>
    rw [lowerAfter, List.forall_mem_append] at h
    obtain ⟨d, hd⟩ : ∃ d, d ∈ lowerBetween before c t :=
      List.exists_mem_of_ne_nil _ lowerBetween_ne_nil
    have hsame := lowerBetween_of_mem (h.1 d hd) hd
    refine List.not_mem_cons_of_ne_of_not_mem ?_ (ih h.2)
    rintro rfl
    rw [hsame] at h
    exact absurd h.1 (by decide +kernel)

theorem lower_of_forall (h : ∀ c ∈ t, c.lower = [c]) : t.lower = t := by
  have hsigma : ('Σ' : CodePoint) ∉ t := fun hmem => absurd (h _ hmem) (by decide +kernel)
  rw [lower, lowerAfter_of_not_mem hsigma, List.flatMap_congr h, List.flatMap_singleton']

/-- A code point of ASCII in a lowered text comes from one that is lowered to it. -/
theorem exists_of_mem_lowerAfter (hlow : d.val < 0x80) (h : d ∈ lowerAfter before t) :
    ∃ c ∈ t, d ∈ c.lower := by
  induction t generalizing before with
  | nil => cases h
  | cons c t ih =>
    rcases List.mem_append.mp h with h | h
    · exact ⟨c, List.mem_cons_self, lowerBetween_of_mem hlow h ▸ h⟩
    · obtain ⟨b, hb, hd⟩ := ih h
      exact ⟨b, List.mem_cons_of_mem c hb, hd⟩

theorem head?_lowerAfter (hlow : d.val < 0x80) (h : d ∈ (lowerAfter before t).head?) :
    ∃ c ∈ t.head?, d ∈ c.lower := by
  cases t with
  | nil => cases h
  | cons c t =>
    rw [lowerAfter, List.head?_append_of_ne_nil _ lowerBetween_ne_nil] at h
    have hd := List.mem_of_mem_head? h
    exact ⟨c, rfl, lowerBetween_of_mem hlow hd ▸ hd⟩

/-- The first code point of a lowered text, if it is one that only ASCII gives, comes from a single
one. -/
theorem exists_cons_of_lowerAfter {s : Text} (hlow : d.val ≤ 0x66 ∨ d.val = 0x78)
    (h : lowerAfter before t = d :: s) : ∃ (c : CodePoint) (rest : Text),
      t = c :: rest ∧ d ∈ c.lower ∧ lowerAfter (c :: before) rest = s := by
  cases t with
  | nil => cases h
  | cons c t =>
    have hascii : d.val < 0x80 := by omega
    rw [lowerAfter] at h
    have hd : d ∈ lowerBetween before c t := by
      have hhead : (lowerBetween before c t ++ lowerAfter (c :: before) t).head? =
          (lowerBetween before c t).head? := List.head?_append_of_ne_nil _ lowerBetween_ne_nil
      rw [h] at hhead
      exact List.mem_of_mem_head? hhead.symm
    have hsame := lowerBetween_of_mem hascii hd
    rw [hsame] at h hd
    rw [(CodePoint.lower_eq_of_mem hd hlow).1] at h
    exact ⟨c, t, rfl, hd, (List.cons.inj h).2⟩

theorem getLast?_lowerAfter (hlow : d.val < 0x80) (h : d ∈ (lowerAfter before t).getLast?) :
    ∃ c ∈ t.getLast?, d ∈ c.lower := by
  induction t generalizing before with
  | nil => cases h
  | cons c t ih =>
    cases t with
    | nil =>
      rw [lowerAfter, lowerAfter, List.append_nil] at h
      have hd := List.mem_of_mem_getLast? h
      exact ⟨c, rfl, lowerBetween_of_mem hlow hd ▸ hd⟩
    | cons b t =>
      have hne : lowerAfter (c :: before) (b :: t) ≠ [] := by simp [lowerAfter, lowerBetween_ne_nil]
      rw [lowerAfter, List.getLast?_append_of_ne_nil _ hne] at h
      rw [List.getLast?_cons_cons]
      exact ih h

end

theorem takeWhile_run {p : CodePoint → Bool} {run rest : Text} (hrun : ∀ c ∈ run, p c = true)
    (hrest : ∀ c ∈ rest.head?, p c = false) : (run ++ rest).takeWhile p = run := by
  rw [List.takeWhile_append_of_pos hrun]
  cases rest with
  | nil => simp
  | cons c rest => simp [hrest c rfl]

theorem dropWhile_run {p : CodePoint → Bool} {run rest : Text} (hrun : ∀ c ∈ run, p c = true)
    (hrest : ∀ c ∈ rest.head?, p c = false) : (run ++ rest).dropWhile p = rest := by
  rw [List.dropWhile_append_of_pos hrun]
  cases rest with
  | nil => simp
  | cons c rest => simp [hrest c rfl]

theorem padLeft_of_le {fill : CodePoint} {width : Nat} {t : Text} (h : width ≤ t.length) :
    padLeft fill width t = t := by
  rw [padLeft, Nat.sub_eq_zero_of_le h]
  rfl

theorem padRight_of_le {fill : CodePoint} {width : Nat} {t : Text} (h : width ≤ t.length) :
    padRight fill width t = t := by
  rw [padRight, Nat.sub_eq_zero_of_le h]
  exact List.append_nil t

theorem length_padLeft {fill : CodePoint} {width : Nat} {t : Text} (h : t.length ≤ width) :
    (padLeft fill width t).length = width := by
  rw [padLeft, List.length_append, List.length_replicate]
  omega

theorem mem_padLeft {fill c : CodePoint} {width : Nat} {t : Text} (h : c ∈ padLeft fill width t) :
    c = fill ∨ c ∈ t := by
  rcases List.mem_append.mp h with h | h
  · exact Or.inl (List.eq_of_mem_replicate h)
  · exact Or.inr h

theorem mem_padRight {fill c : CodePoint} {width : Nat} {t : Text}
    (h : c ∈ padRight fill width t) : c = fill ∨ c ∈ t := by
  rcases List.mem_append.mp h with h | h
  · exact Or.inr h
  · exact Or.inl (List.eq_of_mem_replicate h)

end Text

end ContractKit
