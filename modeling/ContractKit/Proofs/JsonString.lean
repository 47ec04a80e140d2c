import ContractKit.Json.Printer
import ContractKit.Json.Reader
import ContractKit.Proofs.Numeral

/-!
# JSON strings

A string is read back from its text (`Json.readString_flatMap_escaped`) if no two surrogates in it
stand side by side that read as one code point (`Text.IsJoined`). All strings that are read from a
text without surrogates are of this kind (`Json.isJoined_of_readString`).
-/

namespace ContractKit

/-- No high surrogate stands in front of a low one. -/
def Text.IsJoined (t : Text) : Prop :=
  t.IsChain fun c d => ¬ (c.isHighSurrogate = true ∧ d.isLowSurrogate = true)

instance (t : Text) : Decidable t.IsJoined := by
  unfold Text.IsJoined
  infer_instance

theorem Text.IsAscii.isJoined {t : Text} (h : t.IsAscii) : t.IsJoined := by
  induction t with
  | nil => exact List.isChain_nil
  | cons c t ih =>
    refine List.isChain_cons.mpr ⟨fun d _ => ?_, ih fun d hd => h d (by simp [hd])⟩
    have hc := h c (by simp)
    simp only [CodePoint.isHighSurrogate, Bool.and_eq_true, decide_eq_true_eq]
    omega

namespace Json

/-! ## Reading characters -/

theorem readString_plain {c : CodePoint} (rest : Text) (hquote : c ≠ '"') (hslash : c ≠ '\\')
    (hcontrol : 0x20 ≤ c.val) :
    readString (c :: rest) = (readString rest).map fun (t, after) => (c :: t, after) := by
  rw [readString, if_neg hquote, if_neg hslash, if_neg (Nat.not_lt.mpr hcontrol)]

theorem readString_quote (rest : Text) : readString (('"' : CodePoint) :: rest) = .ok ([], rest) := by
  rw [readString, if_pos rfl]

theorem readString_escape {d : CodePoint} {s after : Text} (h : readEscape s = some (d, after)) :
    readString (('\\' : CodePoint) :: s) =
      (readString after).map fun (t, after) => (d :: t, after) := by
  rw [readString, if_neg (by decide), if_pos rfl]
  split
  · next hnone => rw [h] at hnone; cases hnone
  · next found left hsome =>
    rw [h] at hsome
    cases hsome
    rfl

/-! ## Escapes in UTF-16 units -/

/-- Four hexadecimal digits give the unit back. -/
theorem readUnit_hexadecimal {unit : Nat} (h : unit < 0x10000) (rest : Text) :
    readUnit (Numeral.hexadecimal 4 unit ++ rest) = some (unit, rest) := by
  have hvalue := Numeral.value_hexDigits 4 unit
  have hlt := Numeral.lt_of_mem_hexDigits 4 unit
  have hlength : (Numeral.hexDigits 4 unit).length = 4 := Numeral.length_hexDigits h
  rw [Numeral.hexadecimal_eq]
  match hds : Numeral.hexDigits 4 unit with
  | [a, b, c, d] =>
    rw [hds] at hvalue hlt
    have hdigit : ∀ e ∈ [a, b, c, d], Numeral.hexValue? (Numeral.digitChar e) = some e :=
      fun e he => Numeral.hexValue?_digitChar e (hlt e he)
    simp only [List.map_cons, List.map_nil, List.cons_append, List.nil_append, readUnit,
      hdigit a (by simp), hdigit b (by simp), hdigit c (by simp), hdigit d (by simp), hvalue]
  | [] | [_] | [_, _] | [_, _, _] | _ :: _ :: _ :: _ :: _ :: _ => simp [hds] at hlength

theorem readLowSurrogate_unitEscape {unit : Nat} (h : unit < 0x10000) (rest : Text) :
    readLowSurrogate (unitEscape unit ++ rest) =
      if 0xdc00 ≤ unit ∧ unit < 0xe000 then some (unit, rest) else none := by
  rw [unitEscape, List.cons_append, List.cons_append, readLowSurrogate, if_pos ⟨rfl, rfl⟩,
    readUnit_hexadecimal h]

theorem readEscape_unit {unit : Nat} (h : unit < 0x10000) {rest : Text}
    (hnext : 0xd800 ≤ unit ∧ unit < 0xdc00 → readLowSurrogate rest = none) :
    readEscape (('u' : CodePoint) :: (Numeral.hexadecimal 4 unit ++ rest)) =
      some (.ofNat unit, rest) := by
  rw [readEscape, if_pos rfl]
  simp only [readUnit_hexadecimal h]
  split_ifs with hhigh
  · rw [hnext hhigh]
  · rfl

theorem readEscape_pair {high low : Nat} (hhigh : 0xd800 ≤ high ∧ high < 0xdc00)
    (hlow : 0xdc00 ≤ low ∧ low < 0xe000) (rest : Text) :
    readEscape (('u' : CodePoint) :: (Numeral.hexadecimal 4 high ++ (unitEscape low ++ rest))) =
      some (.ofNat (0x10000 + (high - 0xd800) * 0x400 + (low - 0xdc00)), rest) := by
  rw [readEscape, if_pos rfl]
  simp only [readUnit_hexadecimal (show high < 0x10000 by omega), if_pos hhigh,
    readLowSurrogate_unitEscape (show low < 0x10000 by omega), if_pos hlow]

/-! ## Reading what was escaped -/

/-- An escaped code point is read back, unless it is a high surrogate and an escaped low one
follows. -/
theorem readString_escaped {c : CodePoint} {rest : Text}
    (hnext : c.isHighSurrogate = true → readLowSurrogate rest = none) :
    readString (escaped c ++ rest) =
      (readString rest).map fun (t, after) => (c :: t, after) := by
  unfold escaped
  split_ifs with hsimple hn hr ht hb hf hplain hunit
  · have hu : c ≠ 'u' := by
      rintro rfl
      exact absurd hsimple (by decide)
    have hescape : c = '"' ∨ c = '\\' ∨ c = '/' := by
      rw [← or_assoc]
      exact Or.inl hsimple
    refine readString_escape (s := c :: rest) ?_
    rw [readEscape, if_neg hu, shortEscape?, if_pos hescape]
    rfl
  · rw [hn]
    exact readString_escape rfl
  · rw [hr]
    exact readString_escape rfl
  · rw [ht]
    exact readString_escape rfl
  · rw [← CodePoint.ofNat_val c, hb]
    exact readString_escape rfl
  · rw [← CodePoint.ofNat_val c, hf]
    exact readString_escape rfl
  · rw [not_or] at hsimple
    exact readString_plain rest hsimple.1 hsimple.2 hplain.1
  · refine readString_escape (s := 'u' :: (Numeral.hexadecimal 4 c.val ++ rest)) ?_
    have hhigh : 0xd800 ≤ c.val ∧ c.val < 0xdc00 → readLowSurrogate rest = none := fun h =>
      hnext (by simpa [CodePoint.isHighSurrogate] using h)
    rw [readEscape_unit hunit hhigh, CodePoint.ofNat_val]
  · have hlt := c.val_lt
    rw [List.append_assoc, unitEscape, List.cons_append, List.cons_append]
    refine readString_escape ?_
    rw [readEscape_pair (by omega) (by omega)]
    have hval : 0x10000 + (0xd800 + (c.val - 0x10000) / 0x400 - 0xd800) * 0x400 +
        (0xdc00 + c.val % 0x400 - 0xdc00) = c.val := by omega
    rw [hval, CodePoint.ofNat_val]

/-- Only a low surrogate is escaped like one. -/
theorem readLowSurrogate_escaped {c : CodePoint} (h : c.isLowSurrogate = false) (rest : Text) :
    readLowSurrogate (escaped c ++ rest) = none := by
  have hshort : ∀ {d : CodePoint}, d ≠ 'u' →
      readLowSurrogate (([('\\' : CodePoint), d] : Text) ++ rest) = none := fun hd =>
    if_neg fun h => hd h.2
  have hlow : ¬ (0xdc00 ≤ c.val ∧ c.val < 0xe000) := by
    simpa [CodePoint.isLowSurrogate] using h
  unfold escaped
  split_ifs with hsimple hn hr ht hb hf hplain hunit
  · refine hshort ?_
    rintro rfl
    exact absurd hsimple (by decide)
  · exact hshort (by decide)
  · exact hshort (by decide)
  · exact hshort (by decide)
  · exact hshort (by decide)
  · exact hshort (by decide)
  · rw [not_or] at hsimple
    cases rest with
    | nil => rfl
    | cons d rest => exact if_neg fun h => hsimple.2 h.1
  · rw [readLowSurrogate_unitEscape hunit, if_neg hlow]
  · have hlt := c.val_lt
    rw [List.append_assoc, readLowSurrogate_unitEscape (by omega), if_neg (by omega)]

/-- A string is read back from between its quotation marks. -/
theorem readString_flatMap_escaped {t : Text} (h : t.IsJoined) (rest : Text) :
    readString (t.flatMap escaped ++ ('"' : CodePoint) :: rest) = .ok (t, rest) := by
  induction t with
  | nil => exact readString_quote rest
  | cons c t ih =>
    have hnext : c.isHighSurrogate = true →
        readLowSurrogate (t.flatMap escaped ++ ('"' : CodePoint) :: rest) = none := by
      intro hhigh
      cases t with
      | nil => cases rest <;> rfl
      | cons d t =>
        have hpair := (List.isChain_cons_cons.mp h).1
        rw [List.flatMap_cons, List.append_assoc]
        exact readLowSurrogate_escaped (by simpa [hhigh] using hpair) _
    rw [List.flatMap_cons, List.append_assoc, readString_escaped hnext, ih h.tail]
    rfl

theorem quotedString_append (t rest : Text) :
    quotedString t ++ rest = ('"' : CodePoint) :: (t.flatMap escaped ++ ('"' : CodePoint) :: rest) := by
  simp [quotedString, Text.concat, Text.ofString]

/-! ## What is left of a text -/

theorem readUnit_suffix {s rest : Text} {unit : Nat} (h : readUnit s = some (unit, rest)) :
    rest <:+ s := by
  unfold readUnit at h
  split at h
  · next a b c d after =>
    split at h
    · obtain ⟨-, rfl⟩ := Prod.mk.inj (Option.some.inj h)
      exact ⟨[a, b, c, d], rfl⟩
    · cases h
  · cases h

theorem readLowSurrogate_suffix {s rest : Text} {unit : Nat}
    (h : readLowSurrogate s = some (unit, rest)) : rest <:+ s := by
  unfold readLowSurrogate at h
  split at h
  · next backslash u after =>
    split_ifs at h
    split at h
    · next hunit =>
      split_ifs at h
      obtain ⟨-, rfl⟩ := Prod.mk.inj (Option.some.inj h)
      exact (readUnit_suffix hunit).trans ⟨[backslash, u], rfl⟩
    · cases h
  · cases h

theorem readEscape_suffix {s rest : Text} {c : CodePoint} (h : readEscape s = some (c, rest)) :
    rest <:+ s := by
  unfold readEscape at h
  split at h
  · cases h
  · next letter after =>
    have hafter : after <:+ letter :: after := List.suffix_cons _ _
    split_ifs at h
    · split at h
      · cases h
      · next hunit =>
        have hunit := (readUnit_suffix hunit).trans hafter
        split_ifs at h
        · split at h
          · next hlow =>
            obtain ⟨-, rfl⟩ := Prod.mk.inj (Option.some.inj h)
            exact (readLowSurrogate_suffix hlow).trans hunit
          · obtain ⟨-, rfl⟩ := Prod.mk.inj (Option.some.inj h)
            exact hunit
        · obtain ⟨-, rfl⟩ := Prod.mk.inj (Option.some.inj h)
          exact hunit
    · obtain ⟨d, -, h⟩ := Option.map_eq_some_iff.mp h
      obtain ⟨-, rfl⟩ := Prod.mk.inj h
      exact hafter

/-- The first code point of a string is its quotation mark, stands for itself or is an escape. -/
theorem of_readString {s t rest : Text} (h : readString s = .ok (t, rest)) :
    (s = ('"' : CodePoint) :: rest ∧ t = []) ∨
      (∃ c left t', s = c :: left ∧ t = c :: t' ∧ readString left = .ok (t', rest)) ∨
      ∃ s' d left t', s = ('\\' : CodePoint) :: s' ∧ readEscape s' = some (d, left) ∧ t = d :: t' ∧
        readString left = .ok (t', rest) := by
  rw [readString.eq_def] at h
  split at h
  · cases h
  · next c left =>
    split_ifs at h with hquote hslash hcontrol
    · obtain ⟨rfl, rfl⟩ := Prod.mk.inj (Except.ok.inj h)
      exact Or.inl ⟨by rw [hquote], rfl⟩
    · split at h
      · cases h
      · next d after hescape =>
        obtain ⟨⟨t', _⟩, hread, h⟩ := map_eq_ok_iff.mp h
        obtain ⟨rfl, rfl⟩ := Prod.mk.inj h
        exact Or.inr (Or.inr ⟨left, d, after, t', by rw [hslash], hescape, rfl, hread⟩)
    · obtain ⟨⟨t', _⟩, hread, h⟩ := map_eq_ok_iff.mp h
      obtain ⟨rfl, rfl⟩ := Prod.mk.inj h
      exact Or.inr (Or.inl ⟨c, left, t', rfl, rfl, hread⟩)

theorem readString_suffix {s t rest : Text} (h : readString s = .ok (t, rest)) : rest <:+ s := by
  induction hlength : s.length using Nat.strong_induction_on generalizing s t with
  | h n ih =>
  subst hlength
  rcases of_readString h with ⟨rfl, -⟩ | ⟨c, left, t', rfl, -, hread⟩ |
    ⟨s', d, left, t', rfl, hescape, -, hread⟩
  · exact List.suffix_cons _ _
  · exact (ih _ (by simp) hread rfl).trans (List.suffix_cons _ _)
  · have hleft := readEscape_suffix hescape
    have hlt : left.length < (('\\' : CodePoint) :: s').length :=
      (readEscape_length hescape).trans (by simp)
    exact (ih _ hlt hread rfl).trans (hleft.trans (List.suffix_cons _ _))

/-! ## Strings that are read -/

/-- Escapes of one letter denote no surrogates. -/
theorem isSurrogate_of_shortEscape? {c d : CodePoint} (h : shortEscape? c = some d) :
    d.isSurrogate = false := by
  unfold shortEscape? at h
  split_ifs at h with hself
  · rw [← Option.some.inj h]
    rcases hself with rfl | rfl | rfl <;> decide
  all_goals
    rw [← Option.some.inj h]
    decide

/-- An escape of a surrogate is read either as the unit of a single escape, which no low surrogate
follows where the unit is a high one, or is no surrogate at all. -/
theorem of_readEscape {s after : Text} {c : CodePoint} (h : readEscape s = some (c, after))
    (hsurrogate : c.isHighSurrogate = true ∨ c.isLowSurrogate = true) :
    ∃ rest, s = ('u' : CodePoint) :: rest ∧ readUnit rest = some (c.val, after) ∧
      (c.isHighSurrogate = true → readLowSurrogate after = none) := by
  rw [CodePoint.isHighSurrogate_iff, CodePoint.isLowSurrogate_iff] at hsurrogate
  rw [CodePoint.isHighSurrogate_iff]
  unfold readEscape at h
  split at h
  · cases h
  next letter rest =>
  split_ifs at h with hletter
  · split at h
    · cases h
    next unit left hunit =>
    have hval : ∀ n, (CodePoint.ofNat n).val = n ∨ (CodePoint.ofNat n).val = 0xfffd :=
      fun _ => CodePoint.val_ofNat_eq
    split_ifs at h with hhigh
    · split at h
      · next low _ hlow =>
        obtain ⟨rfl, rfl⟩ := Prod.mk.inj (Option.some.inj h)
        have := hval (0x10000 + (unit - 0xd800) * 0x400 + (low - 0xdc00))
        omega
      · next hnone =>
        obtain ⟨rfl, rfl⟩ := Prod.mk.inj (Option.some.inj h)
        have := hval unit
        have heq : (CodePoint.ofNat unit).val = unit := by omega
        exact ⟨rest, by rw [hletter], by rw [heq]; exact hunit, fun _ => hnone⟩
    · obtain ⟨rfl, rfl⟩ := Prod.mk.inj (Option.some.inj h)
      have := hval unit
      have heq : (CodePoint.ofNat unit).val = unit := by omega
      refine ⟨rest, by rw [hletter], by rw [heq]; exact hunit, fun hc => ?_⟩
      omega
  · obtain ⟨d, hd, h⟩ := Option.map_eq_some_iff.mp h
    obtain ⟨rfl, rfl⟩ := Prod.mk.inj h
    have := CodePoint.isSurrogate_eq_false_iff.mp (isSurrogate_of_shortEscape? hd)
    omega

/-- A string read from a text without surrogates starts with a low surrogate only if the text starts
with its escape. -/
theorem readLowSurrogate_of_readString {s t rest : Text} {d : CodePoint}
    (hs : ∀ c ∈ s, c.isSurrogate = false) (hd : d.isLowSurrogate = true)
    (h : readString s = .ok (d :: t, rest)) : readLowSurrogate s ≠ none := by
  rcases of_readString h with ⟨-, heq⟩ | ⟨c, left, t', rfl, heq, -⟩ |
    ⟨s', e, left, t', rfl, hescape, heq, -⟩
  · cases heq
  · obtain ⟨rfl, -⟩ := List.cons.inj heq
    have := CodePoint.isSurrogate_eq_false_iff.mp (hs d (by simp))
    rw [CodePoint.isLowSurrogate_iff] at hd
    omega
  · obtain ⟨rfl, -⟩ := List.cons.inj heq
    obtain ⟨after, rfl, hunit, -⟩ := of_readEscape hescape (Or.inr hd)
    rw [readLowSurrogate, if_pos ⟨rfl, rfl⟩, hunit]
    simp only [if_pos (CodePoint.isLowSurrogate_iff.mp hd)]
    exact Option.some_ne_none _

/-- A string read from a text without surrogates has no high surrogate in front of a low one. -/
theorem isJoined_of_readString {s t rest : Text} (hs : ∀ c ∈ s, c.isSurrogate = false)
    (h : readString s = .ok (t, rest)) : t.IsJoined := by
  induction hlength : s.length using Nat.strong_induction_on generalizing s t with
  | h n ih =>
  subst hlength
  -- A string goes on joined where its first code point is no high surrogate in front of a low one.
  have hcons : ∀ {c left t'}, left.length < s.length → left <:+ s →
      readString left = .ok (t', rest) →
      (c.isHighSurrogate = true → readLowSurrogate left = none) → Text.IsJoined (c :: t') := by
    intro c left t' hlt hleft hread hnext
    have hleft' : ∀ b ∈ left, b.isSurrogate = false := fun b hb => hs b (hleft.subset hb)
    cases t' with
    | nil => exact List.isChain_singleton c
    | cons d t' =>
      refine List.isChain_cons_cons.mpr ⟨?_, ih _ hlt hleft' hread rfl⟩
      rintro ⟨hhigh, hlow⟩
      exact readLowSurrogate_of_readString hleft' hlow hread (hnext hhigh)
  rcases of_readString h with ⟨-, rfl⟩ | ⟨c, left, t', rfl, rfl, hread⟩ |
    ⟨s', d, left, t', rfl, hescape, rfl, hread⟩
  · exact List.isChain_nil
  · refine hcons (by simp) (List.suffix_cons _ _) hread fun hhigh => ?_
    have := CodePoint.isSurrogate_eq_false_iff.mp (hs c (by simp))
    rw [CodePoint.isHighSurrogate_iff] at hhigh
    omega
  · refine hcons ((readEscape_length hescape).trans (by simp))
      ((readEscape_suffix hescape).trans (List.suffix_cons _ _)) hread fun hhigh => ?_
    obtain ⟨-, -, -, hnext⟩ := of_readEscape hescape (Or.inl hhigh)
    exact hnext hhigh

end Json

end ContractKit
