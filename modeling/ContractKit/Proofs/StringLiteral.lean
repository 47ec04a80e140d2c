import ContractKit.Proofs.OptionalArgument

/-!
# String literals are exact

A string literal is a quotation mark, units and a quotation mark, between blanks. A unit
(`Literal.IsUnit`) is a character that stands for itself, an escape of one letter
(`Literal.shortEscapes`) or the code of a character in braces (`Literal.IsCode`), and the string is what
the units denote. Reading goes from unit to unit, so a code of more than 31 bits behind units is an
error of its own, whatever follows, and every other text is refused (`Literal.parse_string`).

A word without quotation marks, backslashes and line ends consists of characters that stand for
themselves, so it is the string it denotes as an argument.
-/

namespace ContractKit

namespace Literal

/-! ## Units -/

/-- The letters of escapes, with what they denote. -/
def shortEscapes : List (CodePoint × CodePoint) :=
  [('0', '\x00'), ('n', '\n'), ('r', '\r'), ('t', '\t'), ('"', '"'), ('\'', '\''), ('\\', '\\')]

/-- One to eight hexadecimal digits of the number. -/
def IsCode (digits : Text) (number : Nat) : Prop :=
  digits ≠ [] ∧ digits.length ≤ 8 ∧ (∀ d ∈ digits, Numeral.isHexDigit d = true) ∧
    Numeral.value 16 (digits.filterMap Numeral.hexValue?) = number

/-- The escape of a code. -/
def codeEscape (digits : Text) : Text :=
  ('\\' : CodePoint) :: ('u' : CodePoint) :: ('\x7b' : CodePoint) :: (digits ++ [('\x7d' : CodePoint)])

/-- The text of one character in a string literal. -/
inductive IsUnit : Text → CodePoint → Prop
  /-- A character that stands for itself. -/
  | plain {c : CodePoint} : c ≠ '"' → c ≠ '\\' → c ≠ '\n' → IsUnit [c] c
  /-- An escape of one letter. -/
  | short {letter c : CodePoint} : (letter, c) ∈ shortEscapes → IsUnit ['\\', letter] c
  /-- The code of the character. -/
  | code {digits : Text} {c : CodePoint} : IsCode digits c.val → IsUnit (codeEscape digits) c

theorem mem_shortEscapes_iff {letter c : CodePoint} :
    (letter, c) ∈ shortEscapes ↔ shortEscape? letter = some c := by
  constructor
  · intro h
    simp only [shortEscapes, List.mem_cons, Prod.mk.injEq, List.not_mem_nil, or_false] at h
    rcases h with ⟨rfl, rfl⟩ | ⟨rfl, rfl⟩ | ⟨rfl, rfl⟩ | ⟨rfl, rfl⟩ | ⟨rfl, rfl⟩ | ⟨rfl, rfl⟩ |
      ⟨rfl, rfl⟩ <;> rfl
  · intro h
    unfold shortEscape? at h
    split_ifs at h with h0 hn hr ht hself
    · simp [shortEscapes, h0, Option.some.inj h]
    · simp [shortEscapes, hn, ← Option.some.inj h]
    · simp [shortEscapes, hr, ← Option.some.inj h]
    · simp [shortEscapes, ht, ← Option.some.inj h]
    · obtain rfl := Option.some.inj h
      rcases hself with rfl | rfl | rfl <;> simp [shortEscapes]

/-! ## Escapes -/

/-- The result of reading a code of the number. -/
theorem unicodeEscape_append {digits : Text} {number : Nat} (h : IsCode digits number) (after : Text) :
    unicodeEscape (('\x7b' : CodePoint) :: (digits ++ ('\x7d' : CodePoint) :: after)) =
      if hlt : number < 0x110000 then .ok (⟨number, hlt⟩, after)
      else if number < 0x80000000 then .error .invalidCodePoint
      else .error .codePointOverflow := by
  obtain ⟨hne, hlength, hhex, rfl⟩ := h
  have hstop : ∀ c ∈ (('\x7d' : CodePoint) :: after).head?, Numeral.isHexDigit c = false :=
    fun c hc => Option.some.inj hc ▸ rfl
  simp only [unicodeEscape, Text.takeWhile_run hhex hstop, Text.dropWhile_run hhex hstop, true_and,
    if_pos (And.intro hne hlength), codePoint]
  split_ifs <;> rfl

/-- Behind the `u` stands a code, or the escape is malformed. -/
theorem exists_code_or (s : Text) :
    (∃ digits number after, IsCode digits number ∧
      s = ('\x7b' : CodePoint) :: (digits ++ ('\x7d' : CodePoint) :: after)) ∨
      unicodeEscape s = .error .invalidUnicodeEscape := by
  unfold unicodeEscape
  split
  · exact .inr rfl
  next brace rest =>
  split
  · exact .inr rfl
  next close after hclose =>
  split_ifs with hform
  · obtain ⟨rfl, rfl, hne, hlength⟩ := hform
    refine .inl ⟨_, _, after, ⟨hne, hlength, fun d hd => List.mem_takeWhile_imp hd, rfl⟩, ?_⟩
    rw [← hclose, List.takeWhile_append_dropWhile]
  · exact .inr rfl

theorem codeEscape_append (digits after : Text) : codeEscape digits ++ after =
    ('\\' : CodePoint) :: ('u' : CodePoint) :: ('\x7b' : CodePoint) ::
      (digits ++ ('\x7d' : CodePoint) :: after) := by
  simp [codeEscape]

/-- Behind a backslash stands a letter, a code or no escape. -/
theorem escape_cases (s : Text) :
    (∃ letter c after, (letter, c) ∈ shortEscapes ∧ s = letter :: after ∧
        escape s = .ok (c, after)) ∨
      (∃ digits number after, IsCode digits number ∧
        ('\\' : CodePoint) :: s = codeEscape digits ++ after ∧
        escape s = if hlt : number < 0x110000 then .ok (⟨number, hlt⟩, after)
          else if number < 0x80000000 then .error .invalidCodePoint
          else .error .codePointOverflow) ∨
      ∃ e, escape s = .error e ∧ e.IsRefusal := by
  cases s with
  | nil => exact .inr (.inr ⟨_, rfl, trivial⟩)
  | cons letter rest =>
    cases hshort : shortEscape? letter with
    | some c =>
      refine .inl ⟨letter, c, rest, mem_shortEscapes_iff.mpr hshort, rfl, ?_⟩
      simp only [escape, hshort]
    | none =>
      by_cases hu : letter = 'u'
      · subst hu
        have hescape : escape (('u' : CodePoint) :: rest) = unicodeEscape rest := rfl
        rcases exists_code_or rest with ⟨digits, number, after, hcode, rfl⟩ | hmalformed
        · exact .inr (.inl ⟨digits, number, after, hcode, (codeEscape_append digits after).symm,
            hescape.trans (unicodeEscape_append hcode after)⟩)
        · exact .inr (.inr ⟨_, hescape.trans hmalformed, trivial⟩)
      · refine .inr (.inr ⟨.invalidEscape [letter], ?_, trivial⟩)
        simp only [escape, hshort, if_neg hu]

theorem exists_unit_of_escape {s after : Text} {c : CodePoint} (h : escape s = .ok (c, after)) :
    ∃ u, IsUnit u c ∧ ('\\' : CodePoint) :: s = u ++ after := by
  rcases escape_cases s with ⟨letter, c', after', hshort, rfl, heq⟩ |
    ⟨digits, number, after', hcode, hs, heq⟩ | ⟨e, heq, -⟩
  · obtain ⟨rfl, rfl⟩ := Prod.mk.inj (Except.ok.inj (heq.symm.trans h))
    exact ⟨_, .short hshort, rfl⟩
  · rw [heq] at h
    split_ifs at h
    obtain ⟨rfl, rfl⟩ := Prod.mk.inj (Except.ok.inj h)
    exact ⟨_, .code hcode, hs⟩
  · cases heq.symm.trans h

theorem escape_eq_error {s : Text} {e : LiteralError} (h : escape s = .error e) :
    e.IsRefusal ∨ e = .codePointOverflow ∧ ∃ digits number after, IsCode digits number ∧
      0x7fffffff < number ∧ ('\\' : CodePoint) :: s = codeEscape digits ++ after := by
  rcases escape_cases s with ⟨letter, c', after', hshort, rfl, heq⟩ |
    ⟨digits, number, after', hcode, hs, heq⟩ | ⟨e', heq, he⟩
  · cases heq.symm.trans h
  · rw [heq] at h
    split_ifs at h with hvalid hsmall
    · exact .inl (Except.error.inj h ▸ trivial)
    · exact .inr ⟨(Except.error.inj h).symm, digits, number, after', hcode, by omega, hs⟩
  · exact .inl (Except.error.inj (heq.symm.trans h) ▸ he)

/-! ## Contents -/

/-- A unit is read as what it denotes. -/
theorem stringBody_unit {u : Text} {c : CodePoint} (h : IsUnit u c) (rest : Text) :
    stringBody (u ++ rest) = (stringBody rest).map fun (t, left) => (c :: t, left) := by
  cases h with
  | plain hquote hslash hline => exact stringBody_plain hquote hline hslash rest
  | @short letter _ hshort =>
    refine stringBody_escape (s := letter :: rest) ?_
    simp only [escape, mem_shortEscapes_iff.mp hshort]
  | @code digits _ hcode =>
    rw [codeEscape_append]
    refine stringBody_escape (Eq.trans (unicodeEscape_append hcode rest) ?_)
    rw [dif_pos c.val_lt]

theorem stringBody_units {units : List Text} {s : Text} (h : List.Forall₂ IsUnit units s)
    (rest : Text) : stringBody (units.flatten ++ rest) =
      (stringBody rest).map fun (t, left) => (s ++ t, left) := by
  induction h with
  | nil =>
    rw [List.flatten_nil, List.nil_append]
    cases stringBody rest <;> rfl
  | cons hunit _ ih =>
    rw [List.flatten_cons, List.append_assoc, stringBody_unit hunit, ih]
    cases stringBody rest <;> rfl

/-- The contents that are read are what units denote. -/
theorem exists_units_of_stringBody {t s rest : Text} (h : stringBody t = .ok (s, rest)) :
    ∃ units, List.Forall₂ IsUnit units s ∧ t = units.flatten ++ ('"' : CodePoint) :: rest := by
  fun_induction stringBody t generalizing s with
  | case1 => cases h
  | case2 tail =>
    obtain ⟨rfl, rfl⟩ := Prod.mk.inj (Except.ok.inj h)
    exact ⟨[], .nil, rfl⟩
  | case3 tail _ => cases h
  | case4 tail e he => cases h
  | case5 tail c after hescape _ _ ih =>
    obtain ⟨⟨s', left⟩, hbody, heq⟩ := map_eq_ok_iff.mp h
    obtain ⟨rfl, rfl⟩ := Prod.mk.inj heq
    obtain ⟨units, hunits, rfl⟩ := ih hbody
    obtain ⟨u, hu, htext⟩ := exists_unit_of_escape hescape
    exact ⟨u :: units, .cons hu hunits, by rw [htext, List.flatten_cons, List.append_assoc]⟩
  | case6 c tail hquote hline hslash ih =>
    obtain ⟨⟨s', left⟩, hbody, heq⟩ := map_eq_ok_iff.mp h
    obtain ⟨rfl, rfl⟩ := Prod.mk.inj heq
    obtain ⟨units, hunits, rfl⟩ := ih hbody
    exact ⟨[c] :: units, .cons (.plain hquote hslash hline) hunits, rfl⟩

/-- The text starts with units and a code of more than 31 bits. -/
def StartsWide (t : Text) : Prop :=
  ∃ units s digits number after, List.Forall₂ IsUnit units s ∧ IsCode digits number ∧
    0x7fffffff < number ∧ t = units.flatten ++ (codeEscape digits ++ after)

theorem StartsWide.unit_append {u t : Text} {c : CodePoint} (h : StartsWide t) (hu : IsUnit u c) :
    StartsWide (u ++ t) := by
  obtain ⟨units, s, digits, number, after, hunits, hcode, hwide, rfl⟩ := h
  exact ⟨u :: units, c :: s, digits, number, after, .cons hu hunits, hcode, hwide,
    (List.append_assoc _ _ _).symm⟩

theorem stringBody_of_startsWide {t : Text} (h : StartsWide t) :
    stringBody t = .error .codePointOverflow := by
  obtain ⟨units, s, digits, number, after, hunits, hcode, hwide, rfl⟩ := h
  have hescape : stringBody (codeEscape digits ++ after) = .error .codePointOverflow := by
    rw [codeEscape_append]
    refine stringBody_escape_error (Eq.trans (unicodeEscape_append hcode after) ?_)
    rw [dif_neg (by omega), if_neg (by omega)]
  rw [stringBody_units hunits, hescape]
  rfl

/-- What is no contents of a string is refused, unless it starts with a wide code. -/
theorem stringBody_eq_error {t : Text} {e : LiteralError} (h : stringBody t = .error e) :
    e.IsRefusal ∨ e = .codePointOverflow ∧ StartsWide t := by
  fun_induction stringBody t with
  | case1 => exact .inl (Except.error.inj h ▸ trivial)
  | case2 tail => cases h
  | case3 tail _ => exact .inl (Except.error.inj h ▸ trivial)
  | case4 tail e' hescape =>
    obtain rfl := Except.error.inj h
    rcases escape_eq_error hescape with he | ⟨he, digits, number, after, hcode, hwide, htext⟩
    · exact .inl he
    · exact .inr ⟨he, [], [], digits, number, after, .nil, hcode, hwide, htext⟩
  | case5 tail c after hescape _ _ ih =>
    obtain ⟨u, hu, htext⟩ := exists_unit_of_escape hescape
    rw [htext]
    exact (ih (map_eq_error_iff.mp h)).imp_right (And.imp_right fun hwide => hwide.unit_append hu)
  | case6 c tail hquote hline hslash ih =>
    refine (ih (map_eq_error_iff.mp h)).imp_right (And.imp_right fun hwide => ?_)
    exact hwide.unit_append (.plain hquote hslash hline)

/-! ## Literals -/

theorem string_eq_ok_iff {t s rest : Text} : string t = .ok (s, rest) ↔
    ∃ units, List.Forall₂ IsUnit units s ∧
      t = ('"' : CodePoint) :: (units.flatten ++ [('"' : CodePoint)]) ++ rest := by
  constructor
  · intro h
    obtain ⟨tail, rfl⟩ := List.head?_eq_some_iff.mp (head_of_string h)
    obtain ⟨units, hunits, rfl⟩ := exists_units_of_stringBody (t := tail) h
    exact ⟨units, hunits, by simp⟩
  · rintro ⟨units, hunits, rfl⟩
    have hbody : stringBody (units.flatten ++ ('"' : CodePoint) :: rest) = .ok (s, rest) := by
      rw [stringBody_units hunits, stringBody_quote]
      simp [Except.map]
    rw [List.cons_append, List.append_assoc]
    exact hbody

theorem string_eq_error {t : Text} {e : LiteralError} (h : string t = .error e) :
    e.IsRefusal ∨
      e = .codePointOverflow ∧ ∃ rest, t = ('"' : CodePoint) :: rest ∧ StartsWide rest := by
  unfold string at h
  split at h
  · next c rest =>
    split_ifs at h with hquote
    · exact (stringBody_eq_error h).imp_right fun ⟨he, hwide⟩ => ⟨he, rest, by rw [hquote], hwide⟩
    · exact .inl (Except.error.inj h ▸ trivial)
  · exact .inl (Except.error.inj h ▸ trivial)

theorem read_string (text : Text) : read (.simple .string) text =
    (string text.trimLeft).map fun (s, rest) => (.string s, rest) :=
  rfl

/-- No blank stands at an end of what is between quotation marks. -/
theorem isBlank_ends_of_quoted (inside : Text) :
    (∀ c ∈ (('"' : CodePoint) :: (inside ++ [('"' : CodePoint)])).head?, c.isBlank = false) ∧
      ∀ c ∈ (('"' : CodePoint) :: (inside ++ [('"' : CodePoint)])).getLast?, c.isBlank = false := by
  refine ⟨fun c hc => Option.some.inj hc ▸ rfl, fun c hc => ?_⟩
  rw [← List.cons_append, List.getLast?_concat] at hc
  exact Option.some.inj hc ▸ rfl

theorem parse_string_eq_ok_iff {text : Text} {v : Value} :
    parse text (.simple .string) = .ok v ↔ ∃ units s, List.Forall₂ IsUnit units s ∧
      text.trim = ('"' : CodePoint) :: (units.flatten ++ [('"' : CodePoint)]) ∧ v = .string s := by
  rw [parse_eq_ok_iff]
  constructor
  · rintro ⟨rest, hread, hblanks⟩
    obtain ⟨⟨s, left⟩, hstring, heq⟩ := map_eq_ok_iff.mp hread
    obtain ⟨rfl, rfl⟩ := Prod.mk.inj heq
    obtain ⟨units, hunits, htext⟩ := string_eq_ok_iff.mp hstring
    refine ⟨units, s, hunits, (Text.trim_eq_iff (isBlank_ends_of_quoted _).2).mpr ?_, rfl⟩
    exact ⟨left, htext, skip_eq_nil_iff.mp hblanks⟩
  · rintro ⟨units, s, hunits, htrim, rfl⟩
    obtain ⟨blanks, hleft, hblanks⟩ := (Text.trim_eq_iff (isBlank_ends_of_quoted _).2).mp htrim
    refine ⟨blanks, ?_, skip_eq_nil_iff.mpr hblanks⟩
    rw [read_string, string_eq_ok_iff.mpr ⟨units, hunits, hleft⟩]
    rfl

/-- What goes wrong is a refusal, or there is a wide code behind units. -/
theorem parse_string_eq_error {text : Text} {e : LiteralError}
    (h : parse text (.simple .string) = .error e) :
    e.IsRefusal ∨ e = .codePointOverflow ∧
      ∃ rest, text.trimLeft = ('"' : CodePoint) :: rest ∧ StartsWide rest := by
  rcases parse_eq_error_iff.mp h with hread | ⟨_, _, -, -, rfl⟩
  · exact string_eq_error (map_eq_error_iff.mp hread)
  · exact .inl trivial

end Literal

namespace Argument

/-- A word without quotation marks, backslashes and line ends denotes itself. -/
theorem coerce_plain {parameter : Parameter} {raw : Text}
    (htype : parameter.type.leaf = .simple .string) (hne : raw ≠ [])
    (hplain : ∀ c ∈ raw, c ≠ '"' ∧ c ≠ '\\' ∧ c ≠ '\n') :
    coerce parameter raw = .ok (.string raw) := by
  have hunits : List.Forall₂ Literal.IsUnit (raw.map fun c => [c]) raw := by
    rw [List.forall₂_map_left_iff, List.forall₂_same]
    exact fun c hc => .plain (hplain c hc).1 (hplain c hc).2.1 (hplain c hc).2.2
  have hquoted : ¬ (raw = [] ∨ raw.head? = some ('"' : CodePoint)) := by
    rintro (hnil | hhead)
    · exact hne hnil
    · exact (hplain _ (List.mem_of_mem_head? hhead)).1 rfl
  have hprepare : prepare raw (.simple .string) =
      ('"' : CodePoint) :: ((raw.map fun c => [c]).flatten ++ [('"' : CodePoint)]) := by
    have htextual : (Ty.simple .string).isTextual = true := rfl
    rw [prepare, if_pos htextual, if_neg hquoted, ← List.flatMap_def, List.flatMap_singleton']
    simp [Text.concat, Text.ofString]
  have hparse : Literal.parse (prepare raw (.simple .string)) (.simple .string) =
      .ok (.string raw) := by
    obtain ⟨hhead, hlast⟩ := Literal.isBlank_ends_of_quoted (raw.map fun c => [c]).flatten
    refine Literal.parse_string_eq_ok_iff.mpr ⟨_, raw, hunits, ?_, rfl⟩
    rw [hprepare, Text.trim_of_ends hhead hlast]
  simp only [coerce, htype, hparse]

end Argument

/-- A text is a string literal if it is units between quotation marks and blanks. A code of more than
31 bits behind units is an error of its own, and every other text is refused. So a word of characters
that stand for themselves is the argument it denotes. -/
theorem Literal.parse_string (text : Text) :
    (∀ v, parse text (.simple .string) = .ok v ↔ ∃ units s, List.Forall₂ IsUnit units s ∧
        text.trim = ('"' : CodePoint) :: (units.flatten ++ [('"' : CodePoint)]) ∧ v = .string s) ∧
      (parse text (.simple .string) = .error .codePointOverflow ↔
        ∃ rest, text.trimLeft = ('"' : CodePoint) :: rest ∧ StartsWide rest) ∧
      (∀ e, parse text (.simple .string) = .error e → e = .codePointOverflow ∨ e.IsRefusal) ∧
      ∀ parameter : Parameter, parameter.type.leaf = .simple .string → text ≠ [] →
        (∀ c ∈ text, c ≠ '"' ∧ c ≠ '\\' ∧ c ≠ '\n') →
        Argument.coerce parameter text = .ok (.string text) := by
  refine ⟨fun v => parse_string_eq_ok_iff, ⟨fun h => ?_, ?_⟩, fun e h => ?_,
    fun parameter htype hne hplain => Argument.coerce_plain htype hne hplain⟩
  · rcases parse_string_eq_error h with hrefusal | ⟨-, hwide⟩
    · exact hrefusal.elim
    · exact hwide
  · rintro ⟨rest, hleft, hwide⟩
    refine parse_eq_error_iff.mpr (.inl ?_)
    rw [read_string, hleft]
    exact map_eq_error_iff.mpr (stringBody_of_startsWide hwide)
  · exact (parse_string_eq_error h).symm.imp_left And.left

/-- A letter, an escape and a code between blanks, an unknown escape, a wide code with no end behind it,
and a word that is an argument as it stands. -/
theorem Literal.parse_string_units :
    parse " \"a\\n\\u\x7b1f600\x7d\" " (.simple .string) =
        .ok (.string ['a', '\n', ⟨0x1f600, by decide⟩]) ∧
      (∃ e, parse "\"\\x\"" (.simple .string) = .error e ∧ e.IsRefusal) ∧
      parse "\"\\t\\u\x7b80000000\x7d" (.simple .string) = .error .codePointOverflow ∧
      Argument.coerce ⟨[], "s", .simple .string, "String"⟩ "it's" = .ok (.string "it's") := by
  obtain ⟨haccepts, -, -, -⟩ := parse_string " \"a\\n\\u\x7b1f600\x7d\" "
  obtain ⟨-, -, hrefuses, -⟩ := parse_string "\"\\x\""
  obtain ⟨-, hwide, -, -⟩ := parse_string "\"\\t\\u\x7b80000000\x7d"
  obtain ⟨-, -, -, hargument⟩ := parse_string "it's"
  refine ⟨(haccepts _).mpr ⟨["a", "\\n", codeEscape "1f600"], _, ?_, by decide, rfl⟩, ?_, ?_, ?_⟩
  · exact .cons (.plain (by decide) (by decide) (by decide)) (.cons (.short (by decide))
      (.cons (.code ⟨by decide, by decide, by decide, by decide⟩) .nil))
  · have hunknown : parse "\"\\x\"" (.simple .string) = .error (.invalidEscape "x") := by
      cbv
    exact ⟨_, hunknown, (hrefuses _ hunknown).resolve_left (by simp)⟩
  · exact hwide.mpr ⟨_, rfl, ["\\t"], ['\t'], "80000000", 0x80000000, [],
      .cons (.short (by decide)) .nil, ⟨by decide, by decide, by decide, by decide⟩, by decide, rfl⟩
  · exact hargument _ rfl (by decide) (by decide)

end ContractKit
