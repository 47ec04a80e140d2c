import ContractKit.Proofs.JsonString
import ContractKit.Proofs.Literal

/-!
# The spelling of scalars

The words that numbers, addresses and truth values are printed as, and the texts of paths, are read as
literals up to whatever ends a word (`Literal.Ends`), and denote the same values. Strings are printed
as in JSON. A string is read back from that text if all its characters are legible, which is to say
that JSON leaves them as they are or has an escape for them that literals have too
(`Literal.stringBody_flatMap_escaped`). Any other character stands there as an escape that literals do
not have (`Literal.exists_error_of_flatMap_escaped`).
-/

namespace ContractKit

/-- Printable ASCII, a line feed, a carriage return or a tab. -/
def CodePoint.IsLegible (c : CodePoint) : Prop :=
  (0x20 ≤ c.val ∧ c.val ≤ 0x7e) ∨ c = '\n' ∨ c = '\r' ∨ c = '\t'

instance (c : CodePoint) : Decidable c.IsLegible := by
  unfold CodePoint.IsLegible
  infer_instance

theorem CodePoint.not_isLegible {c : CodePoint} (hplain : ¬ (0x20 ≤ c.val ∧ c.val < 0x7f))
    (hline : c ≠ '\n') (hreturn : c ≠ '\r') (htab : c ≠ '\t') : ¬ c.IsLegible := by
  rintro (h | h | h | h)
  · omega
  · exact hline h
  · exact hreturn h
  · exact htab h

/-- All characters of the text are legible. -/
def Text.IsLegible (t : Text) : Prop :=
  ∀ c ∈ t, c.IsLegible

instance (t : Text) : Decidable t.IsLegible := by
  unfold Text.IsLegible
  infer_instance

/-- The text is refused as no literal: no limit on the size of numbers was hit in reading it. -/
def LiteralError.IsRefusal : LiteralError → Prop
  | .numeral _ | .codePointOverflow => False
  | _ => True

/-- Literals do not have the escape that was met. -/
def LiteralError.IsUnknownEscape : LiteralError → Prop
  | .invalidEscape _ | .invalidUnicodeEscape => True
  | _ => False

namespace Literal

/-! ## Words -/

/-- What follows a word: nothing that it goes on with. -/
def EndsWord (rest : Text) : Prop :=
  ∀ c ∈ rest.head?, isWordPart c = false

/-- What follows a literal: nothing that a word or the word `nil` goes on with. -/
def Ends (rest : Text) : Prop :=
  ∀ c ∈ rest.head?, isWordPart c = false ∧ c.isAlphanumeric = false

theorem Ends.endsWord {rest : Text} (h : Ends rest) : EndsWord rest :=
  fun c hc => (h c hc).1

theorem Ends.continuesIdentifier {rest : Text} (h : Ends rest) :
    ∀ c ∈ rest.head?, c.continuesIdentifier = false :=
  fun c hc => (Bool.or_eq_false_iff.mp (h c hc).1).1

theorem endsWord_of_word {s found rest : Text} (h : word s = .ok (found, rest)) : EndsWord rest := by
  unfold word at h
  split at h
  split at h
  · cases h
  · obtain ⟨-, rfl⟩ := Prod.mk.inj (Except.ok.inj h)
    exact Text.head_dropWhile _

theorem ends_nil : Ends [] :=
  nofun

theorem ends_cons {c : CodePoint} (hword : isWordPart c = false)
    (halphanumeric : c.isAlphanumeric = false) (rest : Text) : Ends (c :: rest) := by
  intro d hd
  rw [← Option.some.inj hd]
  exact ⟨hword, halphanumeric⟩

section

variable {found rest : Text} (hfound : ∀ c ∈ found, isWordPart c = true) (hne : found ≠ [])
  (hrest : EndsWord rest)
include hfound hne hrest

theorem word_append : word (found ++ rest) = .ok (found, rest) := by
  obtain ⟨c, tail, rfl⟩ := List.exists_cons_of_ne_nil hne
  have hminus : c ≠ '-' := by
    rintro rfl
    exact absurd (hfound _ List.mem_cons_self) (by decide)
  have htake := Text.takeWhile_run hfound hrest
  have hdrop := Text.dropWhile_run hfound hrest
  rw [List.cons_append] at htake hdrop ⊢
  simp only [word, if_neg hminus, htake, hdrop, List.nil_append]

theorem word_minus_append :
    word (('-' : CodePoint) :: (found ++ rest)) = .ok (('-' : CodePoint) :: found, rest) := by
  simp only [word, if_pos, Text.takeWhile_run hfound hrest, Text.dropWhile_run hfound hrest]
  obtain ⟨c, tail, rfl⟩ := List.exists_cons_of_ne_nil hne
  rfl

end

theorem isWordPart_of_isAsciiDigit {c : CodePoint} (h : c.isAsciiDigit = true) :
    isWordPart c = true := by
  simp [isWordPart, CodePoint.continuesIdentifier, h]

theorem isWordPart_of_mem_digits {ds : List Nat} (h : ∀ d ∈ ds, d < 10) :
    ∀ c ∈ ds.map Numeral.digitChar, isWordPart c = true :=
  fun c hc => isWordPart_of_isAsciiDigit (Numeral.isAsciiDigit_of_mem_map h c hc)

theorem word_ofInt (n : Int) {rest : Text} (hrest : Ends rest) :
    word (Numeral.ofInt n ++ rest) = .ok (Numeral.ofInt n, rest) := by
  have hdigits := isWordPart_of_mem_digits (Numeral.lt_of_mem_digits (by omega) n.natAbs)
  have hne := Numeral.ofNat_ne_nil 10 n.natAbs
  unfold Numeral.ofInt
  split_ifs
  · exact word_minus_append hdigits hne hrest.endsWord
  · exact word_append hdigits hne hrest.endsWord

theorem isWordPart_of_mem_unsigned (units : Nat) :
    ∀ c ∈ Numeral.ofNat 10 (units / fixedFactor) ++
      ('.' : CodePoint) :: (FixedPoint.placeDigits units).map Numeral.digitChar,
      isWordPart c = true := by
  intro c hc
  rcases List.mem_append.mp hc with hc | hc
  · exact isWordPart_of_mem_digits (Numeral.lt_of_mem_digits (by omega) _) c hc
  rcases List.mem_cons.mp hc with rfl | hc
  · decide
  · exact isWordPart_of_mem_digits (fun _ => FixedPoint.lt_of_mem_placeDigits) c hc

theorem word_write (raw : Int) {rest : Text} (hrest : Ends rest) :
    word (FixedPoint.write raw ++ rest) = .ok (FixedPoint.write raw, rest) := by
  rw [FixedPoint.write_eq]
  split_ifs
  · exact word_minus_append (isWordPart_of_mem_unsigned _) (by simp) hrest.endsWord
  · exact word_append (isWordPart_of_mem_unsigned _) (by simp) hrest.endsWord

/-- A word of `0x` and hexadecimal digits. -/
theorem word_prefixed {digits : Text} (hdigits : ∀ c ∈ digits, Numeral.isHexDigit c = true)
    {rest : Text} (hrest : EndsWord rest) :
    word ("0x" ++ digits ++ rest) = .ok ("0x" ++ digits, rest) := by
  refine word_append (List.forall_mem_append.mpr ⟨by decide, fun c hc => ?_⟩) (by simp [Text.ofString])
    hrest
  exact CodePoint.of_isHexDigit (P := fun c => isWordPart c = true) (by decide) (by decide) (by decide)
    (hdigits c hc)

theorem word_address {digits : Text} (h : Address.IsCanonical digits) {rest : Text}
    (hrest : Ends rest) :
    word (.concat ["0x", digits] ++ rest) = .ok (.concat ["0x", digits], rest) := by
  rw [show Text.concat ["0x", digits] = "0x" ++ digits by simp [Text.concat]]
  exact word_prefixed h.isDigits.2.2 hrest.endsWord

/-! ## Numbers, addresses and truth values -/

theorem isGrouped_of_forall {isDigit : CodePoint → Bool} {s : Text}
    (h : ∀ c ∈ s, isDigit c = true) (hne : s ≠ []) : isGrouped isDigit s = true := by
  have hall : (s.all fun c => isDigit c || c = '_') = true :=
    List.all_eq_true.mpr fun c hc => by simp [h c hc]
  have hhead : s.head?.any isDigit = true := by
    simp [List.head?_eq_some_head hne, h _ (List.head_mem hne)]
  have hlast : s.getLast?.any isDigit = true := by
    simp [List.getLast?_eq_some_getLast hne, h _ (List.getLast_mem hne)]
  simp only [isGrouped, hall, hhead, hlast, Bool.and_self]

theorem ungroup_of_not_mem {s : Text} (h : ('_' : CodePoint) ∉ s) : ungroup s = s :=
  List.filter_eq_self.mpr fun c hc => by simpa using ne_of_mem_of_not_mem hc h

theorem splitSign_ofInt (n : Int) :
    splitSign (Numeral.ofInt n) = (decide (n < 0), Numeral.ofNat 10 n.natAbs) := by
  unfold Numeral.ofInt
  split_ifs with hneg
  · simp only [splitSign, Numeral.dropStart?_minus_cons, hneg, decide_true]
  · simp only [splitSign, Numeral.dropStart?_minus_ofNat, hneg, decide_false]

/-- A decimal numeral does not start like one of another base. -/
theorem splitBase_ofNat (n : Nat) : splitBase (Numeral.ofNat 10 n) = (10, Numeral.ofNat 10 n) := by
  have hnot : ∀ c : CodePoint, c.isAsciiDigit = false → c ∉ Numeral.ofNat 10 n :=
    fun c hc hmem => by simp [Numeral.isAsciiDigit_of_mem_ofNat c hmem] at hc
  have hx : Text.dropStart? "0x" (Numeral.ofNat 10 n) = none :=
    Text.dropStart?_eq_none (c := 'x') (by decide) (hnot _ (by decide))
  have hb : Text.dropStart? "0b" (Numeral.ofNat 10 n) = none :=
    Text.dropStart?_eq_none (c := 'b') (by decide) (hnot _ (by decide))
  have ho : Text.dropStart? "0o" (Numeral.ofNat 10 n) = none :=
    Text.dropStart?_eq_none (c := 'o') (by decide) (hnot _ (by decide))
  simp only [splitBase, hx, hb, ho]

theorem filterMap_digitChar {ds : List Nat} (h : ∀ d ∈ ds, d < 16) :
    (ds.map Numeral.digitChar).filterMap Numeral.hexValue? = ds := by
  rw [List.filterMap_map]
  conv_rhs => rw [← List.filterMap_some (l := ds)]
  exact List.filterMap_congr fun d hd => Numeral.hexValue?_digitChar d (h d hd)

theorem digitsValue_ofNat {n : Nat} (h : Numeral.IsShort n) :
    digitsValue 10 (Numeral.ofNat 10 n) = .ok n := by
  have hlength : ¬ Numeral.decimalLimit < (Numeral.ofNat 10 n).length := by
    rw [Numeral.ofNat, List.length_map]
    exact Nat.not_lt.mpr h
  rw [digitsValue, if_neg fun hlong => hlength hlong.2, Numeral.ofNat, filterMap_digitChar,
    Numeral.value_digits (by omega)]
  exact fun d hd => (Numeral.lt_of_mem_digits (by omega) n d hd).trans (by omega)

/-- The decimal numeral of a number in the range of the type denotes it. -/
theorem integer_ofInt {kind : IntegerKind} {n : Int} (hshort : Numeral.IsShort n)
    (hrange : kind.InRange n) : integer kind (Numeral.ofInt n) = .ok (.integer kind n) := by
  have hdigit : ∀ c ∈ Numeral.ofNat 10 n.natAbs, isDigitOf 10 c = true := by
    intro c hc
    obtain ⟨d, hd, rfl⟩ := List.mem_map.mp hc
    have hlt := Numeral.lt_of_mem_digits (by omega) n.natAbs d hd
    simpa [isDigitOf, Numeral.hexValue?_digitChar d (by omega)] using hlt
  have hplain : ('_' : CodePoint) ∉ Numeral.ofNat 10 n.natAbs :=
    fun h => absurd (hdigit _ h) (by decide)
  have hnumber : (if decide (n < 0) = true then -(n.natAbs : Int) else n.natAbs) = n := by
    split_ifs with hneg <;> simp only [decide_eq_true_eq] at hneg <;> omega
  simp only [integer, splitSign_ofInt, splitBase_ofNat,
    isGrouped_of_forall hdigit (Numeral.ofNat_ne_nil 10 _), if_true, ungroup_of_not_mem hplain,
    digitsValue_ofNat (n := n.natAbs) hshort, hnumber, IntegerKind.check_of_inRange hrange]

theorem splitSign_write (raw : Int) : (splitSign (FixedPoint.write raw)).2 =
    Numeral.ofNat 10 (raw.natAbs / fixedFactor) ++
      ('.' : CodePoint) :: (FixedPoint.placeDigits raw.natAbs).map Numeral.digitChar := by
  rw [FixedPoint.write_eq]
  split_ifs
  · rw [splitSign, Text.dropStart?_append]
  · rw [List.nil_append, splitSign, Text.dropStart?_eq_none (c := '-') (by decide)]
    exact fun h => absurd (isWordPart_of_mem_unsigned _ _ h) (by decide)

theorem isFixedPoint_write (raw : Int) : isFixedPoint (FixedPoint.write raw) = true := by
  have hwhole : ∀ c ∈ Numeral.ofNat 10 (raw.natAbs / fixedFactor), c.isAsciiDigit = true :=
    Numeral.isAsciiDigit_of_mem_ofNat
  have hplaces : ∀ c ∈ (FixedPoint.placeDigits raw.natAbs).map Numeral.digitChar,
      c.isAsciiDigit = true :=
    Numeral.isAsciiDigit_of_mem_map fun _ => FixedPoint.lt_of_mem_placeDigits
  have hplaces_ne : (FixedPoint.placeDigits raw.natAbs).map Numeral.digitChar ≠ [] := by
    rw [← List.length_pos_iff, List.length_map, FixedPoint.length_placeDigits]
    decide
  have hrun : ∀ c ∈ Numeral.ofNat 10 (raw.natAbs / fixedFactor),
      decide (c ≠ ('.' : CodePoint)) = true := by
    intro c hc
    rw [decide_eq_true_eq]
    rintro rfl
    exact absurd (hwhole _ hc) (by decide)
  have hpoint : ∀ c ∈ (('.' : CodePoint) ::
      (FixedPoint.placeDigits raw.natAbs).map Numeral.digitChar).head?,
      decide (c ≠ ('.' : CodePoint)) = false := by
    intro c hc
    simp [← Option.some.inj hc]
  simp only [isFixedPoint, splitSign_write, Text.takeWhile_run hrun hpoint,
    Text.dropWhile_run hrun hpoint, List.drop_succ_cons, List.drop_zero,
    isGrouped_of_forall hwhole (Numeral.ofNat_ne_nil 10 _), isGrouped_of_forall hplaces hplaces_ne,
    Bool.and_self]

theorem fixedPoint_write {kind : FixedKind} {raw : Int} (h : kind.InRange raw) :
    fixedPoint kind (FixedPoint.write raw) = .ok (.fixed kind raw) := by
  have hplain : ('_' : CodePoint) ∉ FixedPoint.write raw := by
    intro hmem
    rcases FixedPoint.of_mem_write hmem with h | h | h <;> exact absurd h (by decide)
  simp only [fixedPoint, isFixedPoint_write, if_true, ungroup_of_not_mem hplain,
    FixedPoint.read_write h]

/-- A word with `0x` before its digits is an address unless it has too many. -/
theorem address_prefixed {digits : Text} (hne : digits ≠ [])
    (hdigits : ∀ c ∈ digits, Numeral.isHexDigit c = true) {v : Value} :
    address ("0x" ++ digits) = .ok v ↔
      Address.IsDigits digits ∧ v = .address (.concat ["0x", Address.fill digits]) := by
  have hholds : Address.Holds ("0x" ++ digits) digits := Address.holds_append hdigits (by decide)
  simp only [address, Text.dropStart?_append, if_pos (And.intro hne (List.all_eq_true.mpr hdigits))]
  cases hnormal : Address.normalize ("0x" ++ digits) with
  | ok found =>
    obtain ⟨hisDigits, rfl⟩ := (Address.normalize_of_holds hdigits hholds).mp hnormal
    simp only [hisDigits, Except.ok.injEq, true_and]
    exact eq_comm
  | error e =>
    refine iff_of_false nofun fun h => ?_
    rw [(Address.normalize_of_holds hdigits hholds).mpr ⟨h.1, rfl⟩] at hnormal
    cases hnormal

theorem address_canonical {digits : Text} (h : Address.IsCanonical digits) :
    address (.concat ["0x", digits]) = .ok (.address (.concat ["0x", digits])) := by
  have haddress := (address_prefixed h.ne_nil h.isDigits.2.2).mpr ⟨h.isDigits, rfl⟩
  rw [h.fill_eq] at haddress
  rwa [show Text.concat ["0x", digits] = "0x" ++ digits by simp [Text.concat]] at haddress ⊢

/-! ## Strings -/

theorem stringBody_quote (rest : Text) : stringBody (('"' : CodePoint) :: rest) = .ok ([], rest) := by
  rw [stringBody, if_pos rfl]

theorem stringBody_plain {c : CodePoint} (hquote : c ≠ '"') (hline : c ≠ '\n') (hslash : c ≠ '\\')
    (rest : Text) :
    stringBody (c :: rest) = (stringBody rest).map fun (t, left) => (c :: t, left) := by
  rw [stringBody, if_neg hquote, if_neg hline, if_neg hslash]

theorem stringBody_escape {d : CodePoint} {s after : Text} (h : escape s = .ok (d, after)) :
    stringBody (('\\' : CodePoint) :: s) =
      (stringBody after).map fun (t, left) => (d :: t, left) := by
  rw [stringBody, if_neg (by decide), if_neg (by decide), if_pos rfl]
  split
  · next e herror => rw [h] at herror; cases herror
  · next found left hfound =>
    rw [h] at hfound
    cases hfound
    rfl

theorem stringBody_escape_error {s : Text} {e : LiteralError} (h : escape s = .error e) :
    stringBody (('\\' : CodePoint) :: s) = .error e := by
  rw [stringBody, if_neg (by decide), if_neg (by decide), if_pos rfl]
  split
  · next e' herror => exact congrArg _ (Except.error.inj (herror.symm.trans h))
  · next found left hfound => rw [h] at hfound; cases hfound

/-- A UTF-16 unit is escaped without braces. -/
theorem escape_unitEscape (unit : Nat) (rest : Text) :
    ∃ s, Json.unitEscape unit ++ rest = ('\\' : CodePoint) :: s ∧
      escape s = .error .invalidUnicodeEscape := by
  have hne : Numeral.hexDigits 4 unit ≠ [] := by
    simp [Numeral.hexDigits, Numeral.digits_ne_nil]
  obtain ⟨d, ds, hds⟩ := List.exists_cons_of_ne_nil hne
  have hd : Numeral.digitChar d ≠ '\x7b' := by
    have hlt := Numeral.lt_of_mem_hexDigits 4 unit d (hds ▸ List.mem_cons_self)
    intro heq
    have := Numeral.isAddressDigit_digitChar hlt
    rw [heq] at this
    exact absurd this (by decide)
  have hbrace : ∀ s, unicodeEscape (Numeral.digitChar d :: s) = .error .invalidUnicodeEscape := by
    intro s
    simp only [unicodeEscape]
    split
    · rfl
    · exact if_neg fun h => hd h.1
  refine ⟨('u' : CodePoint) :: (Numeral.hexadecimal 4 unit ++ rest), rfl, ?_⟩
  rw [Numeral.hexadecimal_eq, hds, List.map_cons, List.cons_append]
  exact hbrace _

/-- JSON leaves a legible character as it is or has an escape for it that literals have too. Any other
character gets an escape that literals do not have. -/
theorem escaped_cases (c : CodePoint) :
    (c.IsLegible ∧ ((Json.escaped c = [c] ∧ c ≠ '"' ∧ c ≠ '\n' ∧ c ≠ '\\') ∨
        ∃ d, Json.escaped c = [('\\' : CodePoint), d] ∧ shortEscape? d = some c)) ∨
      (¬ c.IsLegible ∧ ∀ rest, ∃ s e, Json.escaped c ++ rest = ('\\' : CodePoint) :: s ∧
        escape s = .error e ∧ e.IsUnknownEscape) := by
  unfold Json.escaped
  split_ifs with hmark hline hreturn htab hback hform hplain hunit
  · rcases hmark with rfl | rfl
    · exact .inl ⟨by decide, .inr ⟨_, rfl, by decide⟩⟩
    · exact .inl ⟨by decide, .inr ⟨_, rfl, by decide⟩⟩
  · subst hline
    exact .inl ⟨by decide, .inr ⟨_, rfl, by decide⟩⟩
  · subst hreturn
    exact .inl ⟨by decide, .inr ⟨_, rfl, by decide⟩⟩
  · subst htab
    exact .inl ⟨by decide, .inr ⟨_, rfl, by decide⟩⟩
  · exact .inr ⟨CodePoint.not_isLegible (by omega) hline hreturn htab,
      fun rest => ⟨('b' : CodePoint) :: rest, _, rfl, rfl, trivial⟩⟩
  · exact .inr ⟨CodePoint.not_isLegible (by omega) hline hreturn htab,
      fun rest => ⟨('f' : CodePoint) :: rest, _, rfl, rfl, trivial⟩⟩
  · rw [not_or] at hmark
    exact .inl ⟨.inl ⟨hplain.1, by omega⟩, .inl ⟨rfl, hmark.1, hline, hmark.2⟩⟩
  · refine .inr ⟨CodePoint.not_isLegible hplain hline hreturn htab, fun rest => ?_⟩
    obtain ⟨s, hs, hescape⟩ := escape_unitEscape c.val rest
    exact ⟨s, _, hs, hescape, trivial⟩
  · refine .inr ⟨CodePoint.not_isLegible hplain hline hreturn htab, fun rest => ?_⟩
    rw [List.append_assoc]
    obtain ⟨s, hs, hescape⟩ := escape_unitEscape (0xd800 + (c.val - 0x10000) / 0x400) _
    exact ⟨s, _, hs, hescape, trivial⟩

theorem stringBody_escaped {c : CodePoint} (hc : c.IsLegible) (rest : Text) :
    stringBody (Json.escaped c ++ rest) =
      (stringBody rest).map fun (t, left) => (c :: t, left) := by
  rcases escaped_cases c with ⟨-, ⟨hplain, hquote, hline, hslash⟩ | ⟨d, hescaped, hshort⟩⟩ | ⟨hnot, -⟩
  · rw [hplain]
    exact stringBody_plain hquote hline hslash rest
  · rw [hescaped]
    refine stringBody_escape (s := d :: rest) ?_
    simp only [escape, hshort]
  · exact absurd hc hnot

theorem exists_error_of_escaped {c : CodePoint} (hc : ¬ c.IsLegible) (rest : Text) :
    ∃ e, stringBody (Json.escaped c ++ rest) = .error e ∧ e.IsUnknownEscape := by
  rcases escaped_cases c with ⟨hlegible, -⟩ | ⟨-, hescaped⟩
  · exact absurd hlegible hc
  · obtain ⟨s, e, hs, hescape, he⟩ := hescaped rest
    exact ⟨e, hs ▸ stringBody_escape_error hescape, he⟩

/-- A string of legible characters is read back from between its quotation marks. -/
theorem stringBody_flatMap_escaped {t : Text} (h : t.IsLegible) (rest : Text) :
    stringBody (t.flatMap Json.escaped ++ ('"' : CodePoint) :: rest) = .ok (t, rest) := by
  induction t with
  | nil => exact stringBody_quote rest
  | cons c t ih =>
    rw [List.flatMap_cons, List.append_assoc, stringBody_escaped (h c List.mem_cons_self),
      ih fun d hd => h d (List.mem_cons_of_mem c hd)]
    rfl

/-- The first character that is not legible makes the reader stop. -/
theorem exists_error_of_flatMap_escaped {t : Text} (h : ¬ t.IsLegible) (rest : Text) :
    ∃ e, stringBody (t.flatMap Json.escaped ++ rest) = .error e ∧ e.IsUnknownEscape := by
  induction t with
  | nil => exact absurd (fun c hc => absurd hc List.not_mem_nil) h
  | cons c t ih =>
    rw [List.flatMap_cons, List.append_assoc]
    by_cases hc : c.IsLegible
    · obtain ⟨e, herror, he⟩ := ih fun ht => h (List.forall_mem_cons.mpr ⟨hc, ht⟩)
      refine ⟨e, ?_, he⟩
      rw [stringBody_escaped hc, herror]
      rfl
    · exact exists_error_of_escaped hc _

theorem string_quotedString {t : Text} (h : t.IsLegible) (rest : Text) :
    string (Json.quotedString t ++ rest) = .ok (t, rest) := by
  rw [Json.quotedString_append]
  exact stringBody_flatMap_escaped h rest

theorem exists_error_of_quotedString {t : Text} (h : ¬ t.IsLegible) (rest : Text) :
    ∃ e, string (Json.quotedString t ++ rest) = .error e ∧ e.IsUnknownEscape := by
  rw [Json.quotedString_append]
  exact exists_error_of_flatMap_escaped h _

/-! ## Paths -/

theorem identifier_append {name rest : Text} (h : name.IsIdentifier)
    (hrest : ∀ c ∈ rest.head?, c.continuesIdentifier = false) :
    identifier (name ++ rest) = (name, rest) := by
  obtain ⟨c, tail, rfl, hstart, htail⟩ := h
  rw [List.cons_append, identifier, if_pos hstart, Text.takeWhile_run htail hrest,
    Text.dropWhile_run htail hrest]

theorem isIdentifier_of_mem_domains {kind : PathKind} {domain : Text} (h : domain ∈ kind.domains) :
    domain.IsIdentifier := by
  have hdomains : ∀ known ∈ pathDomains, ∃ c rest, known = c :: rest ∧
      c.startsIdentifier = true ∧ ∀ d ∈ rest, d.continuesIdentifier = true := by
    intro known hknown
    simp only [pathDomains, List.mem_cons, List.not_mem_nil, or_false] at hknown
    rcases hknown with rfl | rfl | rfl <;> exact ⟨_, _, rfl, by decide, by decide⟩
  exact hdomains domain (Value.HasType.domains_subset kind domain h)

theorem path_append {kind : PathKind} {domain name rest : Text} (hdomain : domain ∈ kind.domains)
    (hname : name.IsIdentifier) (hrest : ∀ c ∈ rest.head?, c.continuesIdentifier = false) :
    path kind (.concat ["/", domain, "/", name] ++ rest) = .ok (.path domain name, rest) := by
  have hfirst : identifier (domain ++ ("/" ++ (name ++ rest))) =
      (domain, "/" ++ (name ++ rest)) :=
    identifier_append (isIdentifier_of_mem_domains hdomain)
      fun c hc => Option.some.inj hc ▸ by decide
  have hsecond : identifier (name ++ rest) = (name, rest) := identifier_append hname hrest
  have htext : Text.concat ["/", domain, "/", name] ++ rest =
      "/" ++ (domain ++ ("/" ++ (name ++ rest))) := by
    simp [Text.concat]
  obtain ⟨c, tail, rfl, -⟩ := hname
  rw [htext, path, Text.dropStart?_append]
  simp only [hfirst, if_pos hdomain, Text.dropStart?_append, hsecond]

end Literal

end ContractKit
