import ContractKit.Proofs.OptionalArgument

/-!
# Integer literals are exact

An integer literal is a spelling between blanks: a minus sign or none, the mark of a base, and digits of
the base with runs of `_` between digits only (`Literal.IntegerSpelling`). It denotes its positional
value, if this is in the range of the type. Decimal spellings are limited in length
(`Literal.IntegerSpelling.IsOverlong`), and this limit is an error of its own, met by every text that
starts with an overlong word. All other texts are refused (`Literal.parse_integer`).
-/

namespace ContractKit.Literal

/-! ## Groups of digits -/

/-- The text consists of digits of the base, of the given values, with any number of `_` between two of
them. -/
inductive Grouped (base : Nat) : Text → List Nat → Prop
  /-- The last digit. -/
  | last {c : CodePoint} {d : Nat} : Numeral.hexValue? c = some d → d < base → Grouped base [c] [d]
  /-- A digit with others behind it. -/
  | digit {c : CodePoint} {d : Nat} (gap : Nat) {s : Text} {ds : List Nat} :
      Numeral.hexValue? c = some d → d < base → Grouped base s ds →
      Grouped base (c :: (List.replicate gap ('_' : CodePoint) ++ s)) (d :: ds)

theorem isDigitOf_iff {base : Nat} {c : CodePoint} :
    isDigitOf base c = true ↔ ∃ d, Numeral.hexValue? c = some d ∧ d < base := by
  simp [isDigitOf, Option.any_eq_true]

theorem isDigitOf_underscore (base : Nat) : isDigitOf base '_' = false :=
  rfl

namespace Grouped

variable {base : Nat} {s : Text} {ds : List Nat}

theorem ne_nil (h : Grouped base s ds) : s ≠ [] := by
  cases h <;> simp

theorem of_mem (h : Grouped base s ds) : ∀ c ∈ s, isDigitOf base c = true ∨ c = '_' := by
  induction h with
  | last hd hlt => exact List.forall_mem_singleton.mpr (.inl (isDigitOf_iff.mpr ⟨_, hd, hlt⟩))
  | digit gap hd hlt _ ih =>
    refine List.forall_mem_cons.mpr ⟨.inl (isDigitOf_iff.mpr ⟨_, hd, hlt⟩), ?_⟩
    exact List.forall_mem_append.mpr ⟨fun c hc => .inr (List.eq_of_mem_replicate hc), ih⟩

theorem head?_any (h : Grouped base s ds) : s.head?.any (isDigitOf base) = true := by
  cases h with
  | last hd hlt | digit _ hd hlt => exact isDigitOf_iff.mpr ⟨_, hd, hlt⟩

theorem getLast?_any (h : Grouped base s ds) : s.getLast?.any (isDigitOf base) = true := by
  induction h with
  | last hd hlt => exact isDigitOf_iff.mpr ⟨_, hd, hlt⟩
  | digit gap _ _ hs ih => rwa [← List.cons_append, List.getLast?_append_of_ne_nil _ hs.ne_nil]

/-- Digits and `_` up to a last digit are groups, behind the `_` they start with. -/
theorem exists_replicate_append {s : Text} (hall : ∀ c ∈ s, isDigitOf base c = true ∨ c = '_')
    (hlast : ∀ c ∈ s.getLast?, isDigitOf base c = true) (hne : s ≠ []) :
    ∃ gap s' ds, s = List.replicate gap ('_' : CodePoint) ++ s' ∧ Grouped base s' ds := by
  induction s with
  | nil => exact absurd rfl hne
  | cons c s ih =>
    obtain ⟨hc, hs⟩ := List.forall_mem_cons.mp hall
    by_cases hs' : s = []
    · subst hs'
      obtain ⟨d, hd, hlt⟩ := isDigitOf_iff.mp (hlast c rfl)
      exact ⟨0, [c], [d], rfl, .last hd hlt⟩
    · rw [List.getLast?_cons_of_ne_nil hs'] at hlast
      obtain ⟨gap, s, ds, rfl, hgrouped⟩ := ih hs hlast hs'
      rcases hc with hc | rfl
      · obtain ⟨d, hd, hlt⟩ := isDigitOf_iff.mp hc
        exact ⟨0, _, d :: ds, rfl, .digit gap hd hlt hgrouped⟩
      · exact ⟨gap + 1, s, ds, rfl, hgrouped⟩

theorem exists_iff : (∃ ds, Grouped base s ds) ↔ isGrouped (isDigitOf base) s = true := by
  constructor
  · rintro ⟨ds, h⟩
    have hall : (s.all fun c => isDigitOf base c || c = '_') = true :=
      List.all_eq_true.mpr fun c hc => by simpa using h.of_mem c hc
    rw [isGrouped, hall, h.head?_any, h.getLast?_any]
    rfl
  · intro h
    simp only [isGrouped, Bool.and_eq_true, List.all_eq_true, Bool.or_eq_true, decide_eq_true_eq,
      Option.any_eq_true] at h
    obtain ⟨⟨hall, c, hhead, hc⟩, e, hlast, he⟩ := h
    have hne : s ≠ [] := by
      rintro rfl
      cases hhead
    obtain ⟨gap, s', ds, rfl, hgrouped⟩ := exists_replicate_append hall
      (fun e' he' => Option.some.inj (hlast.symm.trans he') ▸ he) hne
    cases gap with
    | zero => exact ⟨ds, hgrouped⟩
    | succ gap =>
      -- The first character is a digit and no `_`.
      obtain rfl : ('_' : CodePoint) = c := Option.some.inj hhead
      rw [isDigitOf_underscore] at hc
      cases hc

/-- What is left without the `_` are the digits. -/
theorem ungroup_eq (h : Grouped base s ds) :
    (ungroup s).filterMap Numeral.hexValue? = ds ∧ (ungroup s).length = ds.length := by
  have hdigit : ∀ {c : CodePoint} {d : Nat}, Numeral.hexValue? c = some d → c ≠ '_' := by
    rintro c d hc rfl
    cases hc
  induction h with
  | last hd _ => simp [ungroup, hdigit hd, hd]
  | @digit c d gap s ds hd hlt h ih =>
    have hskip : ungroup (c :: (List.replicate gap ('_' : CodePoint) ++ s)) = c :: ungroup s := by
      simp [ungroup, hdigit hd]
    rw [hskip]
    simp [hd, ih]

end Grouped

/-! ## Spellings -/

/-- The bases that integers are written in. -/
inductive Base where
  | decimal
  | hexadecimal
  | octal
  | binary
deriving DecidableEq

namespace Base

/-- What stands in front of the digits. -/
def mark : Base → Text
  | decimal => []
  | hexadecimal => "0x"
  | octal => "0o"
  | binary => "0b"

/-- How many digits there are. -/
def radix : Base → Nat
  | decimal => 10
  | hexadecimal => 16
  | octal => 8
  | binary => 2

theorem radix_eq_ten_iff {base : Base} : base.radix = 10 ↔ base = .decimal := by
  cases base <;> decide

theorem isWordPart_of_mem_mark (base : Base) : ∀ c ∈ base.mark, isWordPart c = true := by
  cases base <;> decide

end Base

/-- An integer as it is written. -/
structure IntegerSpelling where
  /-- Whether there is a minus sign. -/
  negative : Bool
  /-- The base. -/
  base : Base
  /-- The digits, with `_` between them. -/
  groups : Text
  /-- The values of the digits. -/
  digits : List Nat
  isGrouped : Grouped base.radix groups digits

theorem isWordPart_of_isDigitOf {base : Nat} {c : CodePoint} (h : isDigitOf base c = true) :
    isWordPart c = true := by
  obtain ⟨d, hd, -⟩ := isDigitOf_iff.mp h
  have hhex : Numeral.isHexDigit c = true := by
    rw [Numeral.isHexDigit, hd]
    rfl
  rcases CodePoint.isHexDigit_iff.mp hhex with h | ⟨hlo, hhi⟩
  · exact CodePoint.of_isAddressDigit (P := fun c => isWordPart c = true) (by decide) (by decide) h
  · exact CodePoint.of_between (P := fun c => isWordPart c = true) (by decide) hlo hhi

namespace IntegerSpelling

variable (s : IntegerSpelling)

/-- The mark of the base and the digits. -/
def unsigned : Text :=
  s.base.mark ++ s.groups

/-- The text of a spelling. -/
def text : Text :=
  (if s.negative then "-" else [] : Text) ++ s.unsigned

/-- The number without its sign: every digit counts for `radix` times as much as the next. -/
def magnitude : Nat :=
  Nat.ofDigits s.base.radix s.digits.reverse

/-- The number that is written. -/
def number : Int :=
  if s.negative then -s.magnitude else s.magnitude

/-- The spelling is decimal and has more digits than can be read. -/
def IsOverlong : Prop :=
  s.base = .decimal ∧ Numeral.decimalLimit < s.digits.length

instance : Decidable s.IsOverlong := by
  unfold IsOverlong
  infer_instance

theorem isWordPart_of_mem_unsigned : ∀ c ∈ s.unsigned, isWordPart c = true := by
  intro c hc
  rcases List.mem_append.mp hc with hc | hc
  · exact s.base.isWordPart_of_mem_mark c hc
  · rcases s.isGrouped.of_mem c hc with hc | rfl
    · exact isWordPart_of_isDigitOf hc
    · rfl

theorem unsigned_ne_nil : s.unsigned ≠ [] :=
  List.append_ne_nil_of_right_ne_nil _ s.isGrouped.ne_nil

/-- A spelling is read as a word. -/
theorem word_text {rest : Text} (hrest : EndsWord rest) :
    word (s.text ++ rest) = .ok (s.text, rest) := by
  unfold text
  split_ifs
  · exact word_minus_append s.isWordPart_of_mem_unsigned s.unsigned_ne_nil hrest
  · exact word_append s.isWordPart_of_mem_unsigned s.unsigned_ne_nil hrest

/-- No blank ends a spelling. -/
theorem isBlank_getLast?_text : ∀ c ∈ s.text.getLast?, c.isBlank = false := by
  intro c hc
  rw [text, List.getLast?_append_of_ne_nil _ s.unsigned_ne_nil] at hc
  have hpart := s.isWordPart_of_mem_unsigned c (List.mem_of_mem_getLast? hc)
  by_contra hblank
  rw [Bool.not_eq_false] at hblank
  have hends := ends_of_forall_isBlank (List.forall_mem_singleton.mpr hblank)
  rw [(hends c rfl).1] at hpart
  cases hpart

/-! ### Taking spellings apart -/

theorem splitSign_text : splitSign s.text = (s.negative, s.unsigned) := by
  have hminus : ('-' : CodePoint) ∉ s.unsigned := by
    intro h
    have hpart := s.isWordPart_of_mem_unsigned _ h
    cases hpart
  unfold text
  cases s.negative with
  | true => simp only [if_true, splitSign, Text.dropStart?_append]
  | false =>
    have hnone : Text.dropStart? "-" s.unsigned = none :=
      Text.dropStart?_eq_none (c := '-') (by decide) hminus
    simp only [Bool.false_eq_true, if_false, List.nil_append, splitSign, hnone]

/-- A spelling does not start with a text that has a character found in no spelling of its base. -/
theorem dropStart?_unsigned {base : Base} (hbase : s.base = base) (start : Text) (c : CodePoint)
    (h : c ∈ start ∧ c ∉ base.mark ∧ isDigitOf base.radix c = false ∧ c ≠ '_') :
    Text.dropStart? start s.unsigned = none := by
  obtain ⟨hstart, hmark, hdigit, hne⟩ := h
  subst hbase
  refine Text.dropStart?_eq_none hstart fun hc => ?_
  rcases (List.mem_append.mp hc).imp_right (s.isGrouped.of_mem c) with hc | hc | hc
  · exact hmark hc
  · rw [hdigit] at hc
    cases hc
  · exact hne hc

theorem splitBase_unsigned : splitBase s.unsigned = (s.base.radix, s.groups) := by
  have hsome : Text.dropStart? s.base.mark s.unsigned = some s.groups := Text.dropStart?_append _ _
  unfold splitBase
  cases hbase : s.base with
  | decimal =>
    rw [s.dropStart?_unsigned hbase "0x" 'x' (by decide),
      s.dropStart?_unsigned hbase "0b" 'b' (by decide),
      s.dropStart?_unsigned hbase "0o" 'o' (by decide)]
    simp [unsigned, hbase, Base.mark, Base.radix]
  | hexadecimal =>
    rw [hbase] at hsome
    rw [show Text.dropStart? "0x" s.unsigned = some s.groups from hsome]
    rfl
  | octal =>
    rw [hbase] at hsome
    rw [s.dropStart?_unsigned hbase "0x" 'x' (by decide),
      s.dropStart?_unsigned hbase "0b" 'b' (by decide),
      show Text.dropStart? "0o" s.unsigned = some s.groups from hsome]
    rfl
  | binary =>
    rw [hbase] at hsome
    rw [s.dropStart?_unsigned hbase "0x" 'x' (by decide),
      show Text.dropStart? "0b" s.unsigned = some s.groups from hsome]
    rfl

end IntegerSpelling

theorem of_splitSign {found body : Text} {negative : Bool} (h : splitSign found = (negative, body)) :
    found = (if negative then "-" else [] : Text) ++ body := by
  unfold splitSign at h
  split at h
  · next hdrop =>
    obtain ⟨rfl, rfl⟩ := Prod.mk.inj h
    exact Text.dropStart?_eq_some_iff.mp hdrop
  · obtain ⟨rfl, rfl⟩ := Prod.mk.inj h
    rfl

theorem exists_base_of_splitBase {body digits : Text} {radix : Nat}
    (h : splitBase body = (radix, digits)) :
    ∃ base : Base, body = base.mark ++ digits ∧ base.radix = radix := by
  unfold splitBase at h
  split at h
  · next hdrop =>
    obtain ⟨rfl, rfl⟩ := Prod.mk.inj h
    exact ⟨.hexadecimal, Text.dropStart?_eq_some_iff.mp hdrop, rfl⟩
  · next hdrop _ =>
    obtain ⟨rfl, rfl⟩ := Prod.mk.inj h
    exact ⟨.binary, Text.dropStart?_eq_some_iff.mp hdrop, rfl⟩
  · next hdrop _ _ =>
    obtain ⟨rfl, rfl⟩ := Prod.mk.inj h
    exact ⟨.octal, Text.dropStart?_eq_some_iff.mp hdrop, rfl⟩
  · obtain ⟨rfl, rfl⟩ := Prod.mk.inj h
    exact ⟨.decimal, rfl, rfl⟩

/-! ## Words -/

/-- The value of a spelling. -/
theorem integer_text (kind : IntegerKind) (s : IntegerSpelling) :
    integer kind s.text =
      if s.IsOverlong then .error (.numeral .tooManyDigits)
      else match kind.check s.number with
        | .ok n => .ok (.integer kind n)
        | .error e => .error (.scalar e) := by
  obtain ⟨hdigits, hlength⟩ := s.isGrouped.ungroup_eq
  have hvalue : digitsValue s.base.radix (ungroup s.groups) =
      if s.IsOverlong then .error .tooManyDigits else .ok s.magnitude := by
    rw [digitsValue, hdigits, hlength, Numeral.value_eq_ofDigits]
    simp only [Base.radix_eq_ten_iff]
    rfl
  simp only [integer, s.splitSign_text, s.splitBase_unsigned, Grouped.exists_iff.mp ⟨_, s.isGrouped⟩,
    if_true, hvalue]
  by_cases hlong : s.IsOverlong
  · simp only [if_pos hlong]
  · simp only [if_neg hlong]
    rfl

/-- A word is a spelling, or it is no integer. -/
theorem exists_spelling_or (kind : IntegerKind) (found : Text) :
    (∃ s : IntegerSpelling, found = s.text) ∨
      integer kind found = .error (.invalidInteger found) := by
  obtain ⟨negative, body, hsign⟩ : ∃ negative body, splitSign found = (negative, body) := ⟨_, _, rfl⟩
  obtain ⟨radix, digits, hbase⟩ : ∃ radix digits, splitBase body = (radix, digits) := ⟨_, _, rfl⟩
  by_cases hgrouped : isGrouped (isDigitOf radix) digits = true
  · obtain ⟨base, rfl, rfl⟩ := exists_base_of_splitBase hbase
    obtain ⟨ds, h⟩ := Grouped.exists_iff.mpr hgrouped
    exact .inl ⟨⟨negative, base, digits, ds, h⟩, of_splitSign hsign⟩
  · right
    simp only [integer, hsign, hbase, if_neg hgrouped]

theorem integer_eq_ok_iff {kind : IntegerKind} {found : Text} {v : Value} :
    integer kind found = .ok v ↔ ∃ s : IntegerSpelling, found = s.text ∧ ¬ s.IsOverlong ∧
      kind.InRange s.number ∧ v = .integer kind s.number := by
  constructor
  · intro h
    rcases exists_spelling_or kind found with ⟨s, rfl⟩ | hnone
    · rw [integer_text] at h
      split_ifs at h with hlong
      split at h
      · next hcheck =>
        obtain ⟨rfl, hrange⟩ := IntegerKind.inRange_of_check hcheck
        exact ⟨s, rfl, hlong, hrange, (Except.ok.inj h).symm⟩
      · cases h
    · rw [hnone] at h
      cases h
  · rintro ⟨s, rfl, hlong, hrange, rfl⟩
    rw [integer_text, if_neg hlong, IntegerKind.check_of_inRange hrange]

/-- A word is refused, or it is an overlong spelling. -/
theorem integer_eq_error {kind : IntegerKind} {found : Text} {e : LiteralError}
    (h : integer kind found = .error e) :
    e.IsRefusal ∨ e = .numeral .tooManyDigits ∧
      ∃ s : IntegerSpelling, found = s.text ∧ s.IsOverlong := by
  rcases exists_spelling_or kind found with ⟨s, rfl⟩ | hnone
  · rw [integer_text] at h
    split_ifs at h with hlong
    · exact .inr ⟨(Except.error.inj h).symm, s, rfl, hlong⟩
    · split at h
      · cases h
      · exact .inl (Except.error.inj h ▸ trivial)
  · rw [hnone] at h
    exact .inl (Except.error.inj h ▸ trivial)

/-! ## Literals -/

theorem read_integer (kind : IntegerKind) (text : Text) : read (.simple (.integer kind)) text =
    (word text.trimLeft >>= fun (found, rest) => do .ok (← integer kind found, rest)) :=
  rfl

theorem parse_integer_eq_ok_iff {kind : IntegerKind} {text : Text} {v : Value} :
    parse text (.simple (.integer kind)) = .ok v ↔ ∃ s : IntegerSpelling, text.trim = s.text ∧
      ¬ s.IsOverlong ∧ kind.InRange s.number ∧ v = .integer kind s.number := by
  rw [parse_eq_ok_iff]
  constructor
  · rintro ⟨rest, hread, hblanks⟩
    obtain ⟨found, hfound, -, hvalue⟩ := exists_of_word_bind hread
    obtain ⟨s, rfl, hs⟩ := integer_eq_ok_iff.mp hvalue
    refine ⟨s, (Text.trim_eq_iff s.isBlank_getLast?_text).mpr ?_, hs⟩
    exact ⟨rest, hfound, skip_eq_nil_iff.mp hblanks⟩
  · rintro ⟨s, htrim, hs⟩
    obtain ⟨blanks, hleft, hblanks⟩ := (Text.trim_eq_iff s.isBlank_getLast?_text).mp htrim
    refine ⟨blanks, ?_, skip_eq_nil_iff.mpr hblanks⟩
    rw [read_integer, hleft, s.word_text (ends_of_forall_isBlank hblanks).endsWord, ok_bind]
    simp only [integer_eq_ok_iff.mpr ⟨s, rfl, hs⟩, ok_bind]

/-- What goes wrong is a refusal, or the first word is overlong. -/
theorem parse_integer_eq_error {kind : IntegerKind} {text : Text} {e : LiteralError}
    (h : parse text (.simple (.integer kind)) = .error e) :
    e.IsRefusal ∨ e = .numeral .tooManyDigits ∧ ∃ s : IntegerSpelling, s.IsOverlong ∧
      ∃ rest, text.trimLeft = s.text ++ rest ∧ EndsWord rest := by
  rcases parse_eq_error_iff.mp h with hread | ⟨_, _, -, -, rfl⟩
  · rw [read_integer] at hread
    rcases bind_eq_error_iff.mp hread with hword | ⟨⟨found, rest⟩, hword, hvalue⟩
    · exact .inl (word_eq_error hword ▸ trivial)
    · rcases bind_eq_error_iff.mp hvalue with hvalue | ⟨_, -, hok⟩
      · rcases integer_eq_error hvalue with he | ⟨he, s, rfl, hlong⟩
        · exact .inl he
        · exact .inr ⟨he, s, hlong, rest, (of_word hword).1, endsWord_of_word hword⟩
      · cases hok
  · exact .inl trivial

/-- A text is a literal of an integer type if it is a spelling between blanks and the number is in the
range of the type. What starts with an overlong spelling is an error of its own, and every other text is
refused. -/
theorem parse_integer (kind : IntegerKind) (text : Text) :
    (∀ v, parse text (.simple (.integer kind)) = .ok v ↔ ∃ s : IntegerSpelling, text.trim = s.text ∧
        ¬ s.IsOverlong ∧ kind.InRange s.number ∧ v = .integer kind s.number) ∧
      (parse text (.simple (.integer kind)) = .error (.numeral .tooManyDigits) ↔
        ∃ s : IntegerSpelling, s.IsOverlong ∧
          ∃ rest, text.trimLeft = s.text ++ rest ∧ EndsWord rest) ∧
      ∀ e, parse text (.simple (.integer kind)) = .error e →
        e = .numeral .tooManyDigits ∨ e.IsRefusal := by
  refine ⟨fun v => parse_integer_eq_ok_iff, ⟨fun h => ?_, ?_⟩, fun e h => ?_⟩
  · rcases parse_integer_eq_error h with hrefusal | ⟨-, hoverlong⟩
    · exact hrefusal.elim
    · exact hoverlong
  · rintro ⟨s, hlong, rest, hleft, hrest⟩
    refine parse_eq_error_iff.mpr (.inl ?_)
    rw [read_integer, hleft, s.word_text hrest, ok_bind]
    simp only [integer_text, if_pos hlong]
    rfl
  · exact (parse_integer_eq_error h).symm.imp_left And.left

/-- A hexadecimal number between blanks, a `_` behind the last digit, and 4301 digits with a comma behind
them. -/
theorem parse_integer_spellings :
    parse " -0x1_F\t" (.simple (.integer .int8)) = .ok (.integer .int8 (-31)) ∧
      (∃ e, parse "1_" (.simple (.integer .int8)) = .error e ∧ e.IsRefusal) ∧
      parse (List.replicate 4301 ('1' : CodePoint) ++ [(',' : CodePoint)]) (.simple (.integer .int)) =
        .error (.numeral .tooManyDigits) := by
  obtain ⟨haccepts, -, -⟩ := parse_integer .int8 " -0x1_F\t"
  obtain ⟨-, -, hrefuses⟩ := parse_integer .int8 "1_"
  obtain ⟨-, hoverlong, -⟩ :=
    parse_integer .int (List.replicate 4301 ('1' : CodePoint) ++ [(',' : CodePoint)])
  refine ⟨(haccepts _).mpr ⟨⟨true, .hexadecimal, "1_F", [1, 15],
    .digit 1 rfl (by decide) (.last rfl (by decide))⟩, by decide, by decide, by decide, rfl⟩, ?_, ?_⟩
  · have hunderscore : parse "1_" (.simple (.integer .int8)) = .error (.invalidInteger "1_") := by
      cbv
    exact ⟨_, hunderscore, (hrefuses _ hunderscore).resolve_left (by simp)⟩
  · have hones : ∀ n, Grouped 10 (List.replicate (n + 1) ('1' : CodePoint))
        (List.replicate (n + 1) 1) := by
      intro n
      induction n with
      | zero => exact .last rfl (by decide)
      | succ n ih => exact .digit 0 rfl (by decide) ih
    have hlong : Numeral.decimalLimit < (List.replicate 4301 1).length := by
      rw [List.length_replicate]
      decide
    exact hoverlong.mpr ⟨⟨false, .decimal, _, _, hones 4300⟩, ⟨rfl, hlong⟩, [(',' : CodePoint)],
      Text.trimLeft_of_head? (by decide), fun c hc => Option.some.inj hc ▸ rfl⟩

end ContractKit.Literal
