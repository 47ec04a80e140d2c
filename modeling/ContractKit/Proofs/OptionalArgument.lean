import ContractKit.Proofs.Coercion
import ContractKit.Proofs.Print

/-!
# Arguments for optional parameters

A word for an optional parameter gives a value of the type under the optional ones, or the missing value,
which only the word `nil` denotes (`Argument.coerce_optional`). The second reading, of the word as it
stands, is tried when the first one fails. A literal of the optional type is `nil` or one of the type
underneath (`Literal.of_parse_optional`), and the first reading would have found the latter, unless a
string stands behind blanks: then quotation marks are put around blanks and quotation marks
(`Argument.IsIndented`), and the second reading finds the string inside an optional value.
-/

namespace ContractKit

namespace Literal

/-! ## What literals start with -/

theorem head_ne_of_bool {found : Text} {v : Value} (h : bool found = .ok v) :
    found.head? ≠ some ('n' : CodePoint) := by
  unfold bool at h
  split_ifs at h with htrue hfalse
  · rw [htrue]
    decide
  · rw [hfalse]
    decide

theorem head_ne_of_integer {kind : IntegerKind} {found : Text} {v : Value}
    (h : integer kind found = .ok v) : found.head? ≠ some ('n' : CodePoint) := by
  intro hn
  have hsign : splitSign found = (false, found) := by
    rw [splitSign, Text.dropStart?_eq_none_of_head hn (by decide) (by decide)]
  have hbase : splitBase found = (10, found) := by
    rw [splitBase, Text.dropStart?_eq_none_of_head hn (by decide) (by decide),
      Text.dropStart?_eq_none_of_head hn (by decide) (by decide),
      Text.dropStart?_eq_none_of_head hn (by decide) (by decide)]
  have hgrouped : isGrouped (isDigitOf 10) found = false := by
    simp only [isGrouped, hn, Option.any_some, show isDigitOf 10 'n' = false by decide,
      Bool.and_false, Bool.false_and]
  simp only [integer, hsign, hbase, hgrouped, Bool.false_eq_true, if_false] at h
  cases h

theorem head_ne_of_fixedPoint {kind : FixedKind} {found : Text} {v : Value}
    (h : fixedPoint kind found = .ok v) : found.head? ≠ some ('n' : CodePoint) := by
  intro hn
  have hsign : (splitSign found).2 = found := by
    rw [splitSign, Text.dropStart?_eq_none_of_head hn (by decide) (by decide)]
  have hshape : isFixedPoint found = false := by
    obtain ⟨rest, rfl⟩ := List.head?_eq_some_iff.mp hn
    rw [isFixedPoint, hsign, List.takeWhile_cons_of_pos (by decide)]
    simp [isGrouped, show CodePoint.isAsciiDigit 'n' = false by decide]
  rw [fixedPoint, hshape] at h
  cases h

theorem exists_digits_of_address {found : Text} {v : Value} (h : address found = .ok v) :
    ∃ digits, found = "0x" ++ digits ∧ digits ≠ [] ∧ ∀ c ∈ digits, Numeral.isHexDigit c = true := by
  unfold address at h
  split at h
  · next digits hdigits =>
    split_ifs at h with hhex
    exact ⟨digits, Text.dropStart?_eq_some_iff.mp hdigits, hhex.1, List.all_eq_true.mp hhex.2⟩
  · cases h

theorem head_of_string {s t rest : Text} (h : string s = .ok (t, rest)) :
    s.head? = some ('"' : CodePoint) := by
  unfold string at h
  split at h
  · split_ifs at h with hquote
    rw [hquote]
    rfl
  · cases h

theorem exists_string_of_read {type : Ty} (htype : type.isTextual = true) {s rest : Text} {v : Value}
    (h : read type s = .ok (v, rest)) : ∃ t, string (skip s) = .ok (t, rest) := by
  match type, htype, h with
  | .simple .string, _, h =>
    obtain ⟨⟨t, left⟩, hstring, heq⟩ := map_eq_ok_iff.mp h
    exact ⟨t, (Prod.mk.inj heq).2 ▸ hstring⟩
  | .simple .character, _, h =>
    obtain ⟨⟨t, left⟩, hstring, heq⟩ := bind_eq_ok_iff.mp h
    simp only at heq
    split_ifs at heq
    exact ⟨t, (Prod.mk.inj (Except.ok.inj heq)).2 ▸ hstring⟩

theorem head_of_path {kind : PathKind} {s rest : Text} {v : Value}
    (h : path kind s = .ok (v, rest)) : s.head? = some ('/' : CodePoint) := by
  unfold path at h
  split at h
  · cases h
  · next left hleft =>
    rw [Text.dropStart?_eq_some_iff.mp hleft]
    rfl

/-- What is read as a word denotes the value and starts the text. -/
theorem exists_head_of_word_bind {denote : Text → Except LiteralError Value} {s rest : Text} {v : Value}
    (h : (word s >>= fun (found, left) => do .ok (← denote found, left)) = .ok (v, rest)) :
    ∃ found, denote found = .ok v ∧ s.head? = found.head? := by
  obtain ⟨found, rfl, hne, hvalue⟩ := exists_of_word_bind h
  exact ⟨found, hvalue, List.head?_append_of_ne_nil _ hne⟩

/-- Only literals of optional types start with `n`. -/
theorem head_skip_ne_of_read {type : Ty} (htype : ∀ inner, type ≠ .optional inner) {s rest : Text}
    {v : Value} (h : read type s = .ok (v, rest)) : (skip s).head? ≠ some ('n' : CodePoint) := by
  have hexpect : ∀ {c : CodePoint} {left : Text}, c ≠ 'n' → expect c s = .ok left →
      (skip s).head? ≠ some ('n' : CodePoint) := by
    intro c left hc h
    rw [skip_of_expect h]
    simpa using hc
  cases type with
  | optional inner => exact absurd rfl (htype inner)
  | address =>
    obtain ⟨found, haddress, hhead⟩ := exists_head_of_word_bind h
    obtain ⟨digits, rfl, -⟩ := exists_digits_of_address haddress
    rw [hhead, List.head?_append_of_ne_nil _ (by decide)]
    decide
  | simple type =>
    rw [read] at h
    cases type with
    | string =>
      obtain ⟨_, hstring, -⟩ := map_eq_ok_iff.mp h
      rw [head_of_string hstring]
      decide
    | character =>
      obtain ⟨_, hstring, -⟩ := bind_eq_ok_iff.mp h
      rw [head_of_string hstring]
      decide
    | bool =>
      obtain ⟨found, hvalue, hhead⟩ := exists_head_of_word_bind h
      exact hhead ▸ head_ne_of_bool hvalue
    | integer kind =>
      obtain ⟨found, hvalue, hhead⟩ := exists_head_of_word_bind h
      exact hhead ▸ head_ne_of_integer hvalue
    | fixed kind =>
      obtain ⟨found, hvalue, hhead⟩ := exists_head_of_word_bind h
      exact hhead ▸ head_ne_of_fixedPoint hvalue
    | path kind =>
      rw [head_of_path h]
      decide
    | unwritten kind => cases h
  | array element =>
    obtain ⟨_, hopen, -⟩ := bind_eq_ok_iff.mp h
    exact hexpect (by decide) hopen
  | constant element size =>
    obtain ⟨_, hopen, -⟩ := bind_eq_ok_iff.mp h
    exact hexpect (by decide) hopen
  | dictionary key value =>
    obtain ⟨_, hopen, -⟩ := bind_eq_ok_iff.mp h
    exact hexpect (by decide) hopen
  | nominal name => cases h

/-- Behind blanks a string ends at the first quotation mark. -/
theorem stringBody_of_blanks {blanks tail t left : Text} (hblanks : ∀ c ∈ blanks, c.isBlank = true)
    (h : stringBody (blanks ++ ('"' : CodePoint) :: tail) = .ok (t, left)) : left = tail := by
  induction blanks generalizing t with
  | nil =>
    rw [List.nil_append, stringBody_quote] at h
    exact (Prod.mk.inj (Except.ok.inj h)).2.symm
  | cons c blanks ih =>
    have hc : c.isBlank = true := hblanks c List.mem_cons_self
    rw [List.cons_append] at h
    by_cases hline : c = '\n'
    · rw [hline, stringBody, if_neg (by decide), if_pos rfl] at h
      cases h
    rw [stringBody_plain (by rintro rfl; exact absurd hc (by decide)) hline
      (by rintro rfl; exact absurd hc (by decide))] at h
    obtain ⟨⟨t', left'⟩, hbody, heq⟩ := map_eq_ok_iff.mp h
    obtain ⟨-, rfl⟩ := Prod.mk.inj heq
    exact ih (fun d hd => hblanks d (List.mem_cons_of_mem c hd)) hbody

/-! ## Literals of optional types -/

/-- A text is what is skipped of it and the rest. -/
theorem exists_skip (s : Text) : ∃ blanks, s = blanks ++ skip s ∧ ∀ c ∈ blanks, c.isBlank = true :=
  ⟨s.takeWhile CodePoint.isBlank, List.takeWhile_append_dropWhile.symm,
    fun _ hc => List.mem_takeWhile_imp hc⟩

theorem skip_eq_nil_iff {s : Text} : skip s = [] ↔ ∀ c ∈ s, c.isBlank = true :=
  List.dropWhile_eq_nil_iff

theorem eq_of_startsNil {s : Text} (h : startsNil s = true) : s = "nil" ++ s.drop 3 := by
  unfold startsNil at h
  split at h
  · next hnil =>
    rw [Text.dropStart?_eq_some_iff.mp hnil]
    rfl
  · next hnil =>
    rw [Text.dropStart?_eq_some_iff.mp hnil]
    rfl
  · cases h

theorem ends_of_forall_isBlank {blanks : Text} (h : ∀ c ∈ blanks, c.isBlank = true) :
    Ends blanks := by
  intro c hc
  exact CodePoint.of_isBlank (P := fun c => isWordPart c = false ∧ c.isAlphanumeric = false)
    (by decide +kernel) (h c (List.mem_of_mem_head? hc))

/-- Behind blanks around it the word `nil` is all there is. -/
theorem trim_eq_nil_iff {raw : Text} :
    raw.trim = "nil" ↔ ∃ blanks, skip raw = "nil" ++ blanks ∧ ∀ c ∈ blanks, c.isBlank = true :=
  Text.trim_eq_iff (by decide)

/-- What does not start with `nil` is read as a literal of the type under the optional ones. -/
theorem exists_read_leaf {type : Ty} : ∀ {s rest : Text} {v : Value}, startsNil (skip s) = false →
    read type s = .ok (v, rest) → ∃ u, read type.leaf s = .ok (u, rest) := by
  induction type with
  | optional inner ih =>
    intro s rest v hnil h
    rw [read] at h
    simp only [hnil, Bool.false_eq_true, if_false] at h
    obtain ⟨⟨value, left⟩, hvalue, heq⟩ := map_eq_ok_iff.mp h
    obtain ⟨-, rfl⟩ := Prod.mk.inj heq
    obtain ⟨u, hu⟩ := ih (by rwa [skip_skip]) hvalue
    exact ⟨u, by rwa [read_skip] at hu⟩
  | _ => exact fun {_ _ v} _ h => ⟨v, h⟩

/-- A literal of an optional type is the word `nil`, or one of the type under the optional ones. -/
theorem of_parse_optional {inner : Ty} {raw : Text} {v : Value}
    (h : parse raw (.optional inner) = .ok v) :
    v = .optional none ∧ raw.trim = "nil" ∨
      (∃ w, v = .optional (some w)) ∧ ∃ u, parse raw inner.leaf = .ok u := by
  obtain ⟨rest, hread, hrest⟩ := parse_eq_ok_iff.mp h
  rw [read] at hread
  simp only at hread
  split_ifs at hread with hnil
  · obtain ⟨rfl, rfl⟩ := Prod.mk.inj (Except.ok.inj hread)
    exact .inl ⟨rfl, trim_eq_nil_iff.mpr ⟨_, eq_of_startsNil hnil, skip_eq_nil_iff.mp hrest⟩⟩
  · obtain ⟨⟨value, left⟩, hvalue, heq⟩ := map_eq_ok_iff.mp hread
    obtain ⟨rfl, rfl⟩ := Prod.mk.inj heq
    rw [Bool.not_eq_true, ← skip_skip] at hnil
    obtain ⟨u, hu⟩ := exists_read_leaf hnil hvalue
    rw [read_skip] at hu
    exact .inr ⟨⟨value, rfl⟩, u, parse_eq_ok_iff.mpr ⟨_, hu, hrest⟩⟩

/-- The word `nil` is a literal of every optional type. -/
theorem parse_nil {inner : Ty} {raw : Text} (h : raw.trim = "nil") :
    parse raw (.optional inner) = .ok (.optional none) := by
  obtain ⟨blanks, hskip, hblanks⟩ := trim_eq_nil_iff.mp h
  refine parse_eq_ok_iff.mpr ⟨blanks, ?_, skip_eq_nil_iff.mpr hblanks⟩
  rw [← read_skip, hskip]
  exact read_nil inner (ends_of_forall_isBlank hblanks)

end Literal

/-! ## Words for optional parameters -/

theorem Ty.leaf_ne_optional (type : Ty) : ∀ inner, type.leaf ≠ .optional inner := by
  induction type with
  | optional inner ih => exact ih
  | _ => exact fun inner => nofun

namespace Argument

/-- The values are strings, and the word is a string behind blanks. -/
def IsIndented (type : Ty) (raw : Text) : Prop :=
  type.isTextual = true ∧ raw.head? ≠ some ('"' : CodePoint) ∧
    raw.trimLeft.head? = some ('"' : CodePoint)

instance (type : Ty) (raw : Text) : Decidable (IsIndented type raw) := by
  unfold IsIndented
  infer_instance

/-- A word gives what the first reading finds, and what the second one finds if the first one fails,
unless by an escape of more than 31 bits. -/
theorem coerce_eq_ok_iff {parameter : Parameter} {inner : Ty} {raw : Text} {v : Value}
    (htype : parameter.type = .optional inner) : coerce parameter raw = .ok v ↔
      Literal.parse (prepare raw inner.leaf) inner.leaf = .ok v ∨
      (∃ e, Literal.parse (prepare raw inner.leaf) inner.leaf = .error e ∧
        e ≠ .codePointOverflow) ∧ Literal.parse raw (.optional inner) = .ok v := by
  have hne : inner.leaf ≠ .optional inner := Ty.leaf_ne_optional inner inner
  unfold coerce
  rw [htype, show (Ty.optional inner).leaf = inner.leaf from rfl]
  simp only [if_neg hne]
  split
  · next value hfirst => simp [hfirst]
  · next hfirst => simp [hfirst]
  · next e hoverflow hfirst =>
    have hfails : e ≠ .codePointOverflow := hoverflow
    rw [hfirst]
    split
    · next value hsecond => simp [hfails, hsecond]
    · next hsecond => simp [hsecond]
    · next e' _ hsecond => simp [hsecond]

/-- Where the word is a literal as it stands, nothing is added to it. -/
theorem prepare_eq_self {type : Ty} {raw : Text} {v : Value} (h : Literal.parse raw type = .ok v)
    (hindented : ¬ IsIndented type raw) : prepare raw type = raw := by
  obtain ⟨rest, hread, -⟩ := Literal.parse_eq_ok_iff.mp h
  unfold prepare
  split_ifs with htextual hquoted haddress hprefix
  · rfl
  · exfalso
    rw [not_or] at hquoted
    obtain ⟨t, hstring⟩ := Literal.exists_string_of_read htextual hread
    exact hindented ⟨htextual, hquoted.2, Literal.head_of_string hstring⟩
  · rfl
  · exfalso
    subst haddress
    obtain ⟨found, hskip, -, hvalue⟩ := Literal.exists_of_word_bind hread
    obtain ⟨digits, rfl, -⟩ := Literal.exists_digits_of_address hvalue
    have hinfix : ("0x" : Text) <:+: raw := by
      refine List.IsInfix.trans ⟨[], digits ++ rest, ?_⟩ (Literal.skip_suffix raw).isInfix
      rw [List.nil_append, ← List.append_assoc, ← hskip]
    exact hprefix (Text.contains_iff.mpr hinfix)
  · rfl

/-- In further quotation marks a string behind blanks is no literal: the first one holds the blanks. -/
theorem parse_prepare_of_isIndented {type : Ty} {raw : Text} (h : IsIndented type raw) (v : Value) :
    Literal.parse (prepare raw type) type ≠ .ok v := by
  intro hparse
  obtain ⟨htextual, hquoted, hskip⟩ := h
  obtain ⟨tail, htail⟩ := List.head?_eq_some_iff.mp hskip
  obtain ⟨blanks, hraw, hblanks⟩ := Literal.exists_skip raw
  rw [show Literal.skip raw = _ from htail] at hraw
  have hprepare : prepare raw type = ('"' : CodePoint) ::
      (blanks ++ ('"' : CodePoint) :: (tail ++ [('"' : CodePoint)])) := by
    have hne : ¬ (raw = [] ∨ raw.head? = some ('"' : CodePoint)) := by
      rintro (hnil | hhead)
      · simp [hraw] at hnil
      · exact hquoted hhead
    rw [prepare, if_pos htextual, if_neg hne, hraw]
    simp [Text.concat, Text.ofString]
  obtain ⟨rest, hread, hrest⟩ := Literal.parse_eq_ok_iff.mp hparse
  obtain ⟨t, hstring⟩ := Literal.exists_string_of_read htextual hread
  rw [hprepare, Literal.skip_cons (by decide), Literal.string, if_pos rfl] at hstring
  obtain rfl := Literal.stringBody_of_blanks hblanks hstring
  have hblank := Literal.skip_eq_nil_iff.mp hrest '"' (by simp)
  exact absurd hblank (by decide)

/-- The word `nil` consists of its letters and of blanks. -/
theorem of_mem_of_trim_eq_nil {raw : Text} (h : raw.trim = "nil") {c : CodePoint} (hc : c ∈ raw) :
    c.isBlank = true ∨ c ∈ ("nil" : Text) := by
  obtain ⟨blanks, hskip, hblanks⟩ := Literal.trim_eq_nil_iff.mp h
  obtain ⟨front, hraw, hfront⟩ := Literal.exists_skip raw
  rw [hraw, hskip, List.mem_append, List.mem_append] at hc
  rcases hc with hc | hc | hc
  · exact .inl (hfront c hc)
  · exact .inr hc
  · exact .inl (hblanks c hc)

/-- The word `nil` is no address, also behind a `0x`. -/
theorem parse_address_ne_of_nil {raw : Text} (h : raw.trim = "nil") (v : Value) :
    Literal.parse (.concat ["0x", raw]) .address ≠ .ok v := by
  intro hparse
  obtain ⟨rest, hread, hrest⟩ := Literal.parse_eq_ok_iff.mp hparse
  obtain ⟨found, hskip, -, hvalue⟩ := Literal.exists_of_word_bind hread
  obtain ⟨digits, rfl, -, hdigits⟩ := Literal.exists_digits_of_address hvalue
  have hraw : raw = digits ++ rest := by
    have heq : Literal.skip (.concat ["0x", raw]) = "0x" ++ raw := by
      rw [show Text.concat ["0x", raw] = "0x" ++ raw by simp [Text.concat]]
      exact Literal.skip_cons (by decide) _
    rw [heq, List.append_assoc] at hskip
    exact List.append_cancel_left hskip
  have hn : ('n' : CodePoint) ∈ raw := (Text.trim_infix raw).subset (h ▸ by decide)
  rw [hraw] at hn
  rcases List.mem_append.mp hn with hn | hn
  · exact absurd (hdigits _ hn) (by decide)
  · exact absurd (Literal.skip_eq_nil_iff.mp hrest _ hn) (by decide)

/-- The first reading of the word `nil` fails, unless the word is taken for a string. -/
theorem parse_prepare_nil {type : Ty} {raw : Text} (htype : ∀ inner, type ≠ .optional inner)
    (htextual : type.isTextual = false) (h : raw.trim = "nil") :
    ∃ e, Literal.parse (prepare raw type) type = .error e ∧ e ≠ .codePointOverflow := by
  obtain ⟨blanks, hskip, -⟩ := Literal.trim_eq_nil_iff.mp h
  have hstands : ∀ v, Literal.parse raw type ≠ .ok v := by
    intro v hparse
    obtain ⟨rest, hread, -⟩ := Literal.parse_eq_ok_iff.mp hparse
    refine Literal.head_skip_ne_of_read htype hread ?_
    rw [hskip]
    rfl
  have hfirst : ∀ v, Literal.parse (prepare raw type) type ≠ .ok v := by
    unfold prepare
    rw [htextual]
    simp only [Bool.false_eq_true, if_false]
    split_ifs with haddress
    · exact hstands
    · rw [haddress]
      exact parse_address_ne_of_nil h
    · exact hstands
  obtain ⟨e, he⟩ := exists_error_of_forall_ne hfirst
  refine ⟨e, he, ?_⟩
  rintro rfl
  obtain ⟨before, digits, after, hraw, -⟩ :=
    hasWideEscape_of_prepare (Literal.hasWideEscape_of_parse he)
  have hbackslash : ('\\' : CodePoint) ∈ raw := by simp [hraw]
  rcases of_mem_of_trim_eq_nil h hbackslash with hblank | hletter
  · exact absurd hblank (by decide)
  · exact absurd hletter (by decide)

/-- A word for an optional parameter gives a value of the type under the optional ones, which the first
reading finds, or the missing value, and then it is the word `nil`. If strings are asked for and the word
is one behind blanks, it gives an optional value that holds one. The word `nil` gives the missing value
unless strings are asked for. -/
theorem coerce_optional {parameter : Parameter} {inner : Ty} (htype : parameter.type = .optional inner)
    (raw : Text) :
    (∀ v, coerce parameter raw = .ok v →
      (¬ IsIndented parameter.type.leaf raw → (∀ w, v ≠ .optional (some w)) ∧
        (v.HasType parameter.type.leaf ∧
            Literal.parse (prepare raw parameter.type.leaf) parameter.type.leaf = .ok v ∨
          v = .optional none ∧ raw.trim = "nil")) ∧
      (IsIndented parameter.type.leaf raw →
        (∃ w, v = .optional (some w)) ∧ Literal.parse raw parameter.type = .ok v)) ∧
    (parameter.type.leaf.isTextual = false → raw.trim = "nil" →
      coerce parameter raw = .ok (.optional none)) := by
  have hleaf : parameter.type.leaf = inner.leaf := by
    rw [htype]
    rfl
  have hnotOptional := Ty.leaf_ne_optional inner
  rw [hleaf]
  refine ⟨fun v h => ⟨fun hindented => ?_, fun hindented => ?_⟩, fun htextual hnil => ?_⟩
  · rcases (coerce_eq_ok_iff htype).mp h with hfirst | ⟨⟨e, hfirst, -⟩, hsecond⟩
    · obtain ⟨rest, hread, -⟩ := Literal.parse_eq_ok_iff.mp hfirst
      have htyped := Literal.hasType_of_read hread
      refine ⟨?_, .inl ⟨htyped, hfirst⟩⟩
      rintro w rfl
      obtain ⟨type, heq⟩ := htyped.exists_optional
      exact hnotOptional type heq
    · rcases Literal.of_parse_optional hsecond with ⟨rfl, hnil⟩ | ⟨-, u, hu⟩
      · exact ⟨nofun, .inr ⟨rfl, hnil⟩⟩
      · -- Nothing is added to a literal, so the first reading would have found it.
        rw [prepare_eq_self hu hindented, hu] at hfirst
        cases hfirst
  · rcases (coerce_eq_ok_iff htype).mp h with hfirst | ⟨-, hsecond⟩
    · exact absurd hfirst (parse_prepare_of_isIndented hindented v)
    · rcases Literal.of_parse_optional hsecond with ⟨rfl, hnil⟩ | ⟨hw, -⟩
      · obtain ⟨blanks, hskip, -⟩ := Literal.trim_eq_nil_iff.mp hnil
        have hhead : raw.trimLeft.head? = some ('n' : CodePoint) := by
          rw [show raw.trimLeft = "nil" ++ blanks from hskip]
          rfl
        exact absurd (hhead.symm.trans hindented.2.2) (by decide)
      · exact ⟨hw, htype ▸ hsecond⟩
  · exact (coerce_eq_ok_iff htype).mpr
      (.inr ⟨parse_prepare_nil hnotOptional htextual hnil, Literal.parse_nil hnil⟩)

/-- Under two optional types the word `nil` between blanks gives one missing value. -/
theorem coerce_optional_nil :
    coerce ⟨[], "n", .optional (.optional (.simple (.integer .uint8))), "UInt8??"⟩ " nil " =
      .ok (.optional none) :=
  (coerce_optional rfl " nil ").2 rfl (by decide)

/-- The word `"abc"` behind a blank gives an optional value that holds a string. -/
theorem not_forall_coerce_ne_present :
    ¬ ∀ (parameter : Parameter) (inner : Ty) (raw : Text) (v w : Value),
      parameter.type = .optional inner → coerce parameter raw = .ok v → v ≠ .optional (some w) := by
  intro hall
  have hcoerce : coerce ⟨[], "s", .optional (.simple .string), "String?"⟩ " \"abc\"" =
      .ok (.optional (some (.string "abc"))) := by
    cbv
  exact hall _ _ _ _ _ rfl hcoerce rfl

end Argument

end ContractKit
