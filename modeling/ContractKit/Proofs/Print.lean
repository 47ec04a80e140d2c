import ContractKit.Proofs.Spelling
import ContractKit.Value.Printer

/-!
# Printed values are literals

A value of a type is read back from its text (`Literal.rereads_print`) if every string and character in
it is legible; otherwise the reader stops at an escape. Both go through the parts of a value in the order
of its text: what is read of a part either gives the part and leaves the rest of the text or is
refused (`GivesIf`), and the texts of parts start and end where the reader looks for commas, colons and
closing marks (`Literal.Starts`, `Literal.Ends`). Well-formed values have a text unless an integer in
them is too long to be written (`Value.exists_print_iff`). `Literal.parse_print` puts this together for
the values that literals denote.
-/

namespace ContractKit

namespace Value

/-! ## What printing returns -/

theorem printItems_eq (items : List Value) : printItems items = items.mapM print := by
  induction items with
  | nil => rfl
  | cons item rest ih =>
    rw [printItems, List.mapM_cons, ih]
    rfl

/-- The text of a pair. -/
def printPair (pair : Value × Value) : Except NumeralError Text := do
  let left ← print pair.1
  let right ← print pair.2
  .ok (.concat [left, ": ", right])

theorem printPairs_eq (pairs : List (Value × Value)) : printPairs pairs = pairs.mapM printPair := by
  induction pairs with
  | nil => rfl
  | cons pair rest ih =>
    obtain ⟨key, value⟩ := pair
    simp only [printPairs, printPair, List.mapM_cons, ih, bind_assoc]
    rfl

theorem exists_printPair_iff (pair : Value × Value) : (∃ t, printPair pair = .ok t) ↔
    (∃ t, print pair.1 = .ok t) ∧ ∃ t, print pair.2 = .ok t := by
  simp only [printPair, bind_eq_ok_iff]
  constructor
  · rintro ⟨_, left, hleft, right, hright, -⟩
    exact ⟨⟨left, hleft⟩, right, hright⟩
  · rintro ⟨⟨left, hleft⟩, right, hright⟩
    exact ⟨_, left, hleft, right, hright, rfl⟩

/-- A well-formed value has a text unless an integer in it is too long to be written. -/
theorem exists_print_iff {v : Value} (hv : v.WellFormed) :
    (∃ t, v.print = .ok t) ↔ v.Everywhere IsWritable := by
  induction v using induction_on_parts with
  | h v ih =>
    replace ih := fun w hw => ih w hw (hv.of_mem_parts hw)
    rw [everywhere_iff]
    cases v with
    | void | bool | string | character | address | path | foreign =>
      exact iff_of_true ⟨_, rfl⟩ ⟨trivial, nofun⟩
    | fixed kind raw =>
      exact iff_of_true ⟨_, FixedPoint.print_of_inRange hv.self⟩ ⟨trivial, nofun⟩
    | integer kind number =>
      refine ⟨fun ⟨t, ht⟩ => ⟨(Numeral.isShort_of_print ht).1, nofun⟩, fun h => ?_⟩
      exact exists_ok_of_forall_ne fun e he => (Numeral.eq_tooManyDigits_of_print he).1 h.1
    | optional inner =>
      cases inner with
      | none => exact iff_of_true ⟨_, rfl⟩ ⟨trivial, nofun⟩
      | some w => simpa [print, parts, IsWritable] using ih w (List.mem_singleton.mpr rfl)
    | array items =>
      simp only [print, printItems_eq, exists_bind_ok_iff, exists_mapM_iff, parts, IsWritable,
        true_and]
      exact forall₂_congr fun w hw => ih w hw
    | dictionary pairs =>
      simp only [print, printPairs_eq, exists_bind_ok_iff, exists_mapM_iff, exists_printPair_iff,
        parts, IsWritable, true_and, List.forall_mem_append, List.forall_mem_map]
      rw [← forall₂_and]
      refine forall₂_congr fun p hp => and_congr (ih _ ?_) (ih _ ?_)
      · exact List.mem_append_left _ (List.mem_map_of_mem hp)
      · exact List.mem_append_right _ (List.mem_map_of_mem hp)

/-! ## Legible values -/

/-- The text of the value, if it is a string or a character, is legible. -/
def IsLegible : Value → Prop
  | string text | character text => text.IsLegible
  | _ => True

theorem everywhere_isLegible_optional {w : Value} :
    (optional (some w)).Everywhere IsLegible ↔ w.Everywhere IsLegible := by
  rw [everywhere_iff]
  simp [IsLegible, parts]

theorem everywhere_isLegible_array {items : List Value} :
    (array items).Everywhere IsLegible ↔ ∀ w ∈ items, w.Everywhere IsLegible := by
  rw [everywhere_iff]
  simp [IsLegible, parts]

theorem everywhere_isLegible_dictionary {pairs : List (Value × Value)} :
    (dictionary pairs).Everywhere IsLegible ↔
      ∀ p ∈ pairs, p.1.Everywhere IsLegible ∧ p.2.Everywhere IsLegible := by
  rw [everywhere_iff]
  simp only [IsLegible, true_and, forall_mem_parts_dictionary]

theorem everywhere_iff_self {P : Value → Prop} {v : Value} (h : v.parts = []) :
    v.Everywhere P ↔ P v := by
  rw [everywhere_iff, h]
  simp

end Value

/-! ## Reading in steps -/

/-- The result is `b` if what was read is legible. Otherwise an escape was refused. -/
def GivesIf {β : Type} (legible : Prop) (x : Except LiteralError β) (b : β) : Prop :=
  (legible → x = .ok b) ∧ (¬ legible → ∃ e, x = .error e ∧ e.IsUnknownEscape)

namespace GivesIf

variable {β γ : Type} {p q : Prop} {x : Except LiteralError β} {b : β}

theorem of_ok (hp : p) (h : x = .ok b) : GivesIf p x b :=
  ⟨fun _ => h, fun hnot => absurd hp hnot⟩

theorem congr (hpq : p ↔ q) (h : GivesIf p x b) : GivesIf q x b :=
  ⟨fun hq => h.1 (hpq.mpr hq), fun hq => h.2 (hpq.not.mpr hq)⟩

theorem bind {f : β → Except LiteralError γ} {c : γ} (h : GivesIf p x b) (hf : GivesIf q (f b) c) :
    GivesIf (p ∧ q) (x >>= f) c := by
  constructor
  · rintro ⟨hp, hq⟩
    rw [h.1 hp, ok_bind, hf.1 hq]
  · intro hnot
    by_cases hp : p
    · rw [h.1 hp, ok_bind]
      exact hf.2 fun hq => hnot ⟨hp, hq⟩
    · obtain ⟨e, he, hescape⟩ := h.2 hp
      exact ⟨e, he ▸ rfl, hescape⟩

/-- A step that goes on with any result. -/
theorem andThen {f : β → Except LiteralError γ} {c : γ} (h : GivesIf p x b) (hf : f b = .ok c) :
    GivesIf p (x >>= f) c :=
  (h.bind (of_ok trivial hf)).congr (by rw [and_true])

theorem map (f : β → γ) (h : GivesIf p x b) : GivesIf p (x.map f) (f b) := by
  rw [← bind_ok_eq_map]
  exact h.andThen rfl

end GivesIf

namespace Literal

/-! ## Where texts of values start -/

/-- The text starts like a literal: with no blank and no mark that closes a sequence. -/
def Starts (t : Text) : Prop :=
  ∃ c tail, t = c :: tail ∧ c.isBlank = false ∧ c ≠ ']' ∧ c ≠ '\x7d'

theorem Starts.append {t : Text} (h : Starts t) (rest : Text) : Starts (t ++ rest) := by
  obtain ⟨c, tail, rfl, hc⟩ := h
  exact ⟨c, tail ++ rest, rfl, hc⟩

theorem skip_cons {c : CodePoint} (h : c.isBlank = false) (rest : Text) :
    skip (c :: rest) = c :: rest :=
  List.dropWhile_cons_of_neg (by simp [h])

theorem Starts.skip {t : Text} (h : Starts t) : Literal.skip t = t := by
  obtain ⟨c, tail, rfl, hblank, -⟩ := h
  exact skip_cons hblank tail

/-- What a text of a value other than a missing one starts with. -/
def Opens (c : CodePoint) : Prop :=
  c.isBlank = false ∧ c ≠ ']' ∧ c ≠ '\x7d' ∧ c ≠ 'n'

instance (c : CodePoint) : Decidable (Opens c) := by
  unfold Opens
  infer_instance

theorem opens_of_isAsciiDigit {c : CodePoint} (h : c.isAsciiDigit = true) : Opens c :=
  CodePoint.of_between (P := Opens) (by decide) (CodePoint.isAsciiDigit_iff.mp h).1
    (CodePoint.isAsciiDigit_iff.mp h).2

theorem exists_opens_ofInt (n : Int) : ∃ c tail, Numeral.ofInt n = c :: tail ∧ Opens c := by
  obtain ⟨c, tail, heq, hc⟩ := Numeral.exists_cons_ofNat n.natAbs
  unfold Numeral.ofInt
  split_ifs
  · exact ⟨'-', _, rfl, by decide⟩
  · exact ⟨c, tail, heq, opens_of_isAsciiDigit hc⟩

theorem exists_opens_write (raw : Int) :
    ∃ c tail, FixedPoint.write raw = c :: tail ∧ Opens c := by
  obtain ⟨c, tail, heq, hc⟩ := Numeral.exists_cons_ofNat (raw.natAbs / fixedFactor)
  rw [FixedPoint.write_eq, heq]
  split_ifs
  · exact ⟨'-', _, rfl, by decide⟩
  · exact ⟨c, _, rfl, opens_of_isAsciiDigit hc⟩

theorem exists_opens_of_print {v : Value} {type : Ty} (h : v.HasType type) :
    v ≠ .optional none → ∀ {t}, v.print = .ok t → ∃ c tail, t = c :: tail ∧ Opens c := by
  induction h with
  | absent => exact fun hne => absurd rfl hne
  | present hw _ ih => exact fun _ t ht => ih hw ht
  | address hdigits =>
    rintro - t ⟨⟩
    exact ⟨'0', _, rfl, by decide⟩
  | string text =>
    rintro - t ⟨⟩
    exact ⟨'"', _, rfl, by decide⟩
  | character c =>
    rintro - t ⟨⟩
    exact ⟨'"', _, rfl, by decide⟩
  | bool value =>
    rintro - t ⟨⟩
    cases value with
    | true => exact ⟨'t', _, rfl, by decide⟩
    | false => exact ⟨'f', _, rfl, by decide⟩
  | integer =>
    intro _ t ht
    rw [(Numeral.isShort_of_print ht).2]
    exact exists_opens_ofInt _
  | fixed =>
    intro _ t ht
    rw [(FixedPoint.print_eq_ok_iff.mp ht).2]
    exact exists_opens_write _
  | path =>
    rintro - t ⟨⟩
    exact ⟨'/', _, rfl, by decide⟩
  | array | constant =>
    intro _ t ht
    obtain ⟨ts, -, ht⟩ := bind_eq_ok_iff.mp ht
    rw [← Except.ok.inj ht]
    exact ⟨'[', _, rfl, by decide⟩
  | dictionary =>
    intro _ t ht
    obtain ⟨ts, -, ht⟩ := bind_eq_ok_iff.mp ht
    rw [← Except.ok.inj ht]
    exact ⟨'\x7b', _, rfl, by decide⟩

theorem starts_of_print {v : Value} {type : Ty} (h : v.HasType type) {t : Text}
    (ht : v.print = .ok t) : Starts t := by
  by_cases hnone : v = .optional none
  · subst hnone
    rw [← Except.ok.inj ht]
    exact ⟨'n', _, rfl, by decide⟩
  · obtain ⟨c, tail, rfl, hblank, hbracket, hbrace, -⟩ := exists_opens_of_print h hnone ht
    exact ⟨c, tail, rfl, hblank, hbracket, hbrace⟩

/-! ## Sequences -/

/-- The text `t` starts like a literal, and the reader takes it for `a` wherever it ends. -/
structure Rereads {α : Type} (item : Text → Except LiteralError (α × Text)) (legible : Prop) (a : α)
    (t : Text) : Prop where
  starts : Starts t
  gives : ∀ rest, Ends rest → GivesIf legible (item (t ++ rest)) (a, rest)

theorem expect_cons {c : CodePoint} (h : c.isBlank = false) (rest : Text) :
    expect c (c :: rest) = .ok rest := by
  rw [expect, skip_cons h]
  exact if_pos rfl

theorem ends_comma (rest : Text) : Ends ((',' : CodePoint) :: rest) :=
  ends_cons (by decide) (by decide +kernel) rest

section

variable {α : Type} {close : CodePoint} {item : Text → Except LiteralError (α × Text)}
  {legible : α → Prop}

/-- The closing mark of a sequence. -/
def Closes (close : CodePoint) : Prop :=
  close = ']' ∨ close = '\x7d'

theorem Closes.isBlank (h : Closes close) : close.isBlank = false := by
  rcases h with rfl | rfl <;> decide

theorem Closes.ends (h : Closes close) (rest : Text) : Ends (close :: rest) := by
  rcases h with rfl | rfl <;> exact ends_cons (by decide) (by decide +kernel) rest

theorem Closes.ne_comma (h : Closes close) : close ≠ ',' := by
  rcases h with rfl | rfl <;> decide

theorem Starts.head_ne (hclose : Closes close) {t : Text} (h : Starts t) :
    t.head? ≠ some close := by
  obtain ⟨c, tail, rfl, -, hbracket, hbrace⟩ := h
  rcases hclose with rfl | rfl
  · exact fun heq => hbracket (Option.some.inj heq)
  · exact fun heq => hbrace (Option.some.inj heq)

theorem starts_intercalate {as : List α} {ts : List Text}
    (h : List.Forall₂ (fun a t => Rereads item (legible a) a t) as ts) (hne : as ≠ []) :
    Starts (Text.intercalate ", " ts) := by
  cases h with
  | nil => exact absurd rfl hne
  | cons ha hs =>
    cases hs with
    | nil =>
      rw [Text.intercalate, List.intercalate_singleton]
      exact ha.starts
    | cons =>
      rw [Text.intercalate, List.intercalate_cons_cons, List.append_assoc]
      exact ha.starts.append _

/-- The last item ends at the closing mark. -/
theorem items_last (hclose : Closes close) {a : α} {t : Text} (ha : Rereads item (legible a) a t)
    (fuel : Nat) (rest : Text) :
    GivesIf (legible a) (items close item (fuel + 1) (t ++ close :: rest)) ([a], rest) := by
  refine (ha.gives _ (hclose.ends rest)).andThen ?_
  simp only [skip_cons hclose.isBlank, List.head?_cons, Option.some.injEq, if_neg hclose.ne_comma,
    expect_cons hclose.isBlank, ok_bind]

/-- Any other item ends at a comma, and the items behind the comma are read after it. -/
theorem items_cons (hclose : Closes close) {a : α} {t others : Text}
    (ha : Rereads item (legible a) a t) (hothers : Starts others) {fuel : Nat} {q : Prop}
    {as : List α} {rest : Text} (has : GivesIf q (items close item fuel others) (as, rest)) :
    GivesIf (legible a ∧ q) (items close item (fuel + 1) (t ++ ", " ++ others)) (a :: as, rest) := by
  have hcomma : CodePoint.isBlank ',' = false := by decide
  have hspace : skip ((' ' : CodePoint) :: others) = others := hothers.skip
  have htext : t ++ ", " ++ others = t ++ (',' : CodePoint) :: (' ' : CodePoint) :: others :=
    List.append_assoc t ", " others
  rw [htext]
  refine (ha.gives _ (ends_comma _)).bind ?_
  simp only [skip_cons hcomma, List.head?_cons, if_true, List.drop_succ_cons, List.drop_zero, hspace,
    if_neg (hothers.head_ne hclose)]
  exact has.andThen rfl

theorem items_intercalate (hclose : Closes close) {as : List α} {ts : List Text}
    (h : List.Forall₂ (fun a t => Rereads item (legible a) a t) as ts) (hne : as ≠ [])
    {fuel : Nat} {rest : Text} (hfuel : (Text.intercalate ", " ts ++ close :: rest).length < fuel) :
    GivesIf (∀ a ∈ as, legible a)
      (items close item fuel (Text.intercalate ", " ts ++ close :: rest)) (as, rest) := by
  induction h generalizing fuel with
  | nil => exact absurd rfl hne
  | @cons a t as ts ha hs ih =>
    obtain ⟨fuel, rfl⟩ := Nat.exists_eq_add_one_of_ne_zero (Nat.ne_zero_of_lt hfuel)
    cases hs with
    | nil =>
      rw [Text.intercalate, List.intercalate_singleton]
      exact (items_last hclose ha fuel rest).congr (by simp)
    | @cons a' t' as' ts' ha' hs' =>
      have hothers := (starts_intercalate (.cons ha' hs') (List.cons_ne_nil a' as')).append
        (close :: rest)
      rw [Text.intercalate, List.intercalate_cons_cons, List.append_assoc] at hfuel ⊢
      refine (items_cons hclose ha hothers (ih (List.cons_ne_nil a' as') ?_)).congr
        List.forall_mem_cons.symm
      have hseparator : List.length (", " : Text) = 2 := rfl
      simp only [Text.intercalate, List.length_append] at hfuel ⊢
      omega

/-- A sequence is read from behind its opening mark. -/
theorem sequence_intercalate (hclose : Closes close) {as : List α} {ts : List Text}
    (h : List.Forall₂ (fun a t => Rereads item (legible a) a t) as ts) (rest : Text) :
    GivesIf (∀ a ∈ as, legible a)
      (sequence close item (Text.intercalate ", " ts ++ close :: rest)) (as, rest) := by
  by_cases hne : as = []
  · subst hne
    obtain rfl := List.forall₂_nil_left_iff.mp h
    refine .of_ok nofun ?_
    simp only [sequence, Text.intercalate, List.intercalate_nil, List.nil_append,
      skip_cons hclose.isBlank, List.head?_cons, if_true, List.drop_succ_cons, List.drop_zero]
  · have hstarts := (starts_intercalate h hne).append (close :: rest)
    rw [sequence, hstarts.skip]
    simp only [if_neg (hstarts.head_ne hclose)]
    exact items_intercalate hclose h hne (Nat.lt_succ_self _)

end

/-! ## Values -/

/-- What is read does not depend on blanks in front of it. -/
theorem read_skip (type : Ty) (s : Text) : read type (skip s) = read type s := by
  cases type <;> simp only [read, expect, skip_skip]

theorem read_blank (type : Ty) (s : Text) : read type ((' ' : CodePoint) :: s) = read type s := by
  rw [← read_skip type s]
  exact (read_skip type _).symm

/-- An entry of a dictionary. -/
def entry (key value : Ty) (s : Text) : Except LiteralError ((Value × Value) × Text) := do
  let (left, rest) ← read key s
  let rest ← expect ':' rest
  let (right, rest) ← read value rest
  .ok ((left, right), rest)

theorem read_dictionary (key value : Ty) (s : Text) : read (.dictionary key value) s =
    expect '\x7b' s >>= fun rest => sequence '\x7d' (entry key value) rest >>=
      fun (pairs, rest) => .ok (.dictionary pairs, rest) :=
  rfl

/-- A key, a colon, a blank and a value are read as an entry. -/
theorem rereads_entry {key value : Ty} {p : Value × Value} {t : Text} {legible : Value → Prop}
    (hkey : ∀ {s}, p.1.print = .ok s → Rereads (read key) (legible p.1) p.1 s)
    (hvalue : ∀ {s}, p.2.print = .ok s → Rereads (read value) (legible p.2) p.2 s)
    (ht : Value.printPair p = .ok t) :
    Rereads (entry key value) (legible p.1 ∧ legible p.2) p t := by
  obtain ⟨left, hleft, ht⟩ := bind_eq_ok_iff.mp ht
  obtain ⟨right, hright, ht⟩ := bind_eq_ok_iff.mp ht
  obtain rfl := Except.ok.inj ht
  have htext : ∀ rest, Text.concat [left, ": ", right] ++ rest =
      left ++ (':' : CodePoint) :: (' ' : CodePoint) :: (right ++ rest) := by
    intro rest
    simp [Text.concat, Text.ofString]
  have hcolon : CodePoint.isBlank ':' = false := by decide
  refine ⟨?_, fun rest hrest => ?_⟩
  · rw [← List.append_nil (Text.concat _), htext]
    exact (hkey hleft).starts.append _
  · rw [htext]
    refine ((hkey hleft).gives _ (ends_cons (by decide) (by decide +kernel) _)).bind ?_
    simp only [expect_cons hcolon, ok_bind, read_blank]
    exact ((hvalue hright).gives rest hrest).andThen rfl

/-- A word that is printed and denotes a value of the type. -/
theorem gives_word {denote : Text → Except LiteralError Value} {s found rest : Text} {v : Value}
    {legible : Prop} (hlegible : legible) (hword : word s = .ok (found, rest))
    (hdenote : denote found = .ok v) :
    GivesIf legible (word s >>= fun (found, left) => do .ok (← denote found, left)) (v, rest) := by
  refine .of_ok hlegible ?_
  rw [hword, ok_bind]
  simp only [hdenote, ok_bind]

theorem gives_string {t rest : Text} :
    GivesIf t.IsLegible (string (Json.quotedString t ++ rest)) (t, rest) :=
  ⟨fun h => string_quotedString h rest, fun h => exists_error_of_quotedString h rest⟩

theorem startsNil_of_opens {c : CodePoint} (h : Opens c) (rest : Text) :
    startsNil (c :: rest) = false := by
  have hnone : Text.dropStart? "nil" (c :: rest) = none :=
    Text.dropStart?_eq_none_of_head rfl (fun hn => h.2.2.2 (Option.some.inj hn).symm) (by decide)
  rw [startsNil, hnone]

/-- The word `nil` is read as a missing value. -/
theorem read_nil (inner : Ty) {rest : Text} (hrest : Ends rest) :
    read (.optional inner) ("nil" ++ rest) = .ok (.optional none, rest) := by
  have hskip : skip ("nil" ++ rest) = "nil" ++ rest := skip_cons (by decide) _
  have hnil : startsNil ("nil" ++ rest) = true := by
    rw [startsNil, Text.dropStart?_append]
    cases rest with
    | nil => rfl
    | cons c rest =>
      obtain ⟨hword, halphanumeric⟩ := hrest c rfl
      have hscore : c ≠ '_' := by
        rintro rfl
        exact absurd hword (by decide)
      simp [halphanumeric, hscore]
  rw [read]
  simp only [hskip, hnil, if_true]
  rfl

/-- A value of a simple type is read back if the reader of that type reads it. -/
theorem rereads_simple {v : Value} {type : SimpleType} {t : Text} (h : v.HasType (.simple type))
    (ht : v.print = .ok t)
    (hgives : ∀ rest, Ends rest → GivesIf v.IsLegible (simple type (t ++ rest)) (v, rest)) :
    Rereads (read (.simple type)) (v.Everywhere Value.IsLegible) v t := by
  have hparts : v.parts = [] := by cases h <;> rfl
  have hstarts := starts_of_print h ht
  refine ⟨hstarts, fun rest hrest => ?_⟩
  rw [read, (hstarts.append rest).skip]
  exact (hgives rest hrest).congr (Value.everywhere_iff_self hparts).symm

theorem concat_append (opening middle closing rest : Text) :
    Text.concat [opening, middle, closing] ++ rest = opening ++ (middle ++ (closing ++ rest)) := by
  simp [Text.concat]

/-- The elements of an array are read back from between its brackets. -/
theorem gives_elements {element : Ty} {items : List Value} {ts : List Text}
    (hitems : ∀ w ∈ items, ∀ {t}, w.print = .ok t →
      Rereads (read element) (w.Everywhere Value.IsLegible) w t)
    (hts : Value.printItems items = .ok ts) (rest : Text) :
    GivesIf ((Value.array items).Everywhere Value.IsLegible)
      (expect '[' (.concat ["[", .intercalate ", " ts, "]"] ++ rest) >>=
        fun left => sequence ']' (read element) left) (items, rest) := by
  have htext : Text.concat ["[", .intercalate ", " ts, "]"] ++ rest =
      ('[' : CodePoint) :: (.intercalate ", " ts ++ (']' : CodePoint) :: rest) :=
    concat_append "[" _ "]" rest
  have hopen : CodePoint.isBlank '[' = false := by decide
  rw [Value.printItems_eq, mapM_eq_ok_iff] at hts
  rw [htext, expect_cons hopen, ok_bind]
  have hrereads := (flip_of_forall₂ hts fun w hw t ht => hitems w hw ht).flip
  exact (sequence_intercalate (.inl rfl) hrereads rest).congr
    Value.everywhere_isLegible_array.symm

theorem rereads_print {v : Value} {type : Ty} (h : v.HasType type) : ∀ {t}, v.print = .ok t →
    Rereads (read type) (v.Everywhere Value.IsLegible) v t := by
  induction h with
  | absent inner =>
    intro t ht
    refine ⟨starts_of_print (.absent inner) ht, fun rest hrest => ?_⟩
    obtain rfl := Except.ok.inj ht
    exact .of_ok ((Value.everywhere_iff_self rfl).mpr trivial) (read_nil inner hrest)
  | @present inner w hw htyped ih =>
    intro t ht
    refine ⟨starts_of_print (.present hw htyped) ht, fun rest hrest => ?_⟩
    obtain ⟨c, tail, rfl, hopens⟩ := exists_opens_of_print htyped hw ht
    have hread := ((ih ht).gives rest hrest).map fun (value, rest) => (Value.optional (some value), rest)
    rw [read]
    simp only [List.cons_append, skip_cons hopens.1, startsNil_of_opens hopens, Bool.false_eq_true,
      if_false]
    exact hread.congr Value.everywhere_isLegible_optional.symm
  | address hdigits =>
    intro t ht
    have hstarts := starts_of_print (.address hdigits) ht
    refine ⟨hstarts, fun rest hrest => ?_⟩
    obtain rfl := Except.ok.inj ht
    rw [read, (hstarts.append rest).skip]
    exact gives_word ((Value.everywhere_iff_self rfl).mpr trivial) (word_address hdigits hrest)
      (address_canonical hdigits)
  | string text =>
    rintro t ⟨⟩
    exact rereads_simple (.string text) rfl fun rest _ => gives_string.map _
  | character c =>
    rintro t ⟨⟩
    exact rereads_simple (.character c) rfl fun rest _ => gives_string.andThen rfl
  | bool value =>
    rintro t ⟨⟩
    refine rereads_simple (.bool value) rfl fun rest hrest => ?_
    cases value with
    | true => exact gives_word trivial (word_append (by decide) (by decide) hrest.endsWord) rfl
    | false => exact gives_word trivial (word_append (by decide) (by decide) hrest.endsWord) rfl
  | @integer kind number hrange =>
    intro t ht
    obtain ⟨hshort, rfl⟩ := Numeral.isShort_of_print ht
    exact rereads_simple (.integer hrange) ht fun rest hrest =>
      gives_word trivial (word_ofInt number hrest) (integer_ofInt hshort hrange)
  | @fixed kind raw hrange =>
    intro t ht
    obtain ⟨-, rfl⟩ := FixedPoint.print_eq_ok_iff.mp ht
    exact rereads_simple (.fixed hrange) ht fun rest hrest =>
      gives_word trivial (word_write raw hrest) (fixedPoint_write hrange)
  | path hdomain hidentifier =>
    rintro t ⟨⟩
    exact rereads_simple (.path hdomain hidentifier) rfl fun rest hrest =>
      .of_ok trivial (path_append hdomain hidentifier hrest.continuesIdentifier)
  | @array element items hitems ih =>
    intro t ht
    refine ⟨starts_of_print (.array hitems) ht, fun rest _ => ?_⟩
    obtain ⟨ts, hts, ht⟩ := bind_eq_ok_iff.mp ht
    obtain rfl := Except.ok.inj ht
    rw [read, ← bind_assoc]
    exact (gives_elements ih hts rest).andThen rfl
  | @constant element items hitems ih =>
    intro t ht
    refine ⟨starts_of_print (.constant hitems) ht, fun rest _ => ?_⟩
    obtain ⟨ts, hts, ht⟩ := bind_eq_ok_iff.mp ht
    obtain rfl := Except.ok.inj ht
    rw [read, ← bind_assoc]
    exact (gives_elements ih hts rest).andThen
      (map_eq_ok_iff.mpr ⟨_, ofLength_eq_ok_iff.mpr ⟨rfl, rfl⟩, rfl⟩)
  | @dictionary key value pairs hkeys hvalues ihkey ihvalue =>
    intro t ht
    refine ⟨starts_of_print (.dictionary hkeys hvalues) ht, fun rest _ => ?_⟩
    obtain ⟨ts, hts, ht⟩ := bind_eq_ok_iff.mp ht
    obtain rfl := Except.ok.inj ht
    have htext : Text.concat ["\x7b", .intercalate ", " ts, "\x7d"] ++ rest =
        ('\x7b' : CodePoint) :: (.intercalate ", " ts ++ ('\x7d' : CodePoint) :: rest) :=
      concat_append "\x7b" _ "\x7d" rest
    have hopen : CodePoint.isBlank '\x7b' = false := by decide
    rw [Value.printPairs_eq, mapM_eq_ok_iff] at hts
    have hrereads := (flip_of_forall₂ hts fun p hp t ht =>
      rereads_entry (ihkey p hp) (ihvalue p hp) ht).flip
    rw [htext, read_dictionary, expect_cons hopen, ok_bind]
    exact ((sequence_intercalate (.inr rfl) hrereads rest).congr
      Value.everywhere_isLegible_dictionary.symm).andThen rfl

/-- The text of a value that a literal denotes is a literal of the same value, if all strings and
characters in the value are legible, and otherwise no literal of the type because of an escape. There
is such a text unless an integer in the value is too long to be written. -/
theorem parse_print {text : Text} {type : Ty} {v : Value} (h : parse text type = .ok v) :
    ((∃ s, v.print = .ok s) ↔ v.Everywhere Value.IsWritable) ∧
      ∀ s, v.print = .ok s →
        (v.Everywhere Value.IsLegible → parse s type = .ok v) ∧
          (¬ v.Everywhere Value.IsLegible →
            ∃ e, parse s type = .error e ∧ e.IsUnknownEscape) := by
  refine ⟨Value.exists_print_iff (wellFormed_of_parse h), fun s hs => ?_⟩
  obtain ⟨rest, hread, -⟩ := parse_eq_ok_iff.mp h
  have hgives := (rereads_print (hasType_of_read hread) hs).gives [] ends_nil
  rw [List.append_nil] at hgives
  refine ⟨fun hlegible => parse_eq_ok_iff.mpr ⟨[], hgives.1 hlegible, rfl⟩, fun hnot => ?_⟩
  obtain ⟨e, herror, he⟩ := hgives.2 hnot
  refine ⟨e, ?_, he⟩
  rw [parse, herror]

/-- A line end in a key is escaped and the number is printed in decimal, and this is read as before. A
letter that is not ASCII is escaped as a UTF-16 unit, which is refused. -/
theorem parse_print_dictionary :
    ∃ v w, parse "\x7b \"a\\n\" : [0x10,] \x7d"
        (.dictionary (.simple .string) (.array (.simple (.integer .uint8)))) = .ok v ∧
      v.print = .ok "\x7b\"a\\n\": [16]\x7d" ∧
      parse "\x7b\"a\\n\": [16]\x7d"
        (.dictionary (.simple .string) (.array (.simple (.integer .uint8)))) = .ok v ∧
      parse "\"\u00e9\"" (.simple .character) = .ok w ∧
      w.print = .ok "\"\\u00e9\"" ∧
      ∃ e, parse "\"\\u00e9\"" (.simple .character) = .error e ∧ e.IsUnknownEscape := by
  have hnumber : parse "\x7b \"a\\n\" : [0x10,] \x7d"
      (.dictionary (.simple .string) (.array (.simple (.integer .uint8)))) =
      .ok (.dictionary [(.string "a\n", .array [.integer .uint8 16])]) := by
    cbv
  have hletter : parse "\"\u00e9\"" (.simple .character) = .ok (.character "\u00e9") := by
    cbv
  have hlegible : (Value.dictionary [(.string "a\n", .array [.integer .uint8 16])]).Everywhere
      Value.IsLegible := by
    rw [Value.everywhere_isLegible_dictionary, List.forall_mem_singleton,
      Value.everywhere_isLegible_array, List.forall_mem_singleton]
    refine ⟨(Value.everywhere_iff_self rfl).mpr ?_, (Value.everywhere_iff_self rfl).mpr trivial⟩
    show Text.IsLegible "a\n"
    decide
  have hnot : ¬ (Value.character "\u00e9").Everywhere Value.IsLegible := by
    rw [Value.everywhere_iff_self rfl]
    show ¬ Text.IsLegible "\u00e9"
    decide
  have hnumberText : (Value.dictionary [(.string "a\n", .array [.integer .uint8 16])]).print =
      .ok "\x7b\"a\\n\": [16]\x7d" := by
    cbv
  have hletterText : (Value.character "\u00e9").print = .ok "\"\\u00e9\"" := by
    cbv
  obtain ⟨-, hreads⟩ := parse_print hnumber
  obtain ⟨-, hrefuses⟩ := parse_print hletter
  exact ⟨_, _, hnumber, hnumberText, (hreads _ hnumberText).1 hlegible, hletter, hletterText,
    (hrefuses _ hletterText).2 hnot⟩

end Literal

end ContractKit
