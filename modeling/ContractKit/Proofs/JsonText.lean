import ContractKit.Proofs.Json
import ContractKit.Proofs.Result

/-!
# JSON is read back from its text

The compact and the pretty form of a JSON value differ in the blanks between its tokens
(`Json.Layout`). A normal value without floating numbers is read back from any layout
(`Json.readValue_layoutAt`), so it is parsed from both forms (`Json.parse_pretty`,
`Json.parse_compact`).
-/

namespace ContractKit.Json

/-! ## Layouts -/

/-- The blanks between the tokens of a value, by level: next to the brackets and behind commas. -/
structure Layout where
  gap : Nat → Text
  space : Nat → Text

/-- There is nothing but blanks. -/
def Layout.IsBlank (layout : Layout) : Prop :=
  ∀ level, (∀ c ∈ layout.gap level, Json.isBlank c = true) ∧
    ∀ c ∈ layout.space level, Json.isBlank c = true

/-- The layout of one line. -/
def Layout.compact : Layout := ⟨fun _ => [], fun _ => " "⟩

/-- The layout of many lines. -/
def Layout.pretty : Layout := ⟨newLine, newLine⟩

theorem isBlank_compact : Layout.compact.IsBlank :=
  fun _ => ⟨by simp [Layout.compact], by simp only [Layout.compact]; decide⟩

theorem isBlank_pretty : Layout.pretty.IsBlank := by
  have hline : ∀ level, ∀ c ∈ newLine level, Json.isBlank c = true := by
    intro level c hc
    simp only [newLine, Text.concat, List.mem_flatten, List.mem_cons, List.not_mem_nil, or_false,
      exists_eq_or_imp, exists_eq_left] at hc
    rcases hc with hc | hc
    · have : ∀ c ∈ ("\n" : Text), Json.isBlank c = true := by decide
      exact this c hc
    · rw [List.eq_of_mem_replicate hc]
      decide
  exact fun level => ⟨hline level, hline level⟩

variable {layout : Layout}

mutual

/-- The text of a value in a layout. -/
def layoutAt (layout : Layout) (level : Nat) : Json → Text
  | .arr [] => "[]"
  | .arr items =>
    .concat ["[", layout.gap (level + 1), layoutItems layout (level + 1) items, layout.gap level, "]"]
  | .obj [] => "\x7b\x7d"
  | .obj members =>
    .concat ["\x7b", layout.gap (level + 1), layoutMembers layout (level + 1) members,
      layout.gap level, "\x7d"]
  | scalar => scalarText scalar

/-- Items with commas between them. -/
def layoutItems (layout : Layout) (level : Nat) : List Json → Text
  | [] => []
  | [item] => layoutAt layout level item
  | item :: rest =>
    .concat [layoutAt layout level item, ",", layout.space level, layoutItems layout level rest]

/-- Members with commas between them. -/
def layoutMembers (layout : Layout) (level : Nat) : List (Text × Json) → Text
  | [] => []
  | [(name, item)] => .concat [quotedString name, ": ", layoutAt layout level item]
  | (name, item) :: rest =>
    .concat [quotedString name, ": ", layoutAt layout level item, ",", layout.space level,
      layoutMembers layout level rest]

end

mutual

theorem prettyAt_eq (level : Nat) : ∀ j : Json, prettyAt level j = layoutAt .pretty level j
  | .arr [] => rfl
  | .arr (item :: rest) => by
    rw [prettyAt, layoutAt, prettyItems_eq (level + 1) (item :: rest) (by simp)]
    · simp [Text.concat, Layout.pretty]
    all_goals simp
  | .obj [] => rfl
  | .obj (member :: rest) => by
    rw [prettyAt, layoutAt, prettyMembers_eq (level + 1) (member :: rest) (by simp)]
    · simp [Text.concat, Layout.pretty]
    all_goals simp
  | .null | .bool _ | .int _ | .float _ | .str _ => rfl

theorem prettyItems_eq (level : Nat) : ∀ items : List Json, items ≠ [] →
    prettyItems level items = newLine level ++ layoutItems .pretty level items
  | [], h => absurd rfl h
  | [item], _ => by
    rw [prettyItems, layoutItems, prettyAt_eq level item]
    simp [Text.concat]
  | item :: next :: rest, _ => by
    rw [prettyItems, layoutItems, prettyAt_eq level item,
      prettyItems_eq level (next :: rest) (by simp)]
    · simp [Text.concat, Layout.pretty]
    all_goals simp

theorem prettyMembers_eq (level : Nat) : ∀ members : List (Text × Json), members ≠ [] →
    prettyMembers level members = newLine level ++ layoutMembers .pretty level members
  | [], h => absurd rfl h
  | [(name, item)], _ => by
    rw [prettyMembers, layoutMembers, prettyAt_eq level item]
    simp [Text.concat]
  | (name, item) :: next :: rest, _ => by
    rw [prettyMembers, layoutMembers, prettyAt_eq level item,
      prettyMembers_eq level (next :: rest) (by simp)]
    · simp [Text.concat, Layout.pretty]
    all_goals simp

end

mutual

theorem compact_eq (level : Nat) : ∀ j : Json, compact j = layoutAt .compact level j
  | .arr [] => rfl
  | .arr (item :: rest) => by
    rw [compact, layoutAt, compactItems_eq (level + 1) (item :: rest)]
    · simp [Text.concat, Layout.compact]
    all_goals simp
  | .obj [] => rfl
  | .obj (member :: rest) => by
    rw [compact, layoutAt, compactMembers_eq (level + 1) (member :: rest)]
    · simp [Text.concat, Layout.compact]
    all_goals simp
  | .null | .bool _ | .int _ | .float _ | .str _ => rfl

theorem compactItems_eq (level : Nat) : ∀ items : List Json,
    compactItems items = layoutItems .compact level items
  | [] => rfl
  | [item] => by rw [compactItems, layoutItems, compact_eq level item]
  | item :: next :: rest => by
    rw [compactItems, layoutItems, compact_eq level item, compactItems_eq level (next :: rest)]
    · rfl
    all_goals simp

theorem compactMembers_eq (level : Nat) : ∀ members : List (Text × Json),
    compactMembers members = layoutMembers .compact level members
  | [] => rfl
  | [(name, item)] => by rw [compactMembers, layoutMembers, compact_eq level item]
  | (name, item) :: next :: rest => by
    rw [compactMembers, layoutMembers, compact_eq level item,
      compactMembers_eq level (next :: rest)]
    · rfl
    all_goals simp

end

/-! ## Numbers -/

/-- What follows a number does not go on with it. -/
def Ends (rest : Text) : Prop :=
  ∀ c ∈ rest.head?, c.isAsciiDigit = false ∧ c ≠ '.' ∧ c ≠ 'e' ∧ c ≠ 'E'

theorem ends_cons {c : CodePoint} (rest : Text)
    (h : c.isAsciiDigit = false ∧ c ≠ '.' ∧ c ≠ 'e' ∧ c ≠ 'E') : Ends (c :: rest) := by
  intro d hd
  rw [← Option.some.inj hd]
  exact h

theorem readDigits_append {ds : List Nat} (hds : ∀ d ∈ ds, d < 10) {rest : Text} (h : Ends rest) :
    readDigits (ds.map Numeral.digitChar ++ rest) = (ds, rest) := by
  have hdigits := Numeral.isAsciiDigit_of_mem_map hds
  have hval : ∀ d ∈ ds, (Numeral.digitChar d).val - 48 = d := by
    intro d hd
    have := hds d hd
    rw [Numeral.val_digitChar (by omega), if_pos this]
    omega
  have hstop : ∀ c ∈ rest.head?, c.isAsciiDigit = false := fun c hc => (h c hc).1
  rw [readDigits, Text.takeWhile_run hdigits hstop, Text.dropWhile_run hdigits hstop, List.map_map]
  exact congrArg (·, rest) ((List.map_congr_left hval).trans (List.map_id' ds))

theorem readWhole_append {n : Nat} {rest : Text} (h : Ends rest) :
    readWhole (Numeral.ofNat 10 n ++ rest) = some (Numeral.digits 10 n, rest) := by
  have hdigits : ∀ d ∈ Numeral.digits 10 n, d < 10 := Numeral.lt_of_mem_digits (by omega) n
  have hread := readDigits_append hdigits h
  rw [Numeral.ofNat, readWhole, hread]
  cases hds : Numeral.digits 10 n with
  | nil => exact absurd hds (Numeral.digits_ne_nil 10 n)
  | cons d ds =>
    cases d with
    | zero =>
      obtain rfl := Numeral.eq_zero_of_digits_eq (by omega) hds
      rw [Numeral.digits_of_lt (by omega)] at hds
      obtain ⟨-, rfl⟩ := List.cons.inj hds
      rfl
    | succ d => rfl

theorem readFraction_of_ends {rest : Text} (h : Ends rest) : readFraction rest = ([], rest) := by
  unfold readFraction
  split
  · next c after => rw [if_neg (h c rfl).2.1]
  · rfl

theorem readExponent_of_ends {rest : Text} (h : Ends rest) : readExponent rest = (none, rest) := by
  unfold readExponent
  split
  · next c after =>
    obtain ⟨-, -, he, hE⟩ := h c rfl
    rw [if_neg (not_or.mpr ⟨he, hE⟩)]
  · rfl

/-- The digits of a whole number are read as the number, with the sign that is given. -/
theorem readNumber_append {n : Nat} (hshort : Numeral.IsShort n) (negative : Bool) {rest : Text}
    (h : Ends rest) : readNumber negative (Numeral.ofNat 10 n ++ rest) =
      .ok (.int (if negative then -n else n), rest) := by
  have hvalue : Numeral.value 10 (Numeral.digits 10 n) = n := Numeral.value_digits (by omega) n
  rw [readNumber, readWhole_append h]
  simp only [readFraction_of_ends h, readExponent_of_ends h, List.isEmpty_nil, and_self, if_true,
    hvalue]
  exact if_neg (Nat.not_lt.mpr hshort)

/-! ## Words -/

/-- The first two code points tell that a text starts with no word. -/
theorem readWord_eq_none {s : Text} (h : ∀ word ∈ words, word.1.take 2 ≠ s.take 2) :
    readWord s = none := by
  rw [readWord, List.findSome?_eq_none_iff]
  intro word hword
  have hno : Text.dropStart? word.1 s = none := by
    rw [Option.eq_none_iff_forall_not_mem]
    intro left hleft
    have hlong : ∀ word ∈ words, 2 ≤ word.1.length := by decide
    apply h word hword
    rw [Text.dropStart?_eq_some_iff.mp hleft, List.take_append_of_le_length (hlong word hword)]
  exact Option.map_eq_none_iff.mpr hno

theorem readWord_digit {c : CodePoint} (hc : c.isAsciiDigit = true) (rest : Text) :
    readWord (c :: rest) = none := by
  have hhead : ∀ word ∈ words, ∀ d ∈ (word.1.take 2).head?, d.isAsciiDigit = false := by decide
  refine readWord_eq_none fun word hword heq => ?_
  have := hhead word hword c (by rw [heq]; rfl)
  rw [hc] at this
  cases this

theorem readWord_minus {c : CodePoint} (hc : c.isAsciiDigit = true) (rest : Text) :
    readWord (('-' : CodePoint) :: c :: rest) = none := by
  have hlast : ∀ word ∈ words, ∀ d ∈ (word.1.take 2).getLast?, d.isAsciiDigit = false := by decide
  refine readWord_eq_none fun word hword heq => ?_
  have := hlast word hword c (by rw [heq]; rfl)
  rw [hc] at this
  cases this

/-! ## Scalars -/

/-- A value that holds no other one. -/
def IsScalar : Json → Prop
  | .arr _ | .obj _ => False
  | _ => True

theorem ne_of_isAsciiDigit {c : CodePoint} (h : c.isAsciiDigit = true) :
    c ≠ '"' ∧ c ≠ '[' ∧ c ≠ '\x7b' ∧ c ≠ '-' := by
  refine ⟨?_, ?_, ?_, ?_⟩ <;> (rintro rfl; exact absurd h (by decide))

theorem readValue_digit {c : CodePoint} (hc : c.isAsciiDigit = true) (fuel : Nat) (rest : Text) :
    readValue (fuel + 1) (c :: rest) = readNumber false (c :: rest) := by
  obtain ⟨hquote, hbracket, hbrace, hminus⟩ := ne_of_isAsciiDigit hc
  rw [readValue, if_neg hquote, if_neg hbracket, if_neg hbrace]
  simp only [readWord_digit hc, if_neg hminus]

theorem readValue_minus {c : CodePoint} (hc : c.isAsciiDigit = true) (fuel : Nat) (rest : Text) :
    readValue (fuel + 1) (('-' : CodePoint) :: c :: rest) = readNumber true (c :: rest) := by
  rw [readValue, if_neg (by decide), if_neg (by decide), if_neg (by decide)]
  simp only [readWord_minus hc, if_true]

theorem readValue_ofInt {n : Int} (hshort : Numeral.IsShort n) (fuel : Nat) {rest : Text}
    (h : Ends rest) : readValue (fuel + 1) (Numeral.ofInt n ++ rest) = .ok (.int n, rest) := by
  have hshort' : Numeral.IsShort n.natAbs := by rwa [Numeral.IsShort, Int.natAbs_natCast]
  have hread := fun negative => readNumber_append hshort' negative h
  obtain ⟨c, t, heq, hc⟩ := Numeral.exists_cons_ofNat n.natAbs
  rw [heq] at hread
  unfold Numeral.ofInt
  split_ifs with hneg
  · rw [heq, List.cons_append, List.cons_append, readValue_minus hc, ← List.cons_append, hread]
    have : -(n.natAbs : Int) = n := by omega
    simp only [if_true, this]
  · rw [heq, List.cons_append, readValue_digit hc, ← List.cons_append, hread]
    have : (n.natAbs : Int) = n := by omega
    simp only [Bool.false_eq_true, if_false, this]

/-- A normal scalar is read back from its text. -/
theorem readValue_scalarText {j : Json} (hj : j.IsNormal False) (hscalar : j.IsScalar) (fuel : Nat)
    {rest : Text} (h : Ends rest) :
    readValue (fuel + 1) (scalarText j ++ rest) = .ok (j, rest) := by
  cases hj with
  | null => rfl
  | bool value => cases value <;> rfl
  | int hshort => exact readValue_ofInt hshort fuel h
  | float _ hfalse => exact hfalse.elim
  | str hjoined =>
    rw [scalarText, quotedString_append, readValue, if_pos rfl, readString_flatMap_escaped hjoined]
    rfl
  | arr _ => exact hscalar.elim
  | obj _ _ _ => exact hscalar.elim

/-! ## Blanks and heads -/

theorem skipBlanks_append {blanks : Text} (h : ∀ c ∈ blanks, isBlank c = true) (rest : Text) :
    skipBlanks (blanks ++ rest) = skipBlanks rest :=
  List.dropWhile_append_of_pos h

theorem skipBlanks_cons {c : CodePoint} (h : isBlank c = false) (rest : Text) :
    skipBlanks (c :: rest) = c :: rest :=
  List.dropWhile_cons_of_neg (by simp [h])

/-- What holds of the four blanks holds of each blank. -/
theorem of_isBlank {P : CodePoint → Prop} (hspace : P ' ') (htab : P '\t') (hline : P '\n')
    (hreturn : P '\r') {c : CodePoint} (hc : isBlank c = true) : P c := by
  simp only [isBlank, Bool.or_eq_true, decide_eq_true_eq] at hc
  rcases hc with ((rfl | rfl) | rfl) | rfl
  · exact hspace
  · exact htab
  · exact hline
  · exact hreturn

theorem isAscii_of_isBlank {t : Text} (h : ∀ c ∈ t, isBlank c = true) : Text.IsAscii t :=
  fun c hc => of_isBlank (P := fun c => c.val < 0x80) (by decide) (by decide) (by decide)
    (by decide) (h c hc)

/-- The first code point of a value: no blank and no bracket that closes. -/
def Starts (s : Text) : Prop :=
  ∃ c t, s = c :: t ∧ isBlank c = false ∧ c ≠ ']'

theorem Starts.append {s : Text} (h : Starts s) (rest : Text) : Starts (s ++ rest) := by
  obtain ⟨c, t, rfl, hblank, hclose⟩ := h
  exact ⟨c, t ++ rest, rfl, hblank, hclose⟩

theorem Starts.skipBlanks {s : Text} (h : Starts s) : Json.skipBlanks s = s := by
  obtain ⟨c, t, rfl, hblank, -⟩ := h
  exact skipBlanks_cons hblank t

theorem starts_ofNat (n : Nat) : Starts (Numeral.ofNat 10 n) := by
  obtain ⟨c, t, heq, hc⟩ := Numeral.exists_cons_ofNat n
  refine ⟨c, t, heq, ?_, ?_⟩
  · rw [Bool.eq_false_iff]
    intro hblank
    exact of_isBlank (P := fun c => c.isAsciiDigit ≠ true) (by decide) (by decide) (by decide)
      (by decide) hblank hc
  · rintro rfl
    exact absurd hc (by decide)

theorem starts_layoutAt (layout : Layout) {j : Json} (hj : j.IsNormal False) (level : Nat) :
    Starts (layoutAt layout level j) := by
  cases hj with
  | null => exact ⟨_, _, rfl, by decide, by decide⟩
  | bool value => cases value <;> exact ⟨_, _, rfl, by decide, by decide⟩
  | @int n _ =>
    rw [layoutAt, scalarText, Numeral.ofInt]
    · split_ifs
      · exact ⟨_, _, rfl, by decide, by decide⟩
      · exact starts_ofNat _
    all_goals simp
  | float _ hfalse => exact hfalse.elim
  | str _ => exact ⟨_, _, rfl, by decide, by decide⟩
  | @arr items _ => cases items <;> exact ⟨_, _, rfl, by decide, by decide⟩
  | @obj members _ _ _ => cases members <;> exact ⟨_, _, rfl, by decide, by decide⟩

theorem starts_layoutItems (layout : Layout) {item : Json} (hitem : item.IsNormal False)
    (level : Nat) (rest : List Json) : Starts (layoutItems layout level (item :: rest)) := by
  have hstart := starts_layoutAt layout hitem level
  cases rest with
  | nil => exact hstart
  | cons next rest => exact hstart.append _

theorem starts_layoutMembers (layout : Layout) (level : Nat) (member : Text × Json)
    (rest : List (Text × Json)) :
    Starts (layoutMembers layout level (member :: rest)) := by
  cases rest <;> exact ⟨_, _, rfl, by decide, by decide⟩

theorem ends_of_forall_isBlank {blanks : Text} (h : ∀ c ∈ blanks, isBlank c = true) :
    Ends blanks := by
  intro c hc
  exact of_isBlank (P := fun c => c.isAsciiDigit = false ∧ c ≠ '.' ∧ c ≠ 'e' ∧ c ≠ 'E')
    (by decide) (by decide) (by decide) (by decide) (h c (List.mem_of_mem_head? hc))

theorem ends_append {blanks : Text} (h : ∀ c ∈ blanks, isBlank c = true) {close : CodePoint}
    (hclose : close.isAsciiDigit = false ∧ close ≠ '.' ∧ close ≠ 'e' ∧ close ≠ 'E') (rest : Text) :
    Ends (blanks ++ close :: rest) := by
  cases blanks with
  | nil => exact ends_cons rest hclose
  | cons c blanks => exact ends_cons _ (ends_of_forall_isBlank h c rfl)

/-! ## Reading step by step -/

section

variable {fuel : Nat} {blanks s left rest : Text} {item : Json} {items : List Json}
  {members : List (Text × Json)}

theorem readValue_arr (hblanks : ∀ c ∈ blanks, isBlank c = true) (hs : Starts s)
    (h : readItems fuel s = .ok (items, rest)) :
    readValue (fuel + 1) (('[' : CodePoint) :: (blanks ++ s)) = .ok (.arr items, rest) := by
  obtain ⟨c, t, rfl, hblank, hclose⟩ := hs
  rw [readValue, if_neg (by decide), if_pos rfl, skipBlanks_append hblanks, skipBlanks_cons hblank]
  simp only [if_neg hclose, h]
  rfl

theorem readItems_last (hblanks : ∀ c ∈ blanks, isBlank c = true)
    (h : readValue fuel s = .ok (item, blanks ++ (']' : CodePoint) :: rest)) :
    readItems (fuel + 1) s = .ok ([item], rest) := by
  rw [readItems, h, ok_bind]
  simp only [skipBlanks_append hblanks, skipBlanks_cons (show isBlank ']' = false by decide), if_true]

theorem readItems_cons (hblanks : ∀ c ∈ blanks, isBlank c = true) (hleft : Starts left)
    (h : readValue fuel s = .ok (item, (',' : CodePoint) :: (blanks ++ left)))
    (hrest : readItems fuel left = .ok (items, rest)) :
    readItems (fuel + 1) s = .ok (item :: items, rest) := by
  have hclose : (',' : CodePoint) ≠ ']' := by decide
  rw [readItems, h, ok_bind]
  simp only [skipBlanks_cons (show isBlank ',' = false by decide), if_neg hclose, if_true,
    skipBlanks_append hblanks, hleft.skipBlanks, hrest, ok_bind]

/-- What stands between the name of a member and its value. -/
theorem skipBlanks_colon (hs : Starts s) :
    skipBlanks ((": " : Text) ++ s) = (':' : CodePoint) :: (' ' : CodePoint) :: s ∧
      skipBlanks ((' ' : CodePoint) :: s) = s := by
  constructor
  · exact skipBlanks_cons (show isBlank ':' = false by decide) _
  · rw [skipBlanks, List.dropWhile_cons_of_pos (by decide)]
    exact hs.skipBlanks

theorem readMembers_last {name : Text} (hname : name.IsJoined) (hs : Starts s)
    (hblanks : ∀ c ∈ blanks, isBlank c = true)
    (h : readValue fuel s = .ok (item, blanks ++ ('\x7d' : CodePoint) :: rest)) :
    readMembers (fuel + 1) (quotedString name ++ ((": " : Text) ++ s)) =
      .ok ([(name, item)], rest) := by
  obtain ⟨hcolon, hspace⟩ := skipBlanks_colon hs
  rw [quotedString_append, readMembers, if_pos rfl, readString_flatMap_escaped hname, ok_bind]
  simp only [hcolon, if_true, hspace, h, ok_bind, skipBlanks_append hblanks,
    skipBlanks_cons (show isBlank '\x7d' = false by decide)]

theorem readMembers_cons {name : Text} (hname : name.IsJoined) (hs : Starts s)
    (hblanks : ∀ c ∈ blanks, isBlank c = true) (hleft : Starts left)
    (h : readValue fuel s = .ok (item, (',' : CodePoint) :: (blanks ++ left)))
    (hrest : readMembers fuel left = .ok (members, rest)) :
    readMembers (fuel + 1) (quotedString name ++ ((": " : Text) ++ s)) =
      .ok ((name, item) :: members, rest) := by
  have hclose : (',' : CodePoint) ≠ '\x7d' := by decide
  obtain ⟨hcolon, hspace⟩ := skipBlanks_colon hs
  rw [quotedString_append, readMembers, if_pos rfl, readString_flatMap_escaped hname, ok_bind]
  simp only [hcolon, if_true, hspace, h, ok_bind, if_neg hclose, skipBlanks_append hblanks,
    skipBlanks_cons (show isBlank ',' = false by decide), hleft.skipBlanks, hrest]

theorem readValue_obj (hblanks : ∀ c ∈ blanks, isBlank c = true) (hs : s.head? = some ('"' : CodePoint))
    (hnames : (Entries.names members).Nodup) (h : readMembers fuel s = .ok (members, rest)) :
    readValue (fuel + 1) (('\x7b' : CodePoint) :: (blanks ++ s)) = .ok (.obj members, rest) := by
  obtain ⟨t, rfl⟩ := List.head?_eq_some_iff.mp hs
  rw [readValue, if_neg (by decide), if_neg (by decide), if_pos rfl, skipBlanks_append hblanks,
    skipBlanks_cons (by decide)]
  have hclose : ('"' : CodePoint) ≠ '\x7d' := by decide
  simp only [if_neg hclose, h]
  rw [← object_of_nodup hnames]
  rfl

end

/-! ## Values -/

mutual

/-- A normal value without floating numbers is read back from its text in any layout. -/
theorem readValue_layoutAt (hlayout : layout.IsBlank) : ∀ (j : Json) (level fuel : Nat) (rest : Text),
    j.IsNormal False → 2 * (layoutAt layout level j).length ≤ fuel → Ends rest →
      readValue fuel (layoutAt layout level j ++ rest) = .ok (j, rest)
  | j, level, 0, rest, hj, hfuel, _ => by
    obtain ⟨c, t, heq, -⟩ := starts_layoutAt layout hj level
    simp [heq] at hfuel
  | .arr [], _, fuel + 1, rest, _, _, _ => rfl
  | .arr (item :: items), level, fuel + 1, rest, hj, hfuel, _ => by
    have heq : layoutAt layout level (.arr (item :: items)) ++ rest = ('[' : CodePoint) ::
        (layout.gap (level + 1) ++ (layoutItems layout (level + 1) (item :: items) ++
          (layout.gap level ++ (']' : CodePoint) :: rest))) := by
      simp [layoutAt, Text.concat, Text.ofString]
    have hlength : 2 * (layoutItems layout (level + 1) (item :: items)).length + 1 ≤ fuel := by
      have := congrArg List.length heq
      simp only [List.length_append, List.length_cons] at this
      omega
    rw [heq]
    refine readValue_arr (hlayout (level + 1)).1
      ((starts_layoutItems layout (hj.of_item (by simp)) _ _).append _) ?_
    exact readItems_layoutItems hlayout (item :: items) (level + 1) fuel _ rest (by simp)
      (fun i hi => hj.of_item hi) (hlayout level).1 hlength
  | .obj [], _, fuel + 1, rest, _, _, _ => rfl
  | .obj (member :: members), level, fuel + 1, rest, hj, hfuel, _ => by
    have heq : layoutAt layout level (.obj (member :: members)) ++ rest = ('\x7b' : CodePoint) ::
        (layout.gap (level + 1) ++ (layoutMembers layout (level + 1) (member :: members) ++
          (layout.gap level ++ ('\x7d' : CodePoint) :: rest))) := by
      simp [layoutAt, Text.concat, Text.ofString]
    have hlength : 2 * (layoutMembers layout (level + 1) (member :: members)).length + 1 ≤ fuel := by
      have := congrArg List.length heq
      simp only [List.length_append, List.length_cons] at this
      omega
    rw [heq]
    refine readValue_obj (hlayout (level + 1)).1 ?_ hj.names_nodup ?_
    · cases members <;> rfl
    · exact readMembers_layoutMembers hlayout (member :: members) (level + 1) fuel _ rest (by simp)
        (fun m hm => hj.of_mem hm) (hlayout level).1 hlength
  | .null, _, fuel + 1, rest, hj, _, hrest => readValue_scalarText hj trivial fuel hrest
  | .bool _, _, fuel + 1, rest, hj, _, hrest => readValue_scalarText hj trivial fuel hrest
  | .int _, _, fuel + 1, rest, hj, _, hrest => readValue_scalarText hj trivial fuel hrest
  | .float _, _, fuel + 1, rest, hj, _, hrest => readValue_scalarText hj trivial fuel hrest
  | .str _, _, fuel + 1, rest, hj, _, hrest => readValue_scalarText hj trivial fuel hrest

theorem readItems_layoutItems (hlayout : layout.IsBlank) : ∀ (items : List Json) (level fuel : Nat)
    (blanks rest : Text), items ≠ [] → (∀ item ∈ items, item.IsNormal False) →
      (∀ c ∈ blanks, isBlank c = true) →
      2 * (layoutItems layout level items).length + 1 ≤ fuel →
      readItems fuel (layoutItems layout level items ++ (blanks ++ (']' : CodePoint) :: rest)) =
        .ok (items, rest)
  | [], _, _, _, _, h, _, _, _ => absurd rfl h
  | [item], level, fuel + 1, blanks, rest, _, hitems, hblanks, hfuel => by
    have hread := readValue_layoutAt hlayout item level fuel (blanks ++ (']' : CodePoint) :: rest)
      (hitems item (by simp)) (by rw [layoutItems] at hfuel; omega) (ends_append hblanks (by decide) _)
    exact readItems_last hblanks hread
  | item :: next :: items, level, fuel + 1, blanks, rest, _, hitems, hblanks, hfuel => by
    have heq : layoutItems layout level (item :: next :: items) = layoutAt layout level item ++
        (',' : CodePoint) :: (layout.space level ++ layoutItems layout level (next :: items)) := by
      simp [layoutItems, Text.concat, Text.ofString]
    rw [heq, List.length_append, List.length_cons, List.length_append] at hfuel
    have hread := readValue_layoutAt hlayout item level fuel ((',' : CodePoint) ::
      (layout.space level ++ (layoutItems layout level (next :: items) ++
        (blanks ++ (']' : CodePoint) :: rest)))) (hitems item (by simp)) (by omega)
      (ends_cons _ (by decide))
    have hrest := readItems_layoutItems hlayout (next :: items) level fuel blanks rest (by simp)
      (fun i hi => hitems i (List.mem_cons_of_mem item hi)) hblanks (by omega)
    have hstart := starts_layoutItems layout (hitems next (by simp)) level items
    rw [heq, List.append_assoc, List.cons_append, List.append_assoc]
    exact readItems_cons (hlayout level).2 (hstart.append _) hread hrest

theorem readMembers_layoutMembers (hlayout : layout.IsBlank) : ∀ (members : List (Text × Json))
    (level fuel : Nat) (blanks rest : Text), members ≠ [] →
      (∀ member ∈ members, member.1.IsJoined ∧ member.2.IsNormal False) →
      (∀ c ∈ blanks, isBlank c = true) →
      2 * (layoutMembers layout level members).length + 1 ≤ fuel →
      readMembers fuel (layoutMembers layout level members ++ (blanks ++ ('\x7d' : CodePoint) :: rest)) =
        .ok (members, rest)
  | [], _, _, _, _, h, _, _, _ => absurd rfl h
  | [(name, item)], level, fuel + 1, blanks, rest, _, hmembers, hblanks, hfuel => by
    obtain ⟨hname, hitem⟩ := hmembers (name, item) (by simp)
    have heq : layoutMembers layout level [(name, item)] = quotedString name ++
        ((": " : Text) ++ layoutAt layout level item) := by
      simp [layoutMembers, Text.concat]
    rw [heq, List.length_append, List.length_append] at hfuel
    have hread := readValue_layoutAt hlayout item level fuel (blanks ++ ('\x7d' : CodePoint) :: rest)
      hitem (by omega) (ends_append hblanks (by decide) _)
    rw [heq, List.append_assoc, List.append_assoc]
    exact readMembers_last hname ((starts_layoutAt layout hitem level).append _) hblanks hread
  | (name, item) :: next :: members, level, fuel + 1, blanks, rest, _, hmembers, hblanks, hfuel => by
    obtain ⟨hname, hitem⟩ := hmembers (name, item) (by simp)
    have heq : layoutMembers layout level ((name, item) :: next :: members) = quotedString name ++
        ((": " : Text) ++ (layoutAt layout level item ++ (',' : CodePoint) ::
          (layout.space level ++ layoutMembers layout level (next :: members)))) := by
      simp [layoutMembers, Text.concat, Text.ofString]
    rw [heq, List.length_append, List.length_append, List.length_append, List.length_cons,
      List.length_append] at hfuel
    have hread := readValue_layoutAt hlayout item level fuel ((',' : CodePoint) ::
      (layout.space level ++ (layoutMembers layout level (next :: members) ++
        (blanks ++ ('\x7d' : CodePoint) :: rest)))) hitem (by omega) (ends_cons _ (by decide))
    have hrest := readMembers_layoutMembers hlayout (next :: members) level fuel blanks rest (by simp)
      (fun m hm => hmembers m (List.mem_cons_of_mem (name, item) hm)) hblanks (by omega)
    have hstart := starts_layoutMembers layout level next members
    rw [heq, List.append_assoc, List.append_assoc, List.append_assoc, List.cons_append,
      List.append_assoc]
    exact readMembers_cons hname ((starts_layoutAt layout hitem level).append _) (hlayout level).2
      (hstart.append _) hread hrest

end

/-! ## Characters of a text -/

end Json

namespace Binary64

theorem isAscii_layout {ds : List Nat} (h : ∀ d ∈ ds, d < 10) (point : Int) :
    Text.IsAscii (layout ds point) := by
  have hdigits : ∀ {ds : List Nat}, (∀ d ∈ ds, d < 10) → Text.IsAscii (ds.map Numeral.digitChar) :=
    fun h => Numeral.isAscii_digits fun d hd => (h d hd).trans (by omega)
  have hzero : CodePoint.val '0' < 0x80 := by decide
  have htake : ∀ n, Text.IsAscii ((ds.map Numeral.digitChar).take n) :=
    fun n c hc => hdigits h c (List.mem_of_mem_take hc)
  have hdrop : ∀ n, Text.IsAscii ((ds.map Numeral.digitChar).drop n) :=
    fun n c hc => hdigits h c (List.mem_of_mem_drop hc)
  have hleft : ∀ {t : Text} (n : Nat), t.IsAscii → (t.padLeft '0' n).IsAscii :=
    fun n ht c hc => (Text.mem_padLeft hc).elim (fun heq => heq ▸ hzero) (ht c)
  have hright : ∀ {t : Text} (n : Nat), t.IsAscii → (t.padRight '0' n).IsAscii :=
    fun n ht c hc => (Text.mem_padRight hc).elim (fun heq => heq ▸ hzero) (ht c)
  unfold layout
  refine Text.isAscii_ite ?_ (Text.isAscii_ite ?_ ?_)
  all_goals
    refine Text.isAscii_concat ?_
    simp only [List.forall_mem_cons, List.not_mem_nil, false_imp_iff, implies_true, and_true]
  · exact ⟨by decide, fun c hc => List.eq_of_mem_replicate hc ▸ hzero, hdigits h⟩
  · exact ⟨hright _ (htake _), by decide, Text.isAscii_ite (by decide) (hdrop _)⟩
  · exact ⟨htake _, Text.isAscii_ite (by decide) (by decide), hdrop _, by decide,
      Text.isAscii_ite (by decide) (by decide),
      hleft _ (hdigits (Numeral.lt_of_mem_digits (by omega) _))⟩

theorem isAscii_text (x : Binary64) : Text.IsAscii x.text := by
  cases x with
  | nan => exact (by decide : Text.IsAscii "nan")
  | infinite negative => cases negative <;> decide
  | finite negative mantissa exponent =>
    have hsign : ∀ {t : Text}, t.IsAscii →
        Text.IsAscii (if negative = true then ('-' : CodePoint) :: t else t) :=
      fun ht => Text.isAscii_ite (List.forall_mem_cons.mpr ⟨by decide, ht⟩) ht
    refine hsign (Text.isAscii_ite (by decide) (isAscii_layout (fun d hd => ?_) _))
    have hmem := (List.dropWhile_sublist _).subset (List.mem_reverse.mp hd)
    exact Numeral.lt_of_mem_digits (by omega) _ d (List.mem_reverse.mp hmem)

end Binary64

namespace Json

theorem isAscii_unitEscape (unit : Nat) : Text.IsAscii (unitEscape unit) := by
  rw [unitEscape, Numeral.hexadecimal_eq]
  exact Text.IsAscii.append (s := ['\\', 'u']) (by decide)
    (Numeral.isAscii_digits (Numeral.lt_of_mem_hexDigits 4 unit))

theorem isAscii_escaped (c : CodePoint) : Text.IsAscii (escaped c) := by
  unfold escaped
  split_ifs with hsimple _ _ _ _ _ hplain
  · rcases hsimple with rfl | rfl <;> decide
  · decide
  · decide
  · decide
  · decide
  · decide
  · intro d hd
    rw [List.mem_singleton.mp hd]
    omega
  · exact isAscii_unitEscape _
  · exact (isAscii_unitEscape _).append (isAscii_unitEscape _)

theorem isAscii_quotedString (t : Text) : Text.IsAscii (quotedString t) := by
  have hflat : Text.IsAscii (t.flatMap escaped) := by
    intro c hc
    obtain ⟨d, -, hc⟩ := List.mem_flatMap.mp hc
    exact isAscii_escaped d c hc
  have hquote : Text.IsAscii ("\"" : Text) := by decide
  refine Text.isAscii_concat ?_
  simp only [List.forall_mem_cons, List.not_mem_nil, false_imp_iff, implies_true, and_true]
  exact ⟨hquote, hflat, hquote⟩

theorem isAscii_floatText (x : Binary64) : Text.IsAscii (floatText x) := by
  cases x with
  | nan => exact (by decide : Text.IsAscii "NaN")
  | infinite negative => cases negative <;> decide
  | finite negative mantissa exponent => exact Binary64.isAscii_text (.finite _ _ _)

theorem isAscii_scalarText (j : Json) : Text.IsAscii (scalarText j) := by
  cases j with
  | null => decide
  | bool value => cases value <;> decide
  | int _ => exact Numeral.isAscii_ofInt _
  | float _ => exact isAscii_floatText _
  | str _ => exact isAscii_quotedString _
  | arr _ => exact (by decide : Text.IsAscii "[]")
  | obj _ => exact (by decide : Text.IsAscii "\x7b\x7d")

mutual

theorem isAscii_layoutAt (hlayout : layout.IsBlank) : ∀ (j : Json) (level : Nat),
    Text.IsAscii (layoutAt layout level j)
  | .arr [], _ => (by decide : Text.IsAscii "[]")
  | .arr (item :: items), level => by
    have hitems := isAscii_layoutItems hlayout (item :: items) (level + 1)
    rw [layoutAt]
    · refine Text.isAscii_concat ?_
      simp only [List.forall_mem_cons, List.not_mem_nil, false_imp_iff, implies_true, and_true]
      exact ⟨by decide, isAscii_of_isBlank (hlayout _).1, hitems, isAscii_of_isBlank (hlayout _).1,
        by decide⟩
    · simp
  | .obj [], _ => (by decide : Text.IsAscii "\x7b\x7d")
  | .obj (member :: members), level => by
    have hmembers := isAscii_layoutMembers hlayout (member :: members) (level + 1)
    rw [layoutAt]
    · refine Text.isAscii_concat ?_
      simp only [List.forall_mem_cons, List.not_mem_nil, false_imp_iff, implies_true, and_true]
      exact ⟨by decide, isAscii_of_isBlank (hlayout _).1, hmembers, isAscii_of_isBlank (hlayout _).1,
        by decide⟩
    · simp
  | .null, _ => isAscii_scalarText .null
  | .bool value, _ => isAscii_scalarText (.bool value)
  | .int value, _ => isAscii_scalarText (.int value)
  | .float value, _ => isAscii_scalarText (.float value)
  | .str value, _ => isAscii_scalarText (.str value)

theorem isAscii_layoutItems (hlayout : layout.IsBlank) : ∀ (items : List Json) (level : Nat),
    Text.IsAscii (layoutItems layout level items)
  | [], _ => (by decide : Text.IsAscii [])
  | [item], level => isAscii_layoutAt hlayout item level
  | item :: next :: items, level => by
    have hitem := isAscii_layoutAt hlayout item level
    have hrest := isAscii_layoutItems hlayout (next :: items) level
    rw [layoutItems]
    · refine Text.isAscii_concat ?_
      simp only [List.forall_mem_cons, List.not_mem_nil, false_imp_iff, implies_true, and_true]
      exact ⟨hitem, by decide, isAscii_of_isBlank (hlayout _).2, hrest⟩
    · simp

theorem isAscii_layoutMembers (hlayout : layout.IsBlank) : ∀ (members : List (Text × Json))
    (level : Nat), Text.IsAscii (layoutMembers layout level members)
  | [], _ => (by decide : Text.IsAscii [])
  | [(name, item)], level => by
    have hitem := isAscii_layoutAt hlayout item level
    rw [layoutMembers]
    refine Text.isAscii_concat ?_
    simp only [List.forall_mem_cons, List.not_mem_nil, false_imp_iff, implies_true, and_true]
    exact ⟨isAscii_quotedString name, by decide, hitem⟩
  | (name, item) :: next :: members, level => by
    have hitem := isAscii_layoutAt hlayout item level
    have hrest := isAscii_layoutMembers hlayout (next :: members) level
    rw [layoutMembers]
    · refine Text.isAscii_concat ?_
      simp only [List.forall_mem_cons, List.not_mem_nil, false_imp_iff, implies_true, and_true]
      exact ⟨isAscii_quotedString name, by decide, hitem, by decide,
        isAscii_of_isBlank (hlayout _).2, hrest⟩
    · simp

end

theorem isAscii_pretty (j : Json) : Text.IsAscii j.pretty := by
  rw [pretty, prettyAt_eq]
  exact isAscii_layoutAt isBlank_pretty j 0

theorem isAscii_compact (j : Json) : Text.IsAscii j.compact := by
  rw [compact_eq 0]
  exact isAscii_layoutAt isBlank_compact j 0

/-! ## Parsing -/

theorem parse_layout (hlayout : layout.IsBlank) {j : Json} (hj : j.IsNormal False) {rest : Text}
    (hrest : ∀ c ∈ rest, isBlank c = true) : parse (layoutAt layout 0 j ++ rest) = .ok j := by
  have hread := readValue_layoutAt hlayout j 0 (2 * (layoutAt layout 0 j ++ rest).length + 2) rest hj
    (by rw [List.length_append]; omega) (ends_of_forall_isBlank hrest)
  rw [parse, ((starts_layoutAt layout hj 0).append rest).skipBlanks, hread]
  have hskip : skipBlanks rest = [] := by
    rw [← List.append_nil rest, skipBlanks_append hrest]
    rfl
  simp only [hskip, if_true]

/-- A value is parsed from its pretty form, blanks behind it or not. -/
theorem parse_pretty {j : Json} (hj : j.IsNormal False) {rest : Text}
    (hrest : ∀ c ∈ rest, isBlank c = true) : parse (j.pretty ++ rest) = .ok j := by
  rw [pretty, prettyAt_eq]
  exact parse_layout isBlank_pretty hj hrest

theorem parse_compact {j : Json} (hj : j.IsNormal False) : parse j.compact = .ok j := by
  rw [compact_eq 0, ← List.append_nil (layoutAt _ _ _)]
  exact parse_layout isBlank_compact hj (by simp)

end ContractKit.Json
