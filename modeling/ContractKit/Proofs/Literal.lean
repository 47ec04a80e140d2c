import ContractKit.Literal.Reader
import ContractKit.Proofs.Typing
import Mathlib.Data.List.DropRight
import Mathlib.Data.List.TakeWhile

/-!
# Literals denote values of their type

What is read as a literal of a type is a value of the type, at every depth (`Literal.hasType_of_read`) :
the readers check every number, address, character and path, and the parts of an array, a dictionary
or an optional value are read as literals themselves. So no text is a literal of a type without values
(`Literal.parse_typed`), and every literal denotes a well-formed value.
-/

namespace ContractKit.Literal

/-! ## Words, strings and paths -/

theorem hasType_of_integer {kind : IntegerKind} {found : Text} {v : Value}
    (h : integer kind found = .ok v) : v.HasType (.simple (.integer kind)) := by
  unfold integer at h
  simp only at h
  split at h
  · split at h
    · cases h
    · split at h
      · next hcheck =>
        obtain ⟨rfl, hrange⟩ := IntegerKind.inRange_of_check hcheck
        obtain rfl := Except.ok.inj h
        exact .integer hrange
      · cases h
  · cases h

theorem hasType_of_fixedPoint {kind : FixedKind} {found : Text} {v : Value}
    (h : fixedPoint kind found = .ok v) : v.HasType (.simple (.fixed kind)) := by
  unfold fixedPoint at h
  split_ifs at h
  split at h
  · next hraw =>
    obtain rfl := Except.ok.inj h
    exact .fixed (FixedPoint.inRange_of_read hraw)
  · cases h

theorem hasType_of_address {found : Text} {v : Value} (h : address found = .ok v) :
    v.HasType .address := by
  unfold address at h
  split at h
  · split_ifs at h
    split at h
    · next hdigits =>
      obtain rfl := Except.ok.inj h
      exact .address (Address.isCanonical_of_normalize hdigits)
    · cases h
  · cases h

theorem hasType_of_bool {found : Text} {v : Value} (h : bool found = .ok v) :
    v.HasType (.simple .bool) := by
  unfold bool at h
  split_ifs at h
  · obtain rfl := Except.ok.inj h
    exact .bool true
  · obtain rfl := Except.ok.inj h
    exact .bool false

/-- What is read as an identifier is one, unless it is empty. -/
theorem isIdentifier_of_identifier {s name rest : Text} (h : identifier s = (name, rest))
    (hname : name ≠ []) : name.IsIdentifier := by
  unfold identifier at h
  split at h
  · next c tail =>
    split_ifs at h with hc
    · obtain ⟨rfl, -⟩ := Prod.mk.inj h
      exact ⟨c, _, rfl, hc, fun d hd => List.mem_takeWhile_imp hd⟩
    · exact absurd (Prod.mk.inj h).1.symm hname
  · exact absurd (Prod.mk.inj h).1.symm hname

theorem hasType_of_path {kind : PathKind} {s rest : Text} {v : Value}
    (h : path kind s = .ok (v, rest)) : v.HasType (.simple (.path kind)) := by
  unfold path at h
  split at h
  · cases h
  simp only at h
  split_ifs at h with hdomain
  split at h
  · cases h
  split at h
  · cases h
  · next hname hread =>
    obtain ⟨rfl, -⟩ := Prod.mk.inj (Except.ok.inj h)
    exact .path hdomain (isIdentifier_of_identifier hread fun heq => hname heq)

/-- A word stands at the start of the text. -/
theorem of_word {s found rest : Text} (h : word s = .ok (found, rest)) :
    s = found ++ rest ∧ found ≠ [] := by
  unfold word at h
  split at h
  next sign unsigned hsplit =>
  have hs : s = sign ++ unsigned := by
    split at hsplit
    · split_ifs at hsplit
      · obtain ⟨rfl, rfl⟩ := Prod.mk.inj hsplit
        rfl
      · obtain ⟨rfl, rfl⟩ := Prod.mk.inj hsplit
        rfl
    · obtain ⟨rfl, rfl⟩ := Prod.mk.inj hsplit
      rfl
  split at h
  · cases h
  · next hne =>
    obtain ⟨rfl, rfl⟩ := Prod.mk.inj (Except.ok.inj h)
    refine ⟨?_, List.append_ne_nil_of_right_ne_nil _ hne⟩
    rw [List.append_assoc, List.takeWhile_append_dropWhile, hs]

theorem word_eq_error {s : Text} {e : LiteralError} (h : word s = .error e) : e = .noWord s.length := by
  unfold word at h
  split at h
  split at h
  · exact (Except.error.inj h).symm
  · cases h

/-- What is read as a word denotes the value. -/
theorem exists_of_word_bind {denote : Text → Except LiteralError Value} {s rest : Text} {v : Value}
    (h : (word s >>= fun (found, left) => do .ok (← denote found, left)) = .ok (v, rest)) :
    ∃ found, s = found ++ rest ∧ found ≠ [] ∧ denote found = .ok v := by
  obtain ⟨⟨found, left⟩, hword, h⟩ := bind_eq_ok_iff.mp h
  obtain ⟨value, hvalue, h⟩ := bind_eq_ok_iff.mp h
  obtain ⟨rfl, rfl⟩ := Prod.mk.inj (Except.ok.inj h)
  obtain ⟨hs, hne⟩ := of_word hword
  exact ⟨found, hs, hne, hvalue⟩

/-- A word that is read and found to denote a value of the type. -/
theorem hasType_of_word (denote : Text → Except LiteralError Value) {type : Ty} {s rest : Text}
    {v : Value} (hdenote : ∀ {found w}, denote found = .ok w → w.HasType type)
    (h : (word s >>= fun (found, left) => do .ok (← denote found, left)) = .ok (v, rest)) :
    v.HasType type := by
  obtain ⟨found, -, -, hvalue⟩ := exists_of_word_bind h
  exact hdenote hvalue

theorem hasType_of_simple {type : SimpleType} {s rest : Text} {v : Value}
    (h : simple type s = .ok (v, rest)) : v.HasType (.simple type) := by
  cases type with
  | string =>
    obtain ⟨⟨t, left⟩, -, heq⟩ := map_eq_ok_iff.mp h
    obtain ⟨rfl, -⟩ := Prod.mk.inj heq
    exact .string t
  | character =>
    obtain ⟨⟨t, left⟩, -, h⟩ := bind_eq_ok_iff.mp h
    simp only at h
    split_ifs at h with hone
    obtain ⟨rfl, -⟩ := Prod.mk.inj (Except.ok.inj h)
    obtain ⟨c, rfl⟩ := List.length_eq_one_iff.mp hone
    exact .character c
  | bool => exact hasType_of_word bool hasType_of_bool h
  | integer kind => exact hasType_of_word (integer kind) hasType_of_integer h
  | fixed kind => exact hasType_of_word (fixedPoint kind) hasType_of_fixedPoint h
  | path kind => exact hasType_of_path h
  | unwritten kind => cases h

/-! ## Sequences -/

section

variable {α : Type} {close : CodePoint} {item : Text → Except LiteralError (α × Text)}

theorem exists_item_of_items : ∀ {fuel : Nat} {s rest : Text} {found : List α},
    items close item fuel s = .ok (found, rest) → ∀ a ∈ found, ∃ t left, item t = .ok (a, left)
  | 0, _, _, _, h => by cases h
  | fuel + 1, s, rest, found, h => by
    rw [items] at h
    obtain ⟨⟨first, left⟩, hfirst, h⟩ := bind_eq_ok_iff.mp h
    simp only at h
    have hone : ∀ a ∈ [first], ∃ t left, item t = .ok (a, left) := by
      intro a ha
      rw [List.mem_singleton.mp ha]
      exact ⟨s, left, hfirst⟩
    split_ifs at h
    · obtain ⟨rfl, -⟩ := Prod.mk.inj (Except.ok.inj h)
      exact hone
    · obtain ⟨⟨others, left'⟩, hothers, h⟩ := bind_eq_ok_iff.mp h
      obtain ⟨rfl, -⟩ := Prod.mk.inj (Except.ok.inj h)
      intro a ha
      rcases List.mem_cons.mp ha with rfl | ha
      · exact ⟨s, left, hfirst⟩
      · exact exists_item_of_items hothers a ha
    · obtain ⟨left', -, h⟩ := bind_eq_ok_iff.mp h
      obtain ⟨rfl, -⟩ := Prod.mk.inj (Except.ok.inj h)
      exact hone

/-- What is true of every item that is read is true of the elements of a sequence. -/
theorem forall_of_sequence {P : α → Prop} (hitem : ∀ t a left, item t = .ok (a, left) → P a)
    {s rest : Text} {found : List α} (h : sequence close item s = .ok (found, rest)) :
    ∀ a ∈ found, P a := by
  unfold sequence at h
  simp only at h
  split_ifs at h
  · obtain ⟨rfl, -⟩ := Prod.mk.inj (Except.ok.inj h)
    simp
  · intro a ha
    obtain ⟨t, left, hread⟩ := exists_item_of_items h a ha
    exact hitem t a left hread

end

/-! ## Values -/

/-- An array is one of so many values exactly if it has them. -/
theorem ofLength_eq_ok_iff {size : Nat} {values : List Value} {v : Value} :
    ofLength size values = .ok v ↔ values.length = size ∧ v = .array values := by
  unfold ofLength
  split_ifs with hsize
  · rw [Except.ok.injEq, and_iff_right hsize, eq_comm]
  · refine iff_of_false ?_ fun h => hsize h.1
    split <;> exact nofun

/-- The error about the number of values names the length, unless that has too many digits. -/
theorem ofLength_of_ne {size : Nat} {values : List Value} (h : values.length ≠ size) :
    ofLength size values =
      if Numeral.IsShort size then .error (.wrongLength size values.length)
      else .error (.numeral .tooManyDigits) := by
  rw [ofLength, if_neg h]
  split
  · next hprint => rw [if_pos (Numeral.isShort_of_print hprint).1]
  · next hprint =>
    obtain ⟨hlong, rfl⟩ := Numeral.eq_tooManyDigits_of_print hprint
    rw [if_neg hlong]

theorem skip_of_expect {c : CodePoint} {s rest : Text} (h : expect c s = .ok rest) :
    skip s = c :: rest := by
  unfold expect at h
  split at h
  · cases h
  · next d left hskip =>
    split_ifs at h with hd
    rw [hskip, hd, Except.ok.inj h]

theorem skip_skip (s : Text) : skip (skip s) = skip s :=
  List.dropWhile_idempotent _ s

/-- Only the word `nil` denotes a missing value. -/
theorem startsNil_of_read {type : Ty} {s rest : Text}
    (h : read type s = .ok (.optional none, rest)) (htype : (Value.optional none).HasType type) :
    startsNil (skip s) = true := by
  obtain ⟨inner, rfl⟩ := htype.exists_optional
  rw [read] at h
  simp only at h
  split_ifs at h with hnil
  · exact hnil
  · obtain ⟨_, -, heq⟩ := map_eq_ok_iff.mp h
    cases (Prod.mk.inj heq).1

theorem hasType_of_read {type : Ty} : ∀ {s rest : Text} {v : Value},
    read type s = .ok (v, rest) → v.HasType type := by
  induction type with
  | optional inner ih =>
    intro s rest v h
    rw [read] at h
    simp only at h
    split_ifs at h with hnil
    · obtain ⟨rfl, -⟩ := Prod.mk.inj (Except.ok.inj h)
      exact .absent inner
    · obtain ⟨⟨value, left⟩, hvalue, heq⟩ := map_eq_ok_iff.mp h
      obtain ⟨rfl, -⟩ := Prod.mk.inj heq
      -- A missing value inside would be the word `nil`, which was looked for first.
      refine .present (fun hmissing => hnil ?_) (ih hvalue)
      subst hmissing
      exact skip_skip s ▸ startsNil_of_read hvalue (ih hvalue)
  | address =>
    intro s rest v h
    rw [read] at h
    exact hasType_of_word address hasType_of_address h
  | simple type =>
    intro s rest v h
    rw [read] at h
    exact hasType_of_simple h
  | array element ih =>
    intro s rest v h
    rw [read] at h
    obtain ⟨inside, -, h⟩ := bind_eq_ok_iff.mp h
    obtain ⟨⟨values, left⟩, hvalues, h⟩ := bind_eq_ok_iff.mp h
    obtain ⟨rfl, -⟩ := Prod.mk.inj (Except.ok.inj h)
    exact .array (forall_of_sequence (fun _ _ _ hw => ih hw) hvalues)
  | constant element size ih =>
    intro s rest v h
    rw [read] at h
    obtain ⟨inside, -, h⟩ := bind_eq_ok_iff.mp h
    obtain ⟨⟨values, left⟩, hvalues, h⟩ := bind_eq_ok_iff.mp h
    obtain ⟨w, hw, heq⟩ := map_eq_ok_iff.mp h
    obtain ⟨rfl, -⟩ := Prod.mk.inj heq
    obtain ⟨rfl, rfl⟩ := ofLength_eq_ok_iff.mp hw
    exact .constant (forall_of_sequence (fun _ _ _ hw => ih hw) hvalues)
  | dictionary key value ihkey ihvalue =>
    intro s rest v h
    rw [read] at h
    obtain ⟨inside, -, h⟩ := bind_eq_ok_iff.mp h
    obtain ⟨⟨pairs, left⟩, hpairs, h⟩ := bind_eq_ok_iff.mp h
    obtain ⟨rfl, -⟩ := Prod.mk.inj (Except.ok.inj h)
    have htyped : ∀ p ∈ pairs, p.1.HasType key ∧ p.2.HasType value := by
      refine forall_of_sequence (fun t p after hentry => ?_) hpairs
      obtain ⟨⟨left, s₁⟩, hleft, hentry⟩ := bind_eq_ok_iff.mp hentry
      obtain ⟨s₂, -, hentry⟩ := bind_eq_ok_iff.mp hentry
      obtain ⟨⟨right, s₃⟩, hright, hentry⟩ := bind_eq_ok_iff.mp hentry
      obtain ⟨rfl, -⟩ := Prod.mk.inj (Except.ok.inj hentry)
      exact ⟨ihkey hleft, ihvalue hright⟩
    exact .dictionary (fun p hp => (htyped p hp).1) fun p hp => (htyped p hp).2
  | nominal name =>
    intro s rest v h
    cases h

/-- A text that is one literal starts with it, and has nothing but blanks after it. -/
theorem parse_eq_ok_iff {text : Text} {type : Ty} {v : Value} :
    parse text type = .ok v ↔ ∃ rest, read type text = .ok (v, rest) ∧ skip rest = [] := by
  unfold parse
  constructor
  · intro h
    split at h
    · cases h
    · next value rest hread =>
      split at h
      · next hskip =>
        obtain rfl := Except.ok.inj h
        exact ⟨rest, hread, hskip⟩
      · cases h
  · rintro ⟨rest, hread, hskip⟩
    simp only [hread, hskip]

/-- A text is refused where no literal is read, and where something follows the literal. -/
theorem parse_eq_error_iff {text : Text} {type : Ty} {e : LiteralError} :
    parse text type = .error e ↔ read type text = .error e ∨
      ∃ v rest, read type text = .ok (v, rest) ∧ skip rest ≠ [] ∧ e = .trailing (skip rest) := by
  unfold parse
  constructor
  · intro h
    split at h
    · next hread => exact .inl (Except.error.inj h ▸ hread)
    · next v rest hread =>
      split at h
      · cases h
      · next hskip => exact .inr ⟨v, rest, hread, hskip, (Except.error.inj h).symm⟩
  · rintro (hread | ⟨v, rest, hread, hskip, rfl⟩)
    · simp only [hread]
    · simp only [hread]

theorem wellFormed_of_parse {text : Text} {type : Ty} {v : Value} (h : parse text type = .ok v) :
    v.WellFormed := by
  obtain ⟨rest, hread, -⟩ := parse_eq_ok_iff.mp h
  exact (hasType_of_read hread).wellFormed

/-- A literal of a type denotes a value of that type. No text is a literal of a nominal type or of a
built-in type that has no literals. -/
theorem parse_typed (text : Text) :
    (∀ type v, parse text type = .ok v → v.HasType type) ∧
      (∀ name, parse text (.nominal name) = .error (.unwritten name)) ∧
      ∀ kind, parse text (.simple (.unwritten kind)) = .error (.unwritten kind.name) := by
  refine ⟨fun type v h => ?_, fun name => rfl, fun kind => rfl⟩
  obtain ⟨rest, hread, -⟩ := parse_eq_ok_iff.mp h
  exact hasType_of_read hread

/-- Two optional numbers in an array, in two bases. -/
theorem parse_typed_array :
    ∃ v, parse "[1, 0x2,]" (.constant (.optional (.simple (.integer .uint8))) 2) = .ok v ∧
      v.HasType (.constant (.optional (.simple (.integer .uint8))) 2) ∧
      parse "[1, 0x2,]" (.nominal "T") = .error (.unwritten "T") ∧
      parse "[1, 0x2,]" (.simple (.unwritten .anyStruct)) = .error (.unwritten "AnyStruct") := by
  obtain ⟨htyped, hnominal, hunwritten⟩ := parse_typed "[1, 0x2,]"
  have hparse : parse "[1, 0x2,]" (.constant (.optional (.simple (.integer .uint8))) 2) =
      .ok (.array [.optional (some (.integer .uint8 1)),
        .optional (some (.integer .uint8 2))]) := by
    cbv
  exact ⟨_, hparse, htyped _ _ hparse, hnominal "T", hunwritten .anyStruct⟩

end ContractKit.Literal
