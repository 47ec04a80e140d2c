import ContractKit.Proofs.StringLiteral

/-!
# Collection literals are made of literals

Every reader stops at the same place when more text follows (`Literal.IsLocal`), unless what follows goes
on with the last word. This holds of the readers of all types by induction (`Literal.isLocal_read`), a
sequence being read item by item. So literals with commas and blanks between them, in brackets or as
entries in braces, are the literal of the collection of their values (`Literal.parse_collection`). Where
an array has another length than it should, the error names the length, and there is none that could do
so if the length has too many digits (`Literal.parse_nil_of_long`).
-/

namespace ContractKit.Literal

/-! ## Skipping blanks -/

theorem skip_blanks_append {blanks : Text} (h : ∀ c ∈ blanks, c.isBlank = true) (s : Text) :
    skip (blanks ++ s) = skip s :=
  List.dropWhile_append_of_pos h

theorem isBlank_of_skip {s tail : Text} {c : CodePoint} (h : skip s = c :: tail) :
    c.isBlank = false := by
  refine Text.head_dropWhile s c ?_
  rw [show s.dropWhile CodePoint.isBlank = c :: tail from h]
  rfl

/-- Blanks are skipped up to the same character when more text follows. -/
theorem skip_append {s tail : Text} {c : CodePoint} (h : skip s = c :: tail) (t : Text) :
    skip (s ++ t) = c :: (tail ++ t) := by
  obtain ⟨blanks, hs, hblanks⟩ := exists_skip s
  rw [hs, h, List.append_assoc, skip_blanks_append hblanks]
  exact skip_cons (isBlank_of_skip h) (tail ++ t)

theorem skip_append_of_starts {s : Text} (h : Starts (skip s)) (t : Text) :
    skip (s ++ t) = skip s ++ t := by
  obtain ⟨c, tail, hskip, -⟩ := h
  rw [skip_append hskip, hskip]
  rfl

theorem expect_eq_ok_iff {c : CodePoint} {s rest : Text} :
    expect c s = .ok rest ↔ skip s = c :: rest := by
  refine ⟨skip_of_expect, fun h => ?_⟩
  simp only [expect, h, if_true]

theorem expect_append {c : CodePoint} {s rest : Text} (h : expect c s = .ok rest) (t : Text) :
    expect c (s ++ t) = .ok (rest ++ t) :=
  expect_eq_ok_iff.mpr (skip_append (skip_of_expect h) t)

theorem ends_blanks_append {blanks s : Text} (h : ∀ c ∈ blanks, c.isBlank = true) (hs : Ends s) :
    Ends (blanks ++ s) := by
  cases blanks with
  | nil => exact hs
  | cons c blanks =>
    have hc : Ends [c] := ends_of_forall_isBlank (by simpa using h c List.mem_cons_self)
    exact hc

/-! ## Readers that stop at the same place -/

/-- The reader skips blanks, does not start at a closing mark, and stops at the same place when text
follows that ends what was read last. -/
structure IsLocal {α : Type} (item : Text → Except LiteralError (α × Text)) : Prop where
  skips : ∀ s, item (skip s) = item s
  starts : ∀ {s rest : Text} {a : α}, item s = .ok (a, rest) → Starts (skip s)
  append : ∀ {s rest : Text} {a : α} (t : Text), item s = .ok (a, rest) → (rest = [] → Ends t) →
    item (s ++ t) = .ok (a, rest ++ t)

theorem head?_append_of_ends {rest t : Text} {P : CodePoint → Prop} (hrest : ∀ c ∈ rest.head?, P c)
    (ht : rest = [] → ∀ c ∈ t.head?, P c) : ∀ c ∈ (rest ++ t).head?, P c := by
  cases rest with
  | nil => exact ht rfl
  | cons c rest => exact hrest

/-! ### Words -/

/-- A word is a run of parts of words, behind a minus sign or not. -/
theorem exists_unsigned_of_word {s found rest : Text} (h : word s = .ok (found, rest)) :
    ∃ unsigned, unsigned ≠ [] ∧ (∀ c ∈ unsigned, isWordPart c = true) ∧
      (found = unsigned ∨ found = ('-' : CodePoint) :: unsigned) := by
  unfold word at h
  split at h
  next sign unsigned hsplit =>
  have hsign : sign = [] ∨ sign = [('-' : CodePoint)] := by
    split at hsplit
    · split_ifs at hsplit with hminus
      · exact .inr (hminus ▸ (Prod.mk.inj hsplit).1.symm)
      · exact .inl (Prod.mk.inj hsplit).1.symm
    · exact .inl (Prod.mk.inj hsplit).1.symm
  split at h
  · cases h
  · next hne =>
    obtain ⟨rfl, -⟩ := Prod.mk.inj (Except.ok.inj h)
    refine ⟨_, hne, fun c hc => List.mem_takeWhile_imp hc, ?_⟩
    rcases hsign with rfl | rfl
    · exact .inl rfl
    · exact .inr rfl

theorem word_append_of_word {s found rest t : Text} (h : word s = .ok (found, rest))
    (ht : rest = [] → EndsWord t) : word (s ++ t) = .ok (found, rest ++ t) := by
  have hends : EndsWord (rest ++ t) := head?_append_of_ends (endsWord_of_word h) ht
  obtain ⟨unsigned, hne, hparts, hfound⟩ := exists_unsigned_of_word h
  rw [(of_word h).1, List.append_assoc]
  rcases hfound with rfl | rfl
  · exact word_append hparts hne hends
  · exact word_minus_append hparts hne hends

theorem starts_of_word {s found rest : Text} (h : word (skip s) = .ok (found, rest)) :
    Starts (skip s) := by
  obtain ⟨unsigned, hne, hparts, hfound⟩ := exists_unsigned_of_word h
  obtain ⟨c, tail, rfl⟩ := List.exists_cons_of_ne_nil hne
  have hc : isWordPart c = true := hparts c (by simp)
  have hbracket : c ≠ ']' ∧ c ≠ '\x7d' := by
    constructor
    · rintro rfl
      cases hc
    · rintro rfl
      cases hc
  obtain ⟨d, rest', hskip, hd⟩ : ∃ d rest', skip s = d :: rest' ∧ d ≠ ']' ∧ d ≠ '\x7d' := by
    rcases hfound with rfl | rfl
    · exact ⟨c, _, (of_word h).1, hbracket⟩
    · exact ⟨'-', _, (of_word h).1, by decide⟩
  exact ⟨d, rest', hskip, isBlank_of_skip hskip, hd⟩

/-- A word that denotes a value is read at the same place. -/
theorem isLocal_word (denote : Text → Except LiteralError Value) :
    IsLocal fun s => word (skip s) >>= fun (found, rest) => do .ok (← denote found, rest) where
  skips s := by rw [skip_skip]
  starts h := by
    obtain ⟨_, hword, -⟩ := bind_eq_ok_iff.mp h
    exact starts_of_word hword
  append {s rest v} t h ht := by
    obtain ⟨⟨found, left⟩, hword, hvalue⟩ := bind_eq_ok_iff.mp h
    obtain ⟨w, hw, hok⟩ := bind_eq_ok_iff.mp hvalue
    obtain ⟨rfl, rfl⟩ := Prod.mk.inj (Except.ok.inj hok)
    obtain ⟨c, tail, hskip, -⟩ := starts_of_word hword
    have happend := word_append_of_word hword fun hnil => (ht hnil).endsWord
    rw [hskip, List.cons_append, ← skip_append hskip] at happend
    rw [happend, ok_bind]
    simp only [hw, ok_bind]

/-! ### Strings and paths -/

theorem string_append {s x rest : Text} (h : string s = .ok (x, rest)) (t : Text) :
    string (s ++ t) = .ok (x, rest ++ t) := by
  obtain ⟨units, hunits, rfl⟩ := string_eq_ok_iff.mp h
  exact string_eq_ok_iff.mpr ⟨units, hunits, List.append_assoc _ _ _⟩

theorem of_identifier {s name rest : Text} (h : identifier s = (name, rest)) (hname : name ≠ []) :
    s = name ++ rest ∧ ∀ c ∈ rest.head?, c.continuesIdentifier = false := by
  unfold identifier at h
  split at h
  · next c tail =>
    split_ifs at h
    · obtain ⟨rfl, rfl⟩ := Prod.mk.inj h
      exact ⟨by rw [List.cons_append, List.takeWhile_append_dropWhile], Text.head_dropWhile _⟩
    · exact absurd (Prod.mk.inj h).1.symm hname
  · exact absurd (Prod.mk.inj h).1.symm hname

/-- What is read as a path is the text of one. -/
theorem exists_of_path {kind : PathKind} {s rest : Text} {v : Value}
    (h : path kind s = .ok (v, rest)) :
    ∃ domain name, v = .path domain name ∧ domain ∈ kind.domains ∧ name.IsIdentifier ∧
      s = .concat ["/", domain, "/", name] ++ rest ∧
      ∀ c ∈ rest.head?, c.continuesIdentifier = false := by
  unfold path at h
  split at h
  · cases h
  next afterSlash hslash =>
  obtain ⟨domain, left, hidentifier⟩ : ∃ domain left, identifier afterSlash = (domain, left) :=
    ⟨_, _, rfl⟩
  simp only [hidentifier] at h
  split_ifs at h with hdomain
  split at h
  · cases h
  next afterDomain hafter =>
  split at h
  · cases h
  next name left' hne hname =>
  obtain ⟨rfl, rfl⟩ := Prod.mk.inj (Except.ok.inj h)
  have hdomain_ne : domain ≠ [] := by
    obtain ⟨c, tail, rfl, -⟩ := isIdentifier_of_mem_domains hdomain
    exact List.cons_ne_nil c tail
  obtain ⟨htext, hends⟩ := of_identifier hname hne
  refine ⟨domain, name, rfl, hdomain, isIdentifier_of_identifier hname hne, ?_, hends⟩
  rw [Text.dropStart?_eq_some_iff.mp hslash, (of_identifier hidentifier hdomain_ne).1,
    Text.dropStart?_eq_some_iff.mp hafter, htext]
  simp [Text.concat]

theorem path_append_of_path {kind : PathKind} {s rest t : Text} {v : Value}
    (h : path kind s = .ok (v, rest)) (ht : rest = [] → Ends t) :
    path kind (s ++ t) = .ok (v, rest ++ t) := by
  obtain ⟨domain, name, rfl, hdomain, hname, rfl, hrest⟩ := exists_of_path h
  rw [List.append_assoc]
  exact path_append hdomain hname
    (head?_append_of_ends hrest fun hnil => (ht hnil).continuesIdentifier)

/-- A reader of what starts with a mark other than a closing one. -/
theorem isLocal_of_head {read : Text → Except LiteralError (Value × Text)} {c : CodePoint}
    (hc : c ≠ ']' ∧ c ≠ '\x7d')
    (hhead : ∀ {s rest : Text} {v : Value}, read s = .ok (v, rest) → s.head? = some c)
    (happend : ∀ {s rest : Text} {v : Value} (t : Text), read s = .ok (v, rest) →
      (rest = [] → Ends t) → read (s ++ t) = .ok (v, rest ++ t)) :
    IsLocal fun s => read (skip s) where
  skips s := by rw [skip_skip]
  starts h := by
    obtain ⟨tail, htail⟩ := List.head?_eq_some_iff.mp (hhead h)
    exact ⟨c, tail, htail, isBlank_of_skip htail, hc⟩
  append t h ht := by
    obtain ⟨tail, htail⟩ := List.head?_eq_some_iff.mp (hhead h)
    have := happend t h ht
    rwa [htail, List.cons_append, ← skip_append htail] at this

theorem isLocal_simple (type : SimpleType) : IsLocal fun s => simple type (skip s) := by
  cases type with
  | string =>
    refine isLocal_of_head (c := '"') (by decide) (fun h => ?_) fun t h _ => ?_
    · obtain ⟨_, hstring, -⟩ := map_eq_ok_iff.mp h
      exact head_of_string hstring
    · obtain ⟨⟨x, left⟩, hstring, heq⟩ := map_eq_ok_iff.mp h
      obtain ⟨rfl, rfl⟩ := Prod.mk.inj heq
      exact map_eq_ok_iff.mpr ⟨_, string_append hstring t, rfl⟩
  | character =>
    refine isLocal_of_head (c := '"') (by decide) (fun h => ?_) fun t h _ => ?_
    · obtain ⟨_, hstring, -⟩ := bind_eq_ok_iff.mp h
      exact head_of_string hstring
    · obtain ⟨⟨x, left⟩, hstring, hone⟩ := bind_eq_ok_iff.mp h
      refine bind_eq_ok_iff.mpr ⟨_, string_append hstring t, ?_⟩
      simp only at hone ⊢
      split_ifs at hone ⊢
      obtain ⟨rfl, rfl⟩ := Prod.mk.inj (Except.ok.inj hone)
      rfl
  | bool => exact isLocal_word bool
  | integer kind => exact isLocal_word (integer kind)
  | fixed kind => exact isLocal_word (fixedPoint kind)
  | path kind =>
    exact isLocal_of_head (c := '/') (by decide) head_of_path fun t h ht => path_append_of_path h ht
  | unwritten kind => exact isLocal_of_head (c := '/') (by decide) nofun nofun

/-! ## Sequences -/

section

variable {α : Type} {close : CodePoint} {item : Text → Except LiteralError (α × Text)}

/-- What stands behind the first item: the closing mark, a comma and the closing mark, or a comma and
the other items. -/
theorem items_succ_eq_ok_iff (hclose : Closes close) {fuel : Nat} {s rest : Text} {found : List α} :
    items close item (fuel + 1) s = .ok (found, rest) ↔ ∃ first left, item s = .ok (first, left) ∧
      (skip left = close :: rest ∧ found = [first] ∨
        ∃ after, skip left = (',' : CodePoint) :: after ∧
          (skip after = close :: rest ∧ found = [first] ∨
            (skip after).head? ≠ some close ∧ ∃ others,
              items close item fuel (skip after) = .ok (others, rest) ∧ found = first :: others)) := by
  have hcomma : ∀ {left : Text}, skip left = close :: rest →
      (skip left).head? ≠ some (',' : CodePoint) := by
    intro left h hhead
    rw [h] at hhead
    exact hclose.ne_comma (Option.some.inj hhead)
  rw [items]
  constructor
  · intro h
    obtain ⟨⟨first, left⟩, hfirst, h⟩ := bind_eq_ok_iff.mp h
    refine ⟨first, left, hfirst, ?_⟩
    simp only at h
    split_ifs at h with hhead hend
    · obtain ⟨after, hafter⟩ := List.head?_eq_some_iff.mp hhead
      simp only [hafter, List.drop_succ_cons, List.drop_zero] at hend h
      obtain ⟨tail, htail⟩ := List.head?_eq_some_iff.mp hend
      simp only [htail, List.drop_succ_cons, List.drop_zero] at h
      obtain ⟨rfl, rfl⟩ := Prod.mk.inj (Except.ok.inj h)
      exact .inr ⟨after, hafter, .inl ⟨htail, rfl⟩⟩
    · obtain ⟨after, hafter⟩ := List.head?_eq_some_iff.mp hhead
      simp only [hafter, List.drop_succ_cons, List.drop_zero] at hend h
      obtain ⟨⟨others, left'⟩, hothers, h⟩ := bind_eq_ok_iff.mp h
      obtain ⟨rfl, rfl⟩ := Prod.mk.inj (Except.ok.inj h)
      exact .inr ⟨after, hafter, .inr ⟨hend, others, hothers, rfl⟩⟩
    · obtain ⟨left', hleft, h⟩ := bind_eq_ok_iff.mp h
      obtain ⟨rfl, rfl⟩ := Prod.mk.inj (Except.ok.inj h)
      exact .inl ⟨skip_skip left ▸ skip_of_expect hleft, rfl⟩
  · rintro ⟨first, left, hfirst, hnext⟩
    rw [hfirst, ok_bind]
    simp only
    rcases hnext with ⟨hlast, rfl⟩ | ⟨after, hafter, hnext⟩
    · have hexpect : expect close (skip left) = .ok rest := by
        rw [expect_eq_ok_iff, skip_skip, hlast]
      rw [if_neg (hcomma hlast), hexpect, ok_bind]
    · simp only [hafter, List.head?_cons, if_true, List.drop_succ_cons, List.drop_zero]
      rcases hnext with ⟨hlast, rfl⟩ | ⟨hend, others, hothers, rfl⟩
      · simp only [hlast, List.head?_cons, if_true, List.drop_succ_cons, List.drop_zero]
      · rw [if_neg hend, hothers, ok_bind]

theorem sequence_eq_ok_iff {s rest : Text} {found : List α} :
    sequence close item s = .ok (found, rest) ↔
      skip s = close :: rest ∧ found = [] ∨
        (skip s).head? ≠ some close ∧
          items close item ((skip s).length + 1) (skip s) = .ok (found, rest) := by
  unfold sequence
  simp only
  split_ifs with hend
  · obtain ⟨tail, htail⟩ := List.head?_eq_some_iff.mp hend
    simp [htail, eq_comm, and_comm]
  · have hne : skip s ≠ close :: rest := fun h => hend (h ▸ rfl)
    simp only [hne, false_and, false_or, ne_eq, hend, not_false_iff, true_and]

theorem starts_of_items (hitem : IsLocal item) {fuel : Nat} {s rest : Text} {found : List α}
    (h : items close item fuel s = .ok (found, rest)) : Starts (skip s) := by
  cases fuel with
  | zero => cases h
  | succ fuel =>
    rw [items] at h
    obtain ⟨⟨first, left⟩, hfirst, -⟩ := bind_eq_ok_iff.mp h
    exact hitem.starts hfirst

/-- Items are read at the same place, with more text behind them and with more fuel. -/
theorem items_append (hclose : Closes close) (hitem : IsLocal item) (t : Text) :
    ∀ {fuel more : Nat} {s rest : Text} {found : List α}, fuel ≤ more →
      items close item fuel s = .ok (found, rest) →
      items close item more (s ++ t) = .ok (found, rest ++ t)
  | 0, _, _, _, _, _, h => by cases h
  | fuel + 1, 0, _, _, _, hle, _ => absurd hle (by omega)
  | fuel + 1, more + 1, s, rest, found, hle, h => by
    obtain ⟨first, left, hfirst, hnext⟩ := (items_succ_eq_ok_iff hclose).mp h
    have hne : left ≠ [] := by
      rintro rfl
      rcases hnext with ⟨hnil, -⟩ | ⟨_, hnil, -⟩ <;> cases hnil
    refine (items_succ_eq_ok_iff hclose).mpr
      ⟨first, left ++ t, hitem.append t hfirst fun hnil => absurd hnil hne, ?_⟩
    rcases hnext with ⟨hlast, rfl⟩ | ⟨after, hafter, hnext⟩
    · exact .inl ⟨skip_append hlast t, rfl⟩
    · refine .inr ⟨after ++ t, skip_append hafter t, ?_⟩
      rcases hnext with ⟨hlast, rfl⟩ | ⟨-, others, hothers, rfl⟩
      · exact .inl ⟨skip_append hlast t, rfl⟩
      · have hstarts : Starts (skip after) := skip_skip after ▸ starts_of_items hitem hothers
        rw [skip_append_of_starts hstarts]
        exact .inr ⟨(hstarts.append t).head_ne hclose, others,
          items_append hclose hitem t (by omega) hothers, rfl⟩

theorem sequence_append (hclose : Closes close) (hitem : IsLocal item) {s rest : Text}
    {found : List α} (h : sequence close item s = .ok (found, rest)) (t : Text) :
    sequence close item (s ++ t) = .ok (found, rest ++ t) := by
  rcases sequence_eq_ok_iff.mp h with ⟨hend, rfl⟩ | ⟨-, hitems⟩
  · exact sequence_eq_ok_iff.mpr (.inl ⟨skip_append hend t, rfl⟩)
  · have hstarts : Starts (skip s) := skip_skip s ▸ starts_of_items hitem hitems
    refine sequence_eq_ok_iff.mpr (.inr ?_)
    rw [skip_append_of_starts hstarts]
    refine ⟨(hstarts.append t).head_ne hclose, items_append hclose hitem t ?_ hitems⟩
    rw [List.length_append]
    omega

end

/-! ## Values -/

theorem isLocal_entry {key value : Ty} (hkey : IsLocal (read key)) (hvalue : IsLocal (read value)) :
    IsLocal (entry key value) where
  skips s := by rw [entry, hkey.skips, entry]
  starts h := by
    obtain ⟨_, hleft, -⟩ := bind_eq_ok_iff.mp h
    exact hkey.starts hleft
  append {s rest p} t h ht := by
    obtain ⟨⟨left, s₁⟩, hleft, h⟩ := bind_eq_ok_iff.mp h
    obtain ⟨s₂, hcolon, h⟩ := bind_eq_ok_iff.mp h
    obtain ⟨⟨right, s₃⟩, hright, h⟩ := bind_eq_ok_iff.mp h
    obtain ⟨rfl, rfl⟩ := Prod.mk.inj (Except.ok.inj h)
    have hne : s₁ ≠ [] := by
      rintro rfl
      cases hcolon
    rw [entry, hkey.append t hleft fun hnil => absurd hnil hne, ok_bind]
    simp only [expect_append hcolon t, ok_bind, hvalue.append t hright ht]

theorem startsNil_append_iff {rest : Text} : startsNil ("nil" ++ rest) = true ↔
    ∀ c ∈ rest.head?, c.isAlphanumeric = false ∧ c ≠ '_' := by
  rw [startsNil, Text.dropStart?_append]
  cases rest <;> simp

/-- A literal that starts with `n` is the word `nil`. -/
theorem startsNil_of_head {type : Ty} : ∀ {s rest : Text} {v : Value},
    read type s = .ok (v, rest) → (skip s).head? = some ('n' : CodePoint) →
      startsNil (skip s) = true := by
  induction type with
  | optional inner ih =>
    intro s rest v h hhead
    rw [read] at h
    simp only at h
    split_ifs at h with hnil
    · exact hnil
    · obtain ⟨_, hinner, -⟩ := map_eq_ok_iff.mp h
      exact skip_skip s ▸ ih hinner (by rwa [skip_skip])
  | _ => exact fun h hhead => absurd hhead (head_skip_ne_of_read (by rintro _ ⟨⟩) h)

theorem isLocal_optional {inner : Ty} (h : IsLocal (read inner)) : IsLocal (read (.optional inner)) where
  skips s := read_skip (.optional inner) s
  starts {s rest v} hread := by
    rw [read] at hread
    simp only at hread
    split_ifs at hread with hnil
    · exact ⟨'n', _, eq_of_startsNil hnil, by decide⟩
    · obtain ⟨_, hinner, -⟩ := map_eq_ok_iff.mp hread
      exact skip_skip s ▸ h.starts hinner
  append {s rest v} t hread ht := by
    rw [read] at hread ⊢
    simp only at hread ⊢
    split_ifs at hread with hnil
    · obtain ⟨rfl, rfl⟩ := Prod.mk.inj (Except.ok.inj hread)
      have hnil' : startsNil ("nil" ++ (skip s).drop 3) = true := eq_of_startsNil hnil ▸ hnil
      have happend : skip (s ++ t) = "nil" ++ ((skip s).drop 3 ++ t) :=
        skip_append (eq_of_startsNil hnil) t
      have hends := head?_append_of_ends (startsNil_append_iff.mp hnil') fun hnone c hc =>
        ⟨(ht hnone c hc).2, by
          rintro rfl
          cases (ht hnone _ hc).1⟩
      rw [happend, if_pos (startsNil_append_iff.mpr hends)]
      rfl
    · obtain ⟨⟨w, left⟩, hinner, heq⟩ := map_eq_ok_iff.mp hread
      obtain ⟨rfl, rfl⟩ := Prod.mk.inj heq
      have hstarts : Starts (skip s) := skip_skip s ▸ h.starts hinner
      -- Only the word `nil` starts with its first letter, also when more text follows.
      have hhead : (skip s ++ t).head? ≠ some ('n' : CodePoint) := by
        obtain ⟨c, tail, hskip, -⟩ := hstarts
        intro hn
        rw [hskip] at hn
        have hhead := startsNil_of_head hinner (by rw [skip_skip, hskip]; exact hn)
        exact hnil (skip_skip s ▸ hhead)
      have hnil' : ¬ startsNil (skip s ++ t) = true := by
        intro hnil'
        rw [eq_of_startsNil hnil'] at hhead
        exact hhead rfl
      rw [skip_append_of_starts hstarts, if_neg hnil', h.append t hinner ht]
      rfl

/-- A sequence behind its opening mark. -/
theorem isLocal_sequence {α : Type} {item : Text → Except LiteralError (α × Text)}
    {opening close : CodePoint} (hopening : opening ≠ ']' ∧ opening ≠ '\x7d')
    (hclose : Closes close) (hitem : IsLocal item) (result : List α → Except LiteralError Value) :
    IsLocal fun s => expect opening s >>= fun rest => sequence close item rest >>= fun (found, rest) =>
      (result found).map (·, rest) where
  skips s := by simp only [expect, skip_skip]
  starts h := by
    obtain ⟨_, hopen, -⟩ := bind_eq_ok_iff.mp h
    have hskip := skip_of_expect hopen
    exact ⟨opening, _, hskip, isBlank_of_skip hskip, hopening⟩
  append {s rest v} t h _ := by
    obtain ⟨inside, hopen, h⟩ := bind_eq_ok_iff.mp h
    obtain ⟨⟨found, left⟩, hfound, h⟩ := bind_eq_ok_iff.mp h
    obtain ⟨w, hw, heq⟩ := map_eq_ok_iff.mp h
    obtain ⟨rfl, rfl⟩ := Prod.mk.inj heq
    rw [expect_append hopen, ok_bind, sequence_append hclose hitem hfound, ok_bind]
    simp only [hw]
    rfl

theorem read_constant (element : Ty) (size : Nat) (s : Text) : read (.constant element size) s =
    expect '[' s >>= fun rest => sequence ']' (read element) rest >>= fun (values, rest) =>
      (ofLength size values).map (·, rest) :=
  rfl

theorem isLocal_read (type : Ty) : IsLocal (read type) := by
  induction type with
  | optional inner ih => exact isLocal_optional ih
  | address => exact isLocal_word address
  | simple type => exact isLocal_simple type
  | array element ih =>
    exact isLocal_sequence (by decide) (.inl rfl) ih fun values => .ok (.array values)
  | constant element size ih =>
    rw [funext (read_constant element size)]
    exact isLocal_sequence (by decide) (.inl rfl) ih (ofLength size)
  | dictionary key value ihkey ihvalue =>
    exact isLocal_sequence (by decide) (.inr rfl) (isLocal_entry ihkey ihvalue)
      fun pairs => .ok (.dictionary pairs)
  | nominal name => exact ⟨fun s => rfl, nofun, nofun⟩

/-! ## Rows -/

/-- The texts one after the other, with a comma between any two, blanks anywhere around them, and a comma
behind the last one or none. -/
inductive Row : List Text → Text → Prop
  /-- No texts; behind a comma, nothing more. -/
  | nil {blanks : Text} : (∀ c ∈ blanks, c.isBlank = true) → Row [] blanks
  /-- A last text without a comma. -/
  | last {before t after : Text} : (∀ c ∈ before, c.isBlank = true) →
      (∀ c ∈ after, c.isBlank = true) → Row [t] (before ++ (t ++ after))
  /-- A text with a comma, and the others. -/
  | cons {before t after : Text} {ts : List Text} {s : Text} : (∀ c ∈ before, c.isBlank = true) →
      (∀ c ∈ after, c.isBlank = true) → Row ts s →
      Row (t :: ts) (before ++ (t ++ (after ++ (',' : CodePoint) :: s)))

/-- The text is one item with blanks around it. -/
def Accepts {α : Type} (item : Text → Except LiteralError (α × Text)) (t : Text) (a : α) : Prop :=
  ∃ rest, item t = .ok (a, rest) ∧ skip rest = []

section

variable {α : Type} {close : CodePoint} {item : Text → Except LiteralError (α × Text)}

theorem Accepts.starts {t : Text} {a : α} (h : Accepts item t a) (hitem : IsLocal item) :
    Starts (skip t) := by
  obtain ⟨rest, ht, -⟩ := h
  exact hitem.starts ht

/-- Behind blanks and in front of blanks and a mark, the item is read up to blanks and the mark. -/
theorem Accepts.append {t : Text} {a : α} (h : Accepts item t a) (hitem : IsLocal item)
    {before after s : Text} (hbefore : ∀ c ∈ before, c.isBlank = true)
    (hafter : ∀ c ∈ after, c.isBlank = true) (hs : Ends s) :
    ∃ left, item (before ++ (t ++ (after ++ s))) = .ok (a, left) ∧ skip left = skip s := by
  obtain ⟨rest, ht, hrest⟩ := h
  refine ⟨rest ++ (after ++ s), ?_, ?_⟩
  · rw [← hitem.skips, skip_blanks_append hbefore, hitem.skips]
    exact hitem.append _ ht fun _ => ends_blanks_append hafter hs
  · rw [skip_blanks_append (skip_eq_nil_iff.mp hrest), skip_blanks_append hafter]

/-- There are no more texts than characters. -/
theorem Row.length_le {ts : List Text} {inside : Text} (h : Row ts inside)
    (hts : ∀ t ∈ ts, Starts (skip t)) (rest : Text) :
    ts.length ≤ (skip (inside ++ rest)).length := by
  have hskip : ∀ {before t s : Text}, (∀ c ∈ before, c.isBlank = true) → Starts (skip t) →
      s.length < (skip (before ++ (t ++ s))).length := by
    rintro before t s hbefore ⟨c, tail, ht, -⟩
    rw [skip_blanks_append hbefore, skip_append ht, List.length_cons, List.length_append]
    omega
  induction h with
  | nil => exact Nat.zero_le _
  | @last before t after hbefore hafter =>
    rw [List.append_assoc, List.append_assoc]
    have := hskip (s := after ++ rest) hbefore (hts t (by simp))
    rw [List.length_singleton]
    omega
  | @cons before t after ts s hbefore hafter _ ih =>
    rw [List.append_assoc, List.append_assoc]
    have hfirst := hskip (s := after ++ (',' : CodePoint) :: s ++ rest) hbefore (hts t (by simp))
    have hothers := ih fun t' ht' => hts t' (List.mem_cons_of_mem t ht')
    have hle : (skip (s ++ rest)).length ≤ (s ++ rest).length := (skip_suffix _).length_le
    simp only [List.length_append, List.length_cons] at hfirst hothers hle ⊢
    omega

theorem items_skip (hitem : IsLocal item) (fuel : Nat) (s : Text) :
    items close item (fuel + 1) (skip s) = items close item (fuel + 1) s := by
  rw [items, items, hitem.skips]

/-- The items of a row are read up to the closing mark. -/
theorem items_of_row (hclose : Closes close) (hitem : IsLocal item) {ts : List Text} {inside : Text}
    (hrow : Row ts inside) (rest : Text) : ∀ {as : List α} {fuel : Nat},
    List.Forall₂ (Accepts item) ts as → ts ≠ [] → ts.length ≤ fuel →
      items close item fuel (inside ++ close :: rest) = .ok (as, rest) := by
  have hend : skip (close :: rest) = close :: rest := skip_cons hclose.isBlank rest
  induction hrow with
  | nil => exact fun _ hne => absurd rfl hne
  | @last before t after hbefore hafter =>
    rintro as fuel (_ | ⟨ha, ⟨⟩⟩) - hfuel
    obtain ⟨fuel, rfl⟩ := Nat.exists_eq_add_one_of_ne_zero (Nat.ne_zero_of_lt hfuel)
    obtain ⟨left, hleft, hskip⟩ := ha.append hitem hbefore hafter (hclose.ends rest)
    rw [List.append_assoc, List.append_assoc]
    exact (items_succ_eq_ok_iff hclose).mpr ⟨_, left, hleft, .inl ⟨hskip.trans hend, rfl⟩⟩
  | @cons before t after ts s hbefore hafter hs ih =>
    rintro as fuel (_ | ⟨ha, has⟩) - hfuel
    obtain ⟨fuel, rfl⟩ := Nat.exists_eq_add_one_of_ne_zero (Nat.ne_zero_of_lt hfuel)
    obtain ⟨left, hleft, hskip⟩ :=
      ha.append hitem hbefore hafter (ends_comma (s ++ close :: rest))
    rw [skip_cons (by decide)] at hskip
    have htext : before ++ (t ++ (after ++ (',' : CodePoint) :: s)) ++ close :: rest =
        before ++ (t ++ (after ++ (',' : CodePoint) :: (s ++ close :: rest))) := by
      simp
    rw [htext]
    refine (items_succ_eq_ok_iff hclose).mpr ⟨_, left, hleft, .inr ⟨_, hskip, ?_⟩⟩
    by_cases hts : ts = []
    · subst hts
      cases has
      cases hs with
      | nil hblanks => exact .inl ⟨(skip_blanks_append hblanks _).trans hend, rfl⟩
    · have hothers := ih has hts (Nat.le_of_succ_le_succ hfuel)
      have hpos : 0 < fuel :=
        (List.length_pos_iff.mpr hts).trans_le (Nat.le_of_succ_le_succ hfuel)
      obtain ⟨fuel, rfl⟩ := Nat.exists_eq_add_one_of_ne_zero hpos.ne'
      exact .inr ⟨(starts_of_items hitem hothers).head_ne hclose, _,
        (items_skip hitem fuel _).trans hothers, rfl⟩

/-- A sequence is read from behind its opening mark. -/
theorem sequence_of_row (hclose : Closes close) (hitem : IsLocal item) {ts : List Text} {inside : Text}
    (hrow : Row ts inside) {as : List α} (has : List.Forall₂ (Accepts item) ts as) (rest : Text) :
    sequence close item (inside ++ close :: rest) = .ok (as, rest) := by
  rw [sequence_eq_ok_iff]
  by_cases hts : ts = []
  · subst hts
    cases has
    cases hrow with
    | nil hblanks =>
      exact .inl ⟨(skip_blanks_append hblanks _).trans (skip_cons hclose.isBlank rest), rfl⟩
  · have hstarts : ∀ t ∈ ts, Starts (skip t) := by
      intro t ht
      obtain ⟨a, -, ha⟩ := exists_left_of_forall₂ has t ht
      exact ha.starts hitem
    have hread := items_of_row hclose hitem hrow rest has hts
      (Nat.le_succ_of_le (hrow.length_le hstarts (close :: rest)))
    exact .inr ⟨(starts_of_items hitem hread).head_ne hclose, (items_skip hitem _ _).trans hread⟩

end

/-! ## Collections -/

/-- A key and a value with a colon between them and blanks around the colon. -/
def IsEntry (pieces : Text × Text) (t : Text) : Prop :=
  ∃ before after, (∀ c ∈ before, c.isBlank = true) ∧ (∀ c ∈ after, c.isBlank = true) ∧
    t = pieces.1 ++ (before ++ (':' : CodePoint) :: (after ++ pieces.2))

theorem accepts_entry {key value : Ty} {pieces : Text × Text} {t : Text} {p : Value × Value}
    (hkey : Accepts (read key) pieces.1 p.1) (hvalue : Accepts (read value) pieces.2 p.2)
    (ht : IsEntry pieces t) : Accepts (entry key value) t p := by
  obtain ⟨before, after, hbefore, hafter, rfl⟩ := ht
  have hcolon : Ends ((':' : CodePoint) :: (after ++ pieces.2)) :=
    ends_cons (by decide) (by decide +kernel) _
  have hnone : ∀ c ∈ ([] : Text), c.isBlank = true := nofun
  obtain ⟨left, hleft, hskip⟩ := hkey.append (isLocal_read key) hnone hbefore hcolon
  rw [skip_cons (by decide)] at hskip
  obtain ⟨rest, hright, hrest⟩ := hvalue
  have hblanks : read value (after ++ pieces.2) = .ok (p.2, rest) := by
    rw [← read_skip, skip_blanks_append hafter, read_skip, hright]
  refine ⟨rest, ?_, hrest⟩
  rw [List.nil_append] at hleft
  rw [entry, hleft, ok_bind]
  simp only [expect_eq_ok_iff.mpr hskip, ok_bind, hblanks]

theorem accepts_entries {key value : Ty} {pieces : List (Text × Text)}
    {pairs : List (Value × Value)}
    (hpairs : List.Forall₂
      (fun piece p => parse piece.1 key = .ok p.1 ∧ parse piece.2 value = .ok p.2) pieces pairs) :
    ∀ {texts : List Text}, List.Forall₂ IsEntry pieces texts →
      List.Forall₂ (Accepts (entry key value)) texts pairs := by
  induction hpairs with
  | nil =>
    rintro _ ⟨⟩
    exact .nil
  | cons hpair _ ih =>
    rintro _ (_ | ⟨ht, hts⟩)
    exact .cons (accepts_entry (parse_eq_ok_iff.mp hpair.1) (parse_eq_ok_iff.mp hpair.2) ht) (ih hts)

/-- A row of items between its marks is read as a whole. -/
theorem expect_sequence_of_row {α : Type} {item : Text → Except LiteralError (α × Text)}
    {opening close : CodePoint} (hopening : opening.isBlank = false) (hclose : Closes close)
    (hitem : IsLocal item) {ts : List Text} {inside : Text} (hrow : Row ts inside) {as : List α}
    (has : List.Forall₂ (Accepts item) ts as) :
    (expect opening (opening :: (inside ++ [close])) >>= fun rest => sequence close item rest) =
      .ok (as, []) := by
  rw [expect_cons hopening, ok_bind]
  exact sequence_of_row hclose hitem hrow has []

/-- Of texts in a row, with commas between them: if they are literals of one type, the row in brackets is
the literal of the array of their values, if the array may have that length. The error about another
length names it, unless it has too many digits to be written. If they are keys and values with colons
between them, the row in braces is the literal of the dictionary of their values, in order and with all
repetitions. -/
theorem parse_collection {texts : List Text} {inside : Text} (hrow : Row texts inside) :
    (∀ (element : Ty) (values : List Value),
      List.Forall₂ (fun t v => parse t element = .ok v) texts values →
        parse (('[' : CodePoint) :: (inside ++ [(']' : CodePoint)])) (.array element) =
            .ok (.array values) ∧
          ∀ size, parse (('[' : CodePoint) :: (inside ++ [(']' : CodePoint)]))
              (.constant element size) =
            if texts.length = size then .ok (.array values)
            else if Numeral.IsShort size then .error (.wrongLength size texts.length)
            else .error (.numeral .tooManyDigits)) ∧
      ∀ (key value : Ty) (pieces : List (Text × Text)) (pairs : List (Value × Value)),
        List.Forall₂ (fun piece p => parse piece.1 key = .ok p.1 ∧ parse piece.2 value = .ok p.2)
          pieces pairs →
        List.Forall₂ IsEntry pieces texts →
          parse (('\x7b' : CodePoint) :: (inside ++ [('\x7d' : CodePoint)])) (.dictionary key value) =
            .ok (.dictionary pairs) := by
  constructor
  · intro element values hvalues
    have haccepts : List.Forall₂ (Accepts (read element)) texts values :=
      hvalues.imp fun t v h => parse_eq_ok_iff.mp h
    have hopening : CodePoint.isBlank '[' = false := by decide
    have hread := expect_sequence_of_row hopening (.inl rfl)
      (isLocal_read element) hrow haccepts
    refine ⟨parse_eq_ok_iff.mpr ⟨[], ?_, rfl⟩, fun size => ?_⟩
    · rw [read, ← bind_assoc, hread]
      rfl
    · have hconstant : read (.constant element size)
          (('[' : CodePoint) :: (inside ++ [(']' : CodePoint)])) =
            (ofLength size values).map (·, []) := by
        rw [read_constant, ← bind_assoc, hread]
        rfl
      rw [hvalues.length_eq]
      by_cases hsize : values.length = size
      · rw [ofLength_eq_ok_iff.mpr ⟨hsize, rfl⟩] at hconstant
        rw [if_pos hsize]
        exact parse_eq_ok_iff.mpr ⟨[], hconstant, rfl⟩
      · rw [ofLength_of_ne hsize] at hconstant
        rw [if_neg hsize]
        split_ifs at hconstant ⊢ <;> exact parse_eq_error_iff.mpr (.inl hconstant)
  · intro key value pieces pairs hpairs hentries
    have hopening : CodePoint.isBlank '\x7b' = false := by decide
    have hread := expect_sequence_of_row hopening (.inr rfl)
      (isLocal_entry (isLocal_read key) (isLocal_read value)) hrow (accepts_entries hpairs hentries)
    refine parse_eq_ok_iff.mpr ⟨[], ?_, rfl⟩
    rw [read_dictionary, ← bind_assoc, hread]
    rfl

/-- Two numbers with a comma behind the second, and an entry that is there twice. -/
theorem parse_collection_rows :
    parse "[1 , 0x2,]" (.array (.simple (.integer .uint8))) =
        .ok (.array [.integer .uint8 1, .integer .uint8 2]) ∧
      parse "[1 , 0x2,]" (.constant (.simple (.integer .uint8)) 3) = .error (.wrongLength 3 2) ∧
      parse "\x7btrue :nil,true :nil\x7d"
          (.dictionary (.simple .bool) (.optional (.simple .string))) =
        .ok (.dictionary [(.bool true, .optional none), (.bool true, .optional none)]) := by
  have hone : parse "1" (.simple (.integer .uint8)) = .ok (.integer .uint8 1) := by cbv
  have htwo : parse "0x2" (.simple (.integer .uint8)) = .ok (.integer .uint8 2) := by cbv
  have htrue : parse "true" (.simple .bool) = .ok (.bool true) := by cbv
  have hnil : parse "nil" (.optional (.simple .string)) = .ok (.optional none) := by cbv
  have hnone : ∀ c ∈ ([] : Text), c.isBlank = true := by simp
  have hblank : ∀ c ∈ (" " : Text), c.isBlank = true := by decide
  have hentry : IsEntry ("true", "nil") "true :nil" := ⟨" ", [], hblank, hnone, rfl⟩
  have hnumbers : Row ["1", "0x2"] "1 , 0x2," :=
    .cons hnone hblank (.cons hblank hnone (.nil hnone))
  have hentries : Row ["true :nil", "true :nil"] "true :nil,true :nil" :=
    .cons hnone hnone (.last hnone hnone)
  obtain ⟨hvalues, hlength⟩ := (parse_collection hnumbers).1 _ _ (.cons hone (.cons htwo .nil))
  have hshort : Numeral.IsShort (3 : Nat) := Numeral.isShort_of_lt (k := 1) (by decide) (by decide)
  have hthree := hlength 3
  rw [if_neg (by decide), if_pos hshort] at hthree
  exact ⟨hvalues, hthree, (parse_collection hentries).2 _ _ [("true", "nil"), ("true", "nil")] _
    (.cons ⟨htrue, hnil⟩ (.cons ⟨htrue, hnil⟩ .nil)) (.cons hentry (.cons hentry .nil))⟩

/-- No values, for an array of a length with more digits than can be written. -/
theorem parse_nil_of_long {element : Ty} {size : Nat} (h : ¬ Numeral.IsShort size) :
    parse "[]" (.constant element size) = .error (.numeral .tooManyDigits) := by
  have hsize : ([] : List Value).length ≠ size := by
    rintro rfl
    exact h (Numeral.isShort_of_lt (k := 1) (by decide) (by decide))
  have hread : read (.constant element size) "[]" = (ofLength size []).map (·, []) := by
    rw [read_constant]
    rfl
  rw [ofLength_of_ne hsize, if_neg h] at hread
  exact parse_eq_error_iff.mpr (.inl hread)

/-- At the first length that cannot be written the error is about its digits and not about the length. -/
theorem parse_nil_of_first_long :
    parse "[]" (.constant (.simple (.integer .int)) (10 ^ Numeral.decimalLimit)) =
      .error (.numeral .tooManyDigits) :=
  parse_nil_of_long (Numeral.not_isShort_of_le (le_refl _))

end ContractKit.Literal
