import ContractKit.Proofs.Layout

/-!
# Rendered tokens are scanned again

A text spells tokens if they are found in it wherever it ends (`Token.Spells`). Texts of tokens may be
put together where the last token of the first one ends before the second one, as before a mark that
goes on with no token (`Token.Separates`). Rendering puts the texts of tokens together with a space here
and there, so tokens with marks between any two words are found again in their rendered text
(`Token.Renders.spells_render`).
-/

namespace ContractKit.Token

instance (c : CodePoint) : Decidable (mark c).IsProper := by
  unfold IsProper
  infer_instance

/-! ## Where tokens end -/

/-- No token goes on with the character. -/
def Separates (c : CodePoint) : Prop :=
  continuesNumber c = false ∧ c ≠ '/' ∧ c ≠ '*'

instance (c : CodePoint) : Decidable (Separates c) := by
  unfold Separates
  infer_instance

theorem endsBefore_of_separates {c : CodePoint} (h : Separates c) (token : Token) (s : Text) :
    token.EndsBefore (c :: s) := by
  obtain ⟨hnumber, hslash, hstar⟩ := h
  have hidentifier : c.continuesIdentifier = false := (Bool.or_eq_false_iff.mp hnumber).1
  cases token with
  | identifier text => exact fun d hd => Option.some.inj hd ▸ hidentifier
  | number text => exact fun d hd => Option.some.inj hd ▸ hnumber
  | string text => trivial
  | mark d => exact fun _ => ⟨fun h => hslash (Option.some.inj h), fun h => hstar (Option.some.inj h)⟩

theorem StringRest.suffix {rest : Text} (h : StringRest rest) : [('"' : CodePoint)] <:+ rest := by
  induction h with
  | close => exact List.suffix_rfl
  | escape c _ ih => exact ih.trans ((List.suffix_cons _ _).trans (List.suffix_cons _ _))
  | char _ _ _ _ ih => exact ih.trans (List.suffix_cons _ _)

theorem isBlank_of_continuesNumber {c : CodePoint} (h : continuesNumber c = true) :
    c.isBlank = false := by
  by_contra hblank
  rw [Bool.not_eq_false] at hblank
  rw [CodePoint.of_isBlank (P := fun c => continuesNumber c = false) (by decide) hblank] at h
  cases h

theorem isBlank_of_continuesIdentifier {c : CodePoint} (h : c.continuesIdentifier = true) :
    c.isBlank = false :=
  isBlank_of_continuesNumber (by rw [continuesNumber, h, Bool.true_or])

/-- There is no blank in a name. -/
theorem isBlank_of_mem_identifier {name : Text} (h : (identifier name).IsProper) :
    ∀ c ∈ name, c.isBlank = false := by
  obtain ⟨d, rest, rfl, hd, hrest⟩ := h
  exact List.forall_mem_cons.mpr
    ⟨(of_startsIdentifier hd).1, fun c hc => isBlank_of_continuesIdentifier (hrest c hc)⟩

/-- No blank ends a token. -/
theorem IsProper.isBlank_getLast? {token : Token} (h : token.IsProper) :
    ∀ c ∈ token.text.getLast?, c.isBlank = false := by
  intro c hc
  cases token with
  | identifier text => exact isBlank_of_mem_identifier h c (List.mem_of_mem_getLast? hc)
  | number text =>
    obtain ⟨d, rest, rfl, hd, hrest⟩ := h
    rcases List.mem_cons.mp (List.mem_of_mem_getLast? hc) with rfl | hc
    · exact (of_isAsciiDigit hd).1
    · exact isBlank_of_continuesNumber (hrest c hc)
  | string text =>
    obtain ⟨rest, rfl, hrest⟩ := h
    obtain ⟨before, rfl⟩ := hrest.suffix
    rw [Token.text, ← List.cons_append, List.getLast?_concat] at hc
    exact Option.some.inj hc ▸ rfl
  | mark d => exact Option.some.inj hc ▸ h.1

theorem IsProper.text_ne_nil {token : Token} (h : token.IsProper) : token.text ≠ [] := by
  cases token with
  | identifier text | number text =>
    obtain ⟨c, rest, rfl, -⟩ := h
    exact List.cons_ne_nil c rest
  | string text =>
    obtain ⟨rest, rfl, -⟩ := h
    exact List.cons_ne_nil _ rest
  | mark c => exact List.cons_ne_nil c []

/-! ## Texts of tokens -/

/-- In front of what ends the last one of them, the text is scanned as the tokens. -/
def Spells (ts : List Token) (s : Text) : Prop :=
  ∀ t, (∀ a ∈ ts.getLast?, a.EndsBefore t) → scan (s ++ t) = (scan t).map (ts ++ ·)

namespace Spells

variable {ts us : List Token} {s u : Text}

theorem scan_eq (h : Spells ts s) (hlast : ∀ a ∈ ts.getLast?, a.EndsBefore []) :
    scan s = .ok ts := by
  have := h [] hlast
  rwa [List.append_nil, scan_nil, Except.map, List.append_nil] at this

theorem nil : Spells [] [] := by
  intro t _
  rw [List.nil_append]
  cases scan t <;> rfl

theorem token {a : Token} (h : a.IsProper) : Spells [a] a.text :=
  fun _ ht => scan_token h (ht a rfl)

/-- A blank belongs to no token. -/
theorem blank {c : CodePoint} (hc : c.isBlank = true) (h : Spells us u) : Spells us (c :: u) := by
  intro t ht
  rw [List.cons_append, scan_blank hc, h t ht]

theorem trimLeft (h : Spells us u) : Spells us u.trimLeft := by
  intro t ht
  have hgap : ∀ blanks : Text, (∀ c ∈ blanks, c.isBlank = true) → Gap blanks := by
    intro blanks hblanks
    induction blanks with
    | nil => exact .nil
    | cons c blanks ih =>
      obtain ⟨hc, hblanks⟩ := List.forall_mem_cons.mp hblanks
      exact .blank hc (ih hblanks)
  rw [← h t ht, Text.trimLeft]
  conv_rhs => rw [← List.takeWhile_append_dropWhile (p := CodePoint.isBlank) (l := u)]
  rw [List.append_assoc, scan_gap (hgap _ fun c hc => List.mem_takeWhile_imp hc)]

/-- A mark in front of tokens. -/
theorem mark {c : CodePoint} (hc : (Token.mark c).IsProper) (hslash : c ≠ '/') (h : Spells us u) :
    Spells (.mark c :: us) (c :: u) := by
  intro t ht
  have hlast : ∀ a ∈ us.getLast?, a.EndsBefore t := by
    intro a ha
    cases us with
    | nil => cases ha
    | cons b us => exact ht a ha
  have hmark : scan (c :: (u ++ t)) = (scan (u ++ t)).map (.mark c :: ·) :=
    scan_token hc fun hc => absurd hc hslash
  rw [List.cons_append, hmark, h t hlast]
  cases scan t <;> rfl

/-- The tokens of one text end before the other text. -/
theorem append (hts : Spells ts s) (hus : Spells us u) (hne : us ≠ [])
    (hjoin : ∀ a ∈ ts.getLast?, ∀ t, a.EndsBefore (u ++ t)) : Spells (ts ++ us) (s ++ u) := by
  intro t ht
  rw [List.getLast?_append_of_ne_nil _ hne] at ht
  rw [List.append_assoc, hts _ fun a ha => hjoin a ha t, hus t ht]
  cases scan t with
  | error e => rfl
  | ok found => exact congrArg Except.ok (List.append_assoc ts us found).symm

/-- A separating mark between tokens. -/
theorem append_mark {c : CodePoint} (hts : Spells ts s) (hus : Spells us u)
    (hc : (Token.mark c).IsProper) (hseparates : Separates c) :
    Spells (ts ++ .mark c :: us) (s ++ c :: u) :=
  hts.append (hus.mark hc hseparates.2.1) (List.cons_ne_nil _ _)
    fun a _ t => endsBefore_of_separates hseparates a (u ++ t)

end Spells

/-! ## Rendered tokens -/

/-- Rendering the tokens adds a text of them, which ends with the last one unless a space follows it. -/
def Renders (ts : List Token) : Prop :=
  ∀ out, ∃ s, ts.foldl renderOnto out = out ++ s ∧ Spells ts s ∧
    ∀ a ∈ ts.getLast?, a.isSpaced = false → a.text <:+ s

namespace Renders

variable {ts us : List Token}

theorem nil : Renders [] :=
  fun out => ⟨[], (List.append_nil out).symm, .nil, nofun⟩

theorem renderOnto_word {a : Token} (h : ∀ c, a ≠ .mark c) (out : Text) :
    renderOnto out a = out ++ a.text := by
  rw [renderOnto, if_neg (by simp [isSpaced, h]), if_neg (by simp [h])]

theorem word {a : Token} (hproper : a.IsProper) (h : ∀ c, a ≠ .mark c) : Renders [a] := by
  refine fun out => ⟨a.text, renderOnto_word h out, .token hproper, fun b hb _ => ?_⟩
  obtain rfl := Option.some.inj hb
  exact List.suffix_rfl

/-- A mark is rendered with a space behind it, with one in front of it or with none. -/
theorem renderOnto_mark (out : Text) (c : CodePoint) :
    renderOnto out (.mark c) = out ++ [c, ' '] ∧ (Token.mark c).isSpaced = true ∨
      renderOnto out (.mark c) = out ++ [(' ' : CodePoint), c] ∨
      renderOnto out (.mark c) = out ++ [c] := by
  unfold renderOnto
  split_ifs with hspaced hauth
  · exact .inl ⟨List.append_assoc _ _ _, hspaced⟩
  · obtain ⟨hc, -⟩ := hauth
    obtain rfl := Token.mark.inj hc
    exact .inr (.inl rfl)
  · exact .inr (.inr rfl)

/-- A mark between tokens of which the first ones end before it. -/
theorem append_mark {c : CodePoint} (hts : Renders ts) (hus : Renders us)
    (hc : (Token.mark c).IsProper) (hslash : c ≠ '/')
    (hjoin : ∀ a ∈ ts.getLast?, ∀ t, a.EndsBefore (c :: t)) : Renders (ts ++ .mark c :: us) := by
  intro out
  obtain ⟨s, hs, hspells, -⟩ := hts out
  have hspace : CodePoint.isBlank ' ' = true := by decide
  have hne : Token.mark c :: us ≠ [] := List.cons_ne_nil _ _
  obtain ⟨piece, hpiece, hjoined, hlast⟩ : ∃ piece,
      renderOnto (out ++ s) (.mark c) = out ++ s ++ piece ∧
        (∀ u, Spells us u → Spells (ts ++ .mark c :: us) (s ++ (piece ++ u))) ∧
        ((Token.mark c).isSpaced = false → [c] <:+ piece) := by
    rcases renderOnto_mark (out ++ s) c with ⟨hpiece, hspaced⟩ | hpiece | hpiece
    · refine ⟨_, hpiece, fun u hu => ?_, fun hnot => absurd hspaced (by simp [hnot])⟩
      exact hspells.append ((hu.blank hspace).mark hc hslash) hne fun a ha t => hjoin a ha _
    · refine ⟨_, hpiece, fun u hu => ?_, fun _ => List.suffix_cons _ _⟩
      exact hspells.append ((hu.mark hc hslash).blank hspace) hne
        fun a _ t => endsBefore_of_separates (by decide) a _
    · refine ⟨_, hpiece, fun u hu => ?_, fun _ => List.suffix_rfl⟩
      exact hspells.append (hu.mark hc hslash) hne fun a ha t => hjoin a ha _
  obtain ⟨u, hu, huspells, hulast⟩ := hus (out ++ s ++ piece)
  refine ⟨s ++ (piece ++ u), ?_, hjoined u huspells, fun a ha hspaced => ?_⟩
  · rw [List.foldl_append, hs, List.foldl_cons, hpiece, hu]
    simp only [List.append_assoc]
  · rw [List.getLast?_append_of_ne_nil _ hne] at ha
    cases us with
    | nil =>
      obtain rfl := Option.some.inj ha
      obtain rfl : u = [] := by simpa using hu
      rw [List.append_nil]
      exact (hlast hspaced).trans (List.suffix_append _ _)
    | cons b us =>
      exact (hulast a ha hspaced).trans
        ((List.suffix_append _ _).trans (List.suffix_append _ _))

/-- The rendered text is one of the tokens. -/
theorem spells_render (h : Renders ts)
    (hlast : ∀ a ∈ ts.getLast?, a.IsProper ∧ a.isSpaced = false) : Spells ts (render ts) := by
  obtain ⟨s, hs, hspells, hsuffix⟩ := h []
  have hblank : ∀ c ∈ s.getLast?, c.isBlank = false := by
    cases hend : ts.getLast? with
    | none =>
      obtain rfl := List.getLast?_eq_none_iff.mp hend
      obtain rfl : s = [] := by simpa using hs.symm
      nofun
    | some a =>
      obtain ⟨hproper, hspaced⟩ := hlast a hend
      obtain ⟨before, rfl⟩ := hsuffix a hend hspaced
      rw [List.getLast?_append_of_ne_nil _ hproper.text_ne_nil]
      exact hproper.isBlank_getLast?
  rw [render, hs, List.nil_append, Text.trim_eq_trimLeft hblank]
  exact hspells.trimLeft

end Renders

end ContractKit.Token
