import ContractKit.Proofs.Result
import ContractKit.Source.Bracket

/-!
# Brackets that nest

`Bracket.Nested` says by construction that every bracket among tokens has its partner:
`Bracket.check` accepts these tokens and no others (`Bracket.check_eq_ok_iff`). A reader that looks for
the partner of a bracket passes over nested tokens (`Bracket.splitAt_append`), so a group is found with
what stands inside it, whatever that is (`Bracket.group?_group`). Among nested tokens one may start
anywhere: every opening bracket from there on has its partner (`Bracket.Paired`).
-/

namespace ContractKit.Bracket

/-! ## Partners -/

theorem opener?_closer {c closer : CodePoint} (h : closer? c = some closer) :
    opener? closer = some c := by
  unfold closer? at h
  split_ifs at h with h₁ h₂ h₃
  · rw [h₁, ← Option.some.inj h]; decide
  · rw [h₂, ← Option.some.inj h]; decide
  · rw [h₃, ← Option.some.inj h]; decide

theorem closer?_opener {c opener : CodePoint} (h : opener? c = some opener) :
    closer? opener = some c := by
  unfold opener? at h
  split_ifs at h with h₁ h₂ h₃
  · rw [h₁, ← Option.some.inj h]; decide
  · rw [h₂, ← Option.some.inj h]; decide
  · rw [h₃, ← Option.some.inj h]; decide

/-- No bracket both opens and closes. -/
theorem closer?_closer {c closer : CodePoint} (h : closer? c = some closer) :
    closer? closer = none := by
  unfold closer? at h
  split_ifs at h
  · rw [← Option.some.inj h]; decide
  · rw [← Option.some.inj h]; decide
  · rw [← Option.some.inj h]; decide

/-! ## Nested tokens -/

/-- Every bracket has its partner, and between the two brackets have theirs. -/
inductive Nested : List Token → Prop
  /-- No token. -/
  | nil : Nested []
  /-- A token that is no bracket. -/
  | token {token : Token} {rest : List Token} : token.opens = false → token.closes = false →
      Nested rest → Nested (token :: rest)
  /-- A group in brackets. -/
  | group {c closer : CodePoint} {inside rest : List Token} : closer? c = some closer →
      Nested inside → Nested rest → Nested (.mark c :: (inside ++ .mark closer :: rest))

namespace Nested

theorem append {ts us : List Token} (hts : Nested ts) (hus : Nested us) : Nested (ts ++ us) := by
  induction hts with
  | nil => exact hus
  | token hopens hcloses _ ih => exact .token hopens hcloses ih
  | group hc hinside _ _ ih =>
    rw [List.cons_append, List.append_assoc, List.cons_append]
    exact .group hc hinside ih

theorem singleton {token : Token} (hopens : token.opens = false) (hcloses : token.closes = false) :
    Nested [token] :=
  .token hopens hcloses .nil

theorem identifier (name : Text) {ts : List Token} (h : Nested ts) :
    Nested (.identifier name :: ts) :=
  .token rfl rfl h

/-- Tokens in brackets. -/
theorem enclosed {c closer : CodePoint} {ts : List Token} (hc : closer? c = some closer)
    (h : Nested ts) : Nested (.mark c :: (ts ++ [.mark closer])) :=
  .group hc h .nil

end Nested

/-! ## Checking brackets -/

theorem checkFrom_token {token : Token} (hopens : token.opens = false)
    (hcloses : token.closes = false) (stack : List CodePoint) (rest : List Token) :
    checkFrom stack (token :: rest) = checkFrom stack rest := by
  cases token with
  | mark c =>
    have hopener : opener? c = none := by simpa [Token.closes] using hcloses
    have hcloser : (closer? c).isSome = false := hopens
    cases stack <;> simp [checkFrom, hcloser, hopener]
  | identifier _ => cases stack <;> rfl
  | number _ => cases stack <;> rfl
  | string _ => cases stack <;> rfl

theorem checkFrom_opener {c closer : CodePoint} (h : closer? c = some closer)
    (stack : List CodePoint) (rest : List Token) :
    checkFrom stack (.mark c :: rest) = checkFrom (c :: stack) rest := by
  cases stack <;> simp [checkFrom, h]

theorem checkFrom_closer {c closer : CodePoint} (h : closer? c = some closer)
    (stack : List CodePoint) (rest : List Token) :
    checkFrom (c :: stack) (.mark closer :: rest) = checkFrom stack rest := by
  simp [checkFrom, closer?_closer h, opener?_closer h]

/-- The brackets among nested tokens close themselves. -/
theorem checkFrom_append {ts : List Token} (h : Nested ts) (stack : List CodePoint)
    (rest : List Token) : checkFrom stack (ts ++ rest) = checkFrom stack rest := by
  induction h generalizing stack rest with
  | nil => rfl
  | token hopens hcloses _ ih => rw [List.cons_append, checkFrom_token hopens hcloses, ih]
  | group hc _ _ ihinside ihrest =>
    rw [List.cons_append, List.append_assoc, List.cons_append, checkFrom_opener hc, ihinside,
      checkFrom_closer hc, ihrest]

/-- Tokens that close the brackets on the stack are nested up to the bracket that closes the first
one, and from there on close the others. -/
theorem nested_of_checkFrom : ∀ (size : Nat) (tokens : List Token), tokens.length ≤ size →
    (checkFrom [] tokens = .ok () → Nested tokens) ∧
    ∀ c stack, checkFrom (c :: stack) tokens = .ok () → ∃ closer inside rest,
      tokens = inside ++ .mark closer :: rest ∧ closer? c = some closer ∧ Nested inside ∧
        checkFrom stack rest = .ok ()
  | _, [], _ => ⟨fun _ => .nil, fun c stack h => by cases h⟩
  | 0, _ :: _, hsize => absurd hsize (by simp)
  | size + 1, token :: tokens, hsize => by
    have htokens : tokens.length ≤ size := by simpa using hsize
    obtain ⟨ihnil, ihcons⟩ := nested_of_checkFrom size tokens htokens
    by_cases hopens : token.opens = true
    · -- A group starts here: it is found in `tokens`, and what follows it is shorter still.
      obtain ⟨c, rfl⟩ : ∃ c, token = .mark c := by cases token <;> simp_all [Token.opens]
      obtain ⟨closer, hc⟩ := Option.isSome_iff_exists.mp hopens
      constructor
      · intro h
        rw [checkFrom_opener hc] at h
        obtain ⟨closer', inside, rest, rfl, hc', hinside, hrest⟩ := ihcons c [] h
        exact .group hc' hinside ((nested_of_checkFrom size rest (by simp at htokens; omega)).1 hrest)
      · intro c' stack h
        rw [checkFrom_opener hc] at h
        obtain ⟨closer', inside, rest, rfl, hc', hinside, hrest⟩ := ihcons c (c' :: stack) h
        obtain ⟨closer'', inside', rest', rfl, hc'', hinside', hrest'⟩ :=
          (nested_of_checkFrom size rest (by simp at htokens; omega)).2 c' stack hrest
        exact ⟨closer'', .mark c :: (inside ++ .mark closer' :: inside'), rest', by simp, hc'',
          .group hc' hinside hinside', hrest'⟩
    · by_cases hcloses : token.closes = true
      · obtain ⟨c, rfl⟩ : ∃ c, token = .mark c := by cases token <;> simp_all [Token.closes]
        obtain ⟨o, ho⟩ := Option.isSome_iff_exists.mp hcloses
        have hc : closer? c = none := by simpa [Token.opens] using hopens
        constructor
        · intro h
          simp [checkFrom, hc, ho] at h
        · intro c' stack h
          simp only [checkFrom, hc, ho, Option.isSome_none, Bool.false_eq_true, if_false] at h
          split_ifs at h with htop
          exact ⟨c, [], tokens, rfl, htop ▸ closer?_opener ho, .nil, h⟩
      · rw [Bool.not_eq_true] at hopens hcloses
        constructor
        · intro h
          rw [checkFrom_token hopens hcloses] at h
          exact .token hopens hcloses (ihnil h)
        · intro c stack h
          rw [checkFrom_token hopens hcloses] at h
          obtain ⟨closer, inside, rest, rfl, hc, hinside, hrest⟩ := ihcons c stack h
          exact ⟨closer, token :: inside, rest, rfl, hc, .token hopens hcloses hinside, hrest⟩

theorem check_eq_ok_iff {tokens : List Token} : check tokens = .ok () ↔ Nested tokens := by
  constructor
  · exact (nested_of_checkFrom tokens.length tokens le_rfl).1
  · intro h
    simpa [check, checkFrom] using checkFrom_append h [] []

/-! ## Groups -/

/-- The partner of a bracket is not looked for among nested tokens. -/
theorem splitAt_append {opener closer : CodePoint} (hpair : closer? opener = some closer)
    {ts : List Token} (h : Nested ts) (depth : Nat) (rest : List Token) :
    splitAt opener closer depth (ts ++ rest) =
      (splitAt opener closer depth rest).map fun (inside, after) => (ts ++ inside, after) := by
  have hopens : (Token.mark opener).opens = true := by simp [Token.opens, hpair]
  have hcloses : (Token.mark closer).closes = true := by simp [Token.closes, opener?_closer hpair]
  induction h generalizing depth rest with
  | nil => simp
  | @token token tokens ho hc _ ih =>
    have hopener : token ≠ .mark opener := by rintro rfl; simp [hopens] at ho
    have hcloser : token ≠ .mark closer := by rintro rfl; simp [hcloses] at hc
    simp [splitAt, hopener, hcloser, ih, Function.comp_def]
  | @group c d inside tokens hc _ _ ihinside ihtokens =>
    rw [List.cons_append, List.append_assoc, List.cons_append]
    have hccloser : c ≠ closer := by rintro rfl; simp [closer?_closer hpair] at hc
    have hdopener : d ≠ opener := by rintro rfl; simp [closer?_closer hc] at hpair
    by_cases hsame : c = opener
    · -- The group is of the kind looked for, so its closing bracket takes the depth back.
      subst hsame
      obtain rfl : d = closer := Option.some.inj (hc.symm.trans hpair)
      simp [splitAt, ihinside, ihtokens, hdopener, Function.comp_def]
    · have hdcloser : d ≠ closer := by
        rintro rfl
        exact hsame (Option.some.inj ((opener?_closer hc).symm.trans (opener?_closer hpair)))
      simp [splitAt, ihinside, ihtokens, hsame, hccloser, hdopener, hdcloser, Function.comp_def]

/-- A group in brackets is found with what stands inside it. -/
theorem group?_group {c closer : CodePoint} (hc : closer? c = some closer) {inside : List Token}
    (h : Nested inside) (rest : List Token) :
    group? (.mark c :: (inside ++ .mark closer :: rest)) = some (inside, rest) := by
  have hne : closer ≠ c := by rintro rfl; rw [closer?_closer hc] at hc; cases hc
  simp [group?, hc, splitAt_append hc h, splitAt, hne]

/-- A group is what stands between an opening bracket and the closing one that was found. -/
theorem splitAt_eq_some {opener closer : CodePoint} {depth : Nat} {tokens inside after : List Token}
    (h : splitAt opener closer depth tokens = some (inside, after)) :
    tokens = inside ++ .mark closer :: after := by
  fun_induction splitAt opener closer depth tokens generalizing inside after <;>
    grind [Option.map_eq_some_iff]

theorem group?_eq_some {tokens inside after : List Token}
    (h : group? tokens = some (inside, after)) : ∃ c closer, closer? c = some closer ∧
      tokens = .mark c :: (inside ++ .mark closer :: after) := by
  unfold group? at h
  split at h
  · next c rest =>
    split at h
    · next closer hc => exact ⟨c, closer, hc, by rw [splitAt_eq_some h]⟩
    · cases h
  · cases h

theorem group?_suffix {tokens inside after : List Token}
    (h : group? tokens = some (inside, after)) : after <:+ tokens := by
  obtain ⟨c, closer, -, rfl⟩ := group?_eq_some h
  exact ⟨.mark c :: (inside ++ [.mark closer]), by simp⟩

/-! ## Tokens behind other tokens -/

/-- Every opening bracket among the tokens has its partner behind it. Brackets that close a group may
stand alone, as they do behind the tokens that an opening bracket belongs to. -/
def Paired : List Token → Prop
  | [] => True
  | token :: rest => (token.opens = true → ∃ inside after, Nested inside ∧
      group? (token :: rest) = some (inside, after)) ∧ Paired rest

theorem Paired.of_suffix {tokens rest : List Token} (h : Paired tokens) (hrest : rest <:+ tokens) :
    Paired rest := by
  induction tokens with
  | nil => exact List.suffix_nil.mp hrest ▸ h
  | cons token tokens ih =>
    rcases List.suffix_cons_iff.mp hrest with rfl | hrest
    · exact h
    · exact ih h.2 hrest

theorem Nested.paired_append {ts us : List Token} (h : Nested ts) (hus : Paired us) :
    Paired (ts ++ us) := by
  induction h generalizing us with
  | nil => exact hus
  | token hopens _ _ ih => exact ⟨fun h => by simp [hopens] at h, ih hus⟩
  | @group c closer inside rest hc hinside _ ihinside ihrest =>
    have hcloser : (Token.mark closer).opens = false := by simp [Token.opens, closer?_closer hc]
    rw [List.cons_append, List.append_assoc, List.cons_append]
    exact ⟨fun _ => ⟨inside, rest ++ us, hinside, group?_group hc hinside _⟩,
      ihinside ⟨fun h => by simp [hcloser] at h, ihrest hus⟩⟩

theorem Nested.paired {ts : List Token} (h : Nested ts) : Paired ts := by
  have hnil : Paired [] := trivial
  simpa using h.paired_append hnil

/-- What stands inside the group at the front is nested. -/
theorem Paired.nested_inside {tokens inside after : List Token} (h : Paired tokens)
    (hgroup : group? tokens = some (inside, after)) : Nested inside := by
  obtain ⟨c, closer, hc, rfl⟩ := group?_eq_some hgroup
  obtain ⟨inside', after', hinside, hfound⟩ := h.1 (by simp [Token.opens, hc])
  obtain ⟨rfl, -⟩ := Prod.mk.inj (Option.some.inj (hgroup.symm.trans hfound))
  exact hinside

end ContractKit.Bracket
