import ContractKit.Proofs.Bracket

/-!
# Partners of brackets

Nested tokens are made of groups, and the two brackets around a group are partners
(`Bracket.Partners`). The check of brackets keeps a stack of all that are open, while the reader of a
group counts the brackets of one kind and passes over those of the other kinds. Among tokens that pass
the check the two agree: for every opening bracket the reader comes to its partner and to no other
bracket (`Bracket.partner?_eq_some_iff`), and what it has passed over would pass the check again
(`Bracket.partner_of_check`).
-/

namespace ContractKit.Bracket

/-- The place where the reader finds the end of the group that starts at the place `i`. -/
def partner? (tokens : List Token) (i : Nat) : Option Nat :=
  (group? (tokens.drop i)).map fun (inside, _) => i + inside.length + 1

/-- `Partners tokens i j` : the tokens are nested, and at the places `i` and `j` stand the two brackets
of one group among them. -/
inductive Partners : List Token → Nat → Nat → Prop
  /-- The group that the tokens start with. -/
  | front {c closer : CodePoint} {inside rest : List Token} : closer? c = some closer →
      Nested inside → Nested rest →
      Partners (.mark c :: (inside ++ .mark closer :: rest)) 0 (inside.length + 1)
  /-- A group inside the one that the tokens start with. -/
  | inside {c closer : CodePoint} {inside rest : List Token} {i j : Nat} :
      closer? c = some closer → Partners inside i j → Nested rest →
      Partners (.mark c :: (inside ++ .mark closer :: rest)) (i + 1) (j + 1)
  /-- A group behind the one that the tokens start with. -/
  | behind {c closer : CodePoint} {inside rest : List Token} {i j : Nat} :
      closer? c = some closer → Nested inside → Partners rest i j →
      Partners (.mark c :: (inside ++ .mark closer :: rest)) (inside.length + 2 + i)
        (inside.length + 2 + j)
  /-- A group behind a token that is no bracket. -/
  | token {token : Token} {rest : List Token} {i j : Nat} : token.opens = false →
      token.closes = false → Partners rest i j → Partners (token :: rest) (i + 1) (j + 1)

/-! ## Finding partners -/

/-- The group that the tokens start with ends at its closing bracket. -/
theorem partner?_group {c closer : CodePoint} (hc : closer? c = some closer) {inside : List Token}
    (h : Nested inside) (rest : List Token) :
    partner? (.mark c :: (inside ++ .mark closer :: rest)) 0 = some (inside.length + 1) := by
  rw [partner?, List.drop_zero, group?_group hc h]
  simp only [Option.map_some, Nat.zero_add]

/-- What stands in front of a group is not looked at. -/
theorem partner?_append (before tokens : List Token) (i : Nat) :
    partner? (before ++ tokens) (before.length + i) =
      (partner? tokens i).map (before.length + ·) := by
  rw [partner?, partner?, List.drop_length_add_append, Option.map_map]
  congr 1
  funext found
  simp only [Function.comp_apply, Nat.add_assoc]

theorem partner?_cons (token : Token) (tokens : List Token) (i : Nat) :
    partner? (token :: tokens) (i + 1) = (partner? tokens i).map (· + 1) := by
  have h := partner?_append [token] tokens i
  simpa only [List.singleton_append, List.length_singleton, Nat.add_comm 1] using h

/-- Partners are found, whatever stands behind the tokens. -/
theorem Partners.partner?_append_eq {tokens : List Token} {i j : Nat} (h : Partners tokens i j)
    (more : List Token) : partner? (tokens ++ more) i = some j := by
  induction h generalizing more with
  | front hc hinside _ =>
    rw [List.cons_append, List.append_assoc, List.cons_append]
    exact partner?_group hc hinside _
  | inside _ _ _ ih =>
    rw [List.cons_append, List.append_assoc, List.cons_append, partner?_cons, ih, Option.map_some]
  | @behind c closer inside rest i j _ _ _ ih =>
    have hfront : .mark c :: (inside ++ .mark closer :: rest) ++ more =
        .mark c :: (inside ++ [.mark closer]) ++ (rest ++ more) := by simp
    have hlength : (.mark c :: (inside ++ [.mark closer])).length = inside.length + 2 := by simp
    rw [hfront, ← hlength, partner?_append, ih, Option.map_some]
  | token _ _ _ ih => rw [List.cons_append, partner?_cons, ih, Option.map_some]

theorem Partners.partner?_eq {tokens : List Token} {i j : Nat} (h : Partners tokens i j) :
    partner? tokens i = some j := by
  simpa using h.partner?_append_eq []

/-! ## Every opening bracket has a partner -/

/-- Among nested tokens every opening bracket has a partner. -/
theorem Nested.exists_partners {tokens : List Token} (h : Nested tokens) :
    ∀ {i : Nat} {token : Token}, tokens[i]? = some token → token.opens = true →
      ∃ j, Partners tokens i j := by
  induction h with
  | nil => exact fun hi => by cases hi
  | token hopens hcloses _ ih =>
    intro i token hi ho
    cases i with
    | zero =>
      obtain rfl := Option.some.inj hi
      rw [hopens] at ho
      cases ho
    | succ i =>
      obtain ⟨j, hj⟩ := ih hi ho
      exact ⟨j + 1, .token hopens hcloses hj⟩
  | @group c closer inside rest hc hinside hrest ihinside ihrest =>
    intro i token hi ho
    cases i with
    | zero => exact ⟨inside.length + 1, .front hc hinside hrest⟩
    | succ i =>
      rw [List.getElem?_cons_succ] at hi
      -- The bracket stands inside the group, closes it, or stands behind it.
      rcases Nat.lt_trichotomy i inside.length with hlt | rfl | hgt
      · rw [List.getElem?_append_left hlt] at hi
        obtain ⟨j, hj⟩ := ihinside hi ho
        exact ⟨j + 1, .inside hc hj hrest⟩
      · rw [List.getElem?_append_right le_rfl, Nat.sub_self] at hi
        obtain rfl := Option.some.inj hi
        have hcloser : (Token.mark closer).opens = false := by simp [Token.opens, closer?_closer hc]
        rw [hcloser] at ho
        cases ho
      · obtain ⟨k, rfl⟩ := Nat.exists_eq_add_of_lt hgt
        rw [List.getElem?_append_right (by omega), Nat.add_assoc, Nat.add_sub_cancel_left,
          List.getElem?_cons_succ] at hi
        obtain ⟨j, hj⟩ := ihrest hi ho
        have hplace : inside.length + k + 1 + 1 = inside.length + 2 + k := by omega
        rw [hplace]
        exact ⟨_, .behind hc hinside hj⟩

/-- The group that is read up to a bracket consists of the tokens in front of this bracket. -/
theorem group?_of_partner? {tokens : List Token} {i j : Nat} (h : partner? tokens i = some j) :
    ∃ token after, tokens[i]? = some token ∧ token.opens = true ∧
      group? (tokens.drop i) = some ((tokens.take j).drop (i + 1), after) := by
  obtain ⟨⟨inside, after⟩, hgroup, rfl⟩ := Option.map_eq_some_iff.mp h
  obtain ⟨c, closer, hc, heq⟩ := group?_eq_some hgroup
  have hfirst : tokens[i]? = some (.mark c) := by
    rw [← List.head?_drop, heq, List.head?_cons]
  have hrest : tokens.drop (i + 1) = inside ++ .mark closer :: after := by
    rw [← List.tail_drop, heq, List.tail_cons]
  have hinside : (tokens.take (i + inside.length + 1)).drop (i + 1) = inside := by
    rw [List.drop_take, hrest, show i + inside.length + 1 - (i + 1) = inside.length by omega,
      List.take_left]
  exact ⟨.mark c, after, hfirst, by simp [Token.opens, hc], by rw [hinside, hgroup]⟩

/-- Among nested tokens the reader finds partners and nothing else. -/
theorem partner?_eq_some_iff {tokens : List Token} (h : Nested tokens) {i j : Nat} :
    partner? tokens i = some j ↔ Partners tokens i j := by
  constructor
  · intro hfound
    obtain ⟨token, -, hi, ho, -⟩ := group?_of_partner? hfound
    obtain ⟨k, hk⟩ := h.exists_partners hi ho
    obtain rfl := Option.some.inj (hk.partner?_eq.symm.trans hfound)
    exact hk
  · exact Partners.partner?_eq

/-- The tokens between partners are nested. -/
theorem Partners.nested_between {tokens : List Token} {i j : Nat} (h : Partners tokens i j)
    (htokens : Nested tokens) : Nested ((tokens.take j).drop (i + 1)) := by
  obtain ⟨-, after, -, -, hgroup⟩ := group?_of_partner? h.partner?_eq
  exact (htokens.paired.of_suffix (List.drop_suffix i tokens)).nested_inside hgroup

/-- Tokens pass the check exactly if they are nested. Then the group of every opening bracket is found
to end at its one partner, and the tokens between the two pass the check as well. -/
theorem partner_of_check (tokens : List Token) :
    (check tokens = .ok () ↔ Nested tokens) ∧
    (check tokens = .ok () → ∀ i token, tokens[i]? = some token → token.opens = true →
      ∃ j, partner? tokens i = some j ∧ Partners tokens i j ∧ (∀ k, Partners tokens i k → k = j) ∧
        check ((tokens.take j).drop (i + 1)) = .ok ()) := by
  refine ⟨check_eq_ok_iff, fun hcheck i token hi ho => ?_⟩
  have hnested := check_eq_ok_iff.mp hcheck
  obtain ⟨j, hj⟩ := hnested.exists_partners hi ho
  refine ⟨j, hj.partner?_eq, hj, fun k hk => ?_, check_eq_ok_iff.mpr (hj.nested_between hnested)⟩
  exact Option.some.inj (hk.partner?_eq.symm.trans hj.partner?_eq)

/-- Of `([a]())` the outer group is read up to its last bracket, over a group of another kind and one of
its own kind. -/
theorem partner_of_check_mixed :
    let tokens : List Token := [.mark '(', .mark '[', .identifier "a", .mark ']', .mark '(', .mark ')',
      .mark ')']
    check tokens = .ok () ∧ partner? tokens 0 = some 6 ∧ Partners tokens 0 6 ∧
      check ((tokens.take 6).drop 1) = .ok () := by
  intro tokens
  have hcheck : check tokens = .ok () := rfl
  obtain ⟨j, hfound, hpartners, -, hbetween⟩ := (partner_of_check tokens).2 hcheck 0 (.mark '(') rfl rfl
  obtain rfl : 6 = j := Option.some.inj ((show partner? tokens 0 = some 6 from rfl).symm.trans hfound)
  exact ⟨hcheck, hfound, hpartners, hbetween⟩

end ContractKit.Bracket
