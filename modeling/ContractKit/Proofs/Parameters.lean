import ContractKit.Proofs.TypeText
import ContractKit.Source.Program

/-!
# Parameter lists

`ParameterSource` is a parameter as it is written, with a type of the grammar. A list of such
parameters is read as the parameters they declare, in order (`ParameterSource.exists_parameters`) :
commas and colons inside a type stand in brackets, angle brackets included, and separate nothing
(`Program.StaysTogether`).
-/

namespace ContractKit

namespace Program

/-! ## Segments -/

/-- At depths from `least` on, the tokens belong to one segment. -/
def StaysTogether (least : Int) (ts : List Token) : Prop :=
  ∀ depth ≥ least, ∀ rest,
    segmentsFrom depth (ts ++ rest) = ts.foldr consSegment (segmentsFrom depth rest)

theorem foldr_consSegment (ts segment : List Token) (others : List (List Token)) :
    ts.foldr consSegment (segment :: others) = (ts ++ segment) :: others := by
  induction ts with
  | nil => rfl
  | cons token ts ih => rw [List.foldr_cons, ih]; rfl

namespace StaysTogether

variable {least : Int} {ts us : List Token}

theorem nil : StaysTogether least [] :=
  fun _ _ _ => rfl

theorem append (hts : StaysTogether least ts) (hus : StaysTogether least us) :
    StaysTogether least (ts ++ us) := by
  intro depth hdepth rest
  rw [List.append_assoc, hts depth hdepth, hus depth hdepth, List.foldr_append]

theorem mono (h : StaysTogether 0 ts) : StaysTogether 1 ts :=
  fun depth hdepth => h depth (by omega)

/-- A token that neither opens, closes nor separates. -/
theorem token {token : Token} (hopens : token.opens = false) (hcloses : token.closes = false)
    (hmarks : token ≠ .mark '<' ∧ token ≠ .mark '>' ∧ token ≠ .mark ',') :
    StaysTogether least [token] := by
  intro depth _ rest
  simp [segmentsFrom, hopens, hcloses, hmarks]

/-- Inside brackets a comma separates nothing. -/
theorem comma : StaysTogether 1 [.mark ','] := by
  intro depth hdepth rest
  have hzero : depth ≠ 0 := by omega
  have hopens : (Token.mark ',').opens = false := rfl
  have hcloses : (Token.mark ',').closes = false := rfl
  simp [segmentsFrom, hopens, hcloses, hzero]

/-- Tokens in brackets. -/
theorem enclosed {left right : Token} (hleft : left.opens ∨ left = .mark '<')
    (hright : right.closes ∨ right = .mark '>') (hright' : ¬(right.opens ∨ right = .mark '<'))
    (h : StaysTogether 1 ts) : StaysTogether 0 (left :: (ts ++ [right])) := by
  intro depth hdepth rest
  simp only [List.cons_append, List.append_assoc, List.nil_append, List.foldr_cons,
    List.foldr_append, List.foldr_nil]
  rw [segmentsFrom, if_pos hleft, h (depth + 1) (by omega), segmentsFrom, if_neg hright',
    if_pos hright, Int.add_sub_cancel]

end StaysTogether

/-- A type stays in the segment of its parameter. -/
theorem staysTogether_of_isType {ts : List Token} (h : Ty.IsType ts) :
    StaysTogether 0 ts := by
  have hname : ∀ {ts : List Token}, Ty.IsName ts → StaysTogether 0 ts := by
    rintro _ ⟨first, parts, -, rfl⟩
    exact Token.dotted_induction (fun _ => .token rfl rfl (by simp)) (.token rfl rfl (by simp))
      .append first parts
  have hpieces : ∀ {pieces : List (List Token)}, (∀ ts ∈ pieces, StaysTogether 0 ts) →
      StaysTogether 1 (Token.commaSeparated pieces) := fun h =>
    Token.commaSeparated_induction .nil .comma .append fun ts hts => (h ts hts).mono
  have hsquare : ∀ {ts : List Token}, StaysTogether 1 ts →
      StaysTogether 0 (.mark '[' :: (ts ++ [.mark ']'])) :=
    .enclosed (.inl rfl) (.inl rfl) (by decide)
  have hcurly : ∀ {ts : List Token}, StaysTogether 1 ts →
      StaysTogether 0 (.mark '\x7b' :: (ts ++ [.mark '\x7d'])) :=
    .enclosed (.inl rfl) (.inl rfl) (by decide)
  induction h with
  | name h => exact hname h
  | optional _ ih => exact ih.append (.token rfl rfl (by simp))
  | array _ ih => exact hsquare ih.mono
  | constant _ _ ih =>
    have hsize : ∀ digits, StaysTogether 0 ([.mark ';'] ++ [.number digits]) := fun digits =>
      .append (.token rfl rfl (by simp)) (.token rfl rfl (by simp))
    simpa using hsquare (ih.append (hsize _)).mono
  | dictionary _ _ ihkey ihvalue =>
    have hcolon : StaysTogether 0 [.mark ':'] := .token rfl rfl (by simp)
    simpa using hcurly (ihkey.append (hcolon.append ihvalue)).mono
  | reference _ ih => exact (show StaysTogether 0 [.mark '&'] from .token rfl rfl (by simp)).append ih
  | authorized _ ih =>
    have hauth : StaysTogether 0 ([.identifier "auth"] ++ [.mark '&']) :=
      .append (.token rfl rfl (by simp)) (.token rfl rfl (by simp))
    exact hauth.append ih
  | generic h _ _ ih =>
    exact (hname h).append (.enclosed (.inr rfl) (.inr rfl) (by decide) (hpieces ih))
  | restricted h _ hnames =>
    exact (hname h).append (hcurly (hpieces fun ts hts => hname (hnames ts hts)))
  | restrictions _ hnames => exact hcurly (hpieces fun ts hts => hname (hnames ts hts))
  | resource _ _ ih => exact (show StaysTogether 0 [.mark '@'] from .token rfl rfl (by simp)).append ih

/-- Pieces that stay together at the top are told apart by the commas between them. -/
theorem segmentsFrom_commaSeparated {pieces : List (List Token)} (hne : pieces ≠ [])
    (h : ∀ ts ∈ pieces, StaysTogether 0 ts) :
    segmentsFrom 0 (Token.commaSeparated pieces) = pieces := by
  induction pieces with
  | nil => exact absurd rfl hne
  | cons first others ih =>
    obtain ⟨hfirst, hothers⟩ := List.forall_mem_cons.mp h
    cases others with
    | nil =>
      have hsegments := hfirst 0 le_rfl []
      rw [List.append_nil, segmentsFrom, foldr_consSegment, List.append_nil] at hsegments
      rw [Token.commaSeparated_singleton, hsegments]
    | cons second others =>
      have hopens : (Token.mark ',').opens = false := rfl
      have hcloses : (Token.mark ',').closes = false := rfl
      have hcomma : ∀ rest, segmentsFrom 0 (.mark ',' :: rest) = [] :: segmentsFrom 0 rest := by
        intro rest
        simp [segmentsFrom, hopens, hcloses]
      rw [Token.commaSeparated_cons_cons, hfirst 0 le_rfl, hcomma, ih (by simp) hothers,
        foldr_consSegment, List.append_nil]

end Program

/-! ## Parameters -/

/-- A parameter as it is written: `label? identifier: E`. -/
structure ParameterSource where
  /-- The argument label, if there is one. -/
  label : Option Text
  /-- The name of the parameter. -/
  identifier : Text
  /-- The tokens of its type. -/
  typeTokens : List Token
  /-- The type is one of the grammar. -/
  isType : Ty.IsType typeTokens

namespace ParameterSource

/-- The names before the colon. -/
def names (p : ParameterSource) : List Token :=
  p.label.toList.map .identifier ++ [.identifier p.identifier]

/-- The tokens of the parameter. -/
def tokens (p : ParameterSource) : List Token :=
  p.names ++ .mark ':' :: p.typeTokens

/-- The parameter has the label, the name and the type that are written. The type is the one that any
text of its tokens is read as. -/
structure Declares (p : ParameterSource) (q : Parameter) : Prop where
  label : q.label = p.label.getD []
  identifier : q.identifier = p.identifier
  type : ∀ text, Token.Written p.typeTokens text → Ty.parse text = .ok q.type
  typeText : q.typeText = Token.render p.typeTokens

theorem names_ne_colon (p : ParameterSource) : ∀ token ∈ p.names, token ≠ .mark ':' := by
  rcases p with ⟨_ | label, identifier, typeTokens, _⟩ <;> simp [names]

theorem exists_parameter (p : ParameterSource) :
    ∃ q, p.Declares q ∧ Program.parameter p.tokens = .ok q := by
  obtain ⟨type, htype⟩ := p.isType.exists_read
  have hread : Ty.read p.typeTokens = .ok (type, []) := by
    simpa using htype [] (.of_endsName Ty.endsName_nil (by simp))
  have hparse : ∀ text, Token.Written p.typeTokens text → Ty.parse text = .ok type := by
    intro text htext
    simp [Ty.parse, Token.scan_of_written htext, hread]
  refine ⟨⟨p.label.getD [], p.identifier, type, Token.render p.typeTokens⟩,
    ⟨rfl, rfl, hparse, rfl⟩, ?_⟩
  have htake : p.tokens.takeWhile (· ≠ Token.mark ':') = p.names := by
    rw [tokens, List.takeWhile_append_of_pos (by simpa using p.names_ne_colon)]
    simp
  have hdrop : p.tokens.dropWhile (· ≠ Token.mark ':') = .mark ':' :: p.typeTokens := by
    rw [tokens, List.dropWhile_append_of_pos (by simpa using p.names_ne_colon)]
    simp
  have hnames : Program.parameterNames? p.names = some (p.label.getD [], p.identifier) := by
    rcases p with ⟨_ | label, identifier, typeTokens, _⟩ <;> rfl
  simp only [Program.parameter, htake, hdrop, hnames, hread]

theorem staysTogether (p : ParameterSource) : Program.StaysTogether 0 p.tokens := by
  have hidentifier : ∀ name, Program.StaysTogether 0 [.identifier name] :=
    fun name => .token rfl rfl (by simp)
  have hmark : Program.StaysTogether 0 [.mark ':'] := .token rfl rfl (by simp)
  have hcolon : Program.StaysTogether 0 (.mark ':' :: p.typeTokens) :=
    hmark.append (Program.staysTogether_of_isType p.isType)
  rcases p with ⟨_ | label, identifier, typeTokens, _⟩
  · exact (hidentifier _).append hcolon
  · exact ((hidentifier label).append (hidentifier identifier)).append hcolon

theorem nested (p : ParameterSource) : Bracket.Nested p.tokens := by
  have hcolon : Bracket.Nested (.mark ':' :: p.typeTokens) := .token rfl rfl p.isType.nested
  rcases p with ⟨_ | label, identifier, typeTokens, _⟩
  · exact .identifier _ hcolon
  · exact .identifier _ (.identifier _ hcolon)

theorem tokens_ne_nil (p : ParameterSource) : p.tokens ≠ [] := by
  simp [tokens]

/-- The tokens of a parameter list, without its brackets. -/
def listTokens (ps : List ParameterSource) : List Token :=
  Token.commaSeparated (ps.map tokens)

/-- A parameter list in its brackets, and the brace in front of the body: `(P) {`. -/
def opening (ps : List ParameterSource) : List Token :=
  .mark '(' :: (listTokens ps ++ [.mark ')', .mark '\x7b'])

theorem nested_listTokens (ps : List ParameterSource) : Bracket.Nested (listTokens ps) := by
  refine Token.commaSeparated_induction .nil (.singleton rfl rfl) .append fun ts hts => ?_
  obtain ⟨p, -, rfl⟩ := List.mem_map.mp hts
  exact p.nested

theorem listTokens_cons_ne_nil (p : ParameterSource) (ps : List ParameterSource) :
    listTokens (p :: ps) ≠ [] := by
  cases ps with
  | nil => simp [listTokens, Token.commaSeparated_singleton, p.tokens_ne_nil]
  | cons q ps => simp [listTokens, Token.commaSeparated_cons_cons]

/-- A parameter list is read as the parameters that are written in it. -/
theorem exists_parameters (ps : List ParameterSource) :
    ∃ qs, List.Forall₂ Declares ps qs ∧ Program.parameters (listTokens ps) = .ok qs := by
  obtain ⟨qs, hqs⟩ := exists_forall₂ fun (p : ParameterSource) (_ : p ∈ ps) => p.exists_parameter
  refine ⟨qs, hqs.imp fun _ _ h => h.1, ?_⟩
  cases ps with
  | nil =>
    obtain rfl := List.forall₂_nil_left_iff.mp hqs
    rfl
  | cons p ps =>
    have htogether : ∀ ts ∈ (p :: ps).map tokens, Program.StaysTogether 0 ts := by
      intro ts hts
      obtain ⟨p, -, rfl⟩ := List.mem_map.mp hts
      exact p.staysTogether
    rw [Program.parameters, if_neg (listTokens_cons_ne_nil p ps), listTokens,
      Program.segmentsFrom_commaSeparated (by simp) htogether]
    exact mapM_eq_ok_iff.mpr (List.forall₂_map_left_iff.mpr (hqs.imp fun _ _ h => h.2))

end ParameterSource

end ContractKit
