import ContractKit.Proofs.TypeText
import ContractKit.Source.Program

/-!
# Declarations one after another

`DeclarationSource` is a complete declaration as it is written, with what stands in front of it. The
declarations of a file are read one by one, each of them as if it stood alone, and what a function does
is not looked at (`Program.parse_lines`).

There is one exception. Behind a result type that ends in a name, the body of a function may look like
restrictions of that type (`FunctionSource.IsMistaken`), and is taken for them up to its first closing
brace.
-/

namespace ContractKit

/-! ## Result types -/

namespace Ty

/-- The tokens of a type made of names, optional marks, arrays and dictionaries. -/
inductive IsPlain : List Token → Prop
  /-- `Name` -/
  | name {ts : List Token} : IsName ts → IsPlain ts
  /-- `T?` -/
  | optional {ts : List Token} : IsPlain ts → IsPlain (ts ++ [.mark '?'])
  /-- `[T]` -/
  | array {ts : List Token} : IsPlain ts → IsPlain (.mark '[' :: (ts ++ [.mark ']']))
  /-- `[T; n]` -/
  | constant {ts : List Token} {digits : Text} : IsPlain ts → IsSize digits →
      IsPlain (.mark '[' :: (ts ++ [.mark ';', .number digits, .mark ']']))
  /-- `{T: T}` -/
  | dictionary {key value : List Token} : IsPlain key → IsPlain value →
      IsPlain (.mark '\x7b' :: (key ++ .mark ':' :: (value ++ [.mark '\x7d'])))

theorem IsPlain.isType {ts : List Token} (h : IsPlain ts) : IsType ts := by
  induction h with
  | name h => exact .name h
  | optional _ ih => exact .optional ih
  | array _ ih => exact .array ih
  | constant _ hdigits ih => exact .constant ih hdigits
  | dictionary _ _ ihkey ihvalue => exact .dictionary ihkey ihvalue

/-- Only names end in a name. -/
theorem IsPlain.isName_of_isOpenEnded {ts : List Token} (h : IsPlain ts) (hopen : IsOpenEnded ts) :
    IsName ts := by
  have hmark : ∀ {ts : List Token} {c : CodePoint}, c ≠ '>' → ¬IsOpenEnded (ts ++ [.mark c]) := by
    rintro ts c hc (⟨name, hlast⟩ | hlast)
    · simp at hlast
    · exact hc (by simpa using hlast)
  cases h with
  | name h => exact h
  | optional _ => exact absurd hopen (hmark (by decide))
  | array _ => exact absurd hopen (by rw [← List.cons_append]; exact hmark (by decide))
  | @constant ts digits _ _ =>
    have hlast : (.mark '[' :: (ts ++ [.mark ';', .number digits, .mark ']'])) =
        (.mark '[' :: ts ++ [.mark ';', .number digits]) ++ [Token.mark ']'] := by simp
    exact absurd hopen (hlast ▸ hmark (by decide))
  | @dictionary key value _ _ =>
    have hlast : (.mark '\x7b' :: (key ++ .mark ':' :: (value ++ [.mark '\x7d']))) =
        (.mark '\x7b' :: (key ++ .mark ':' :: value)) ++ [Token.mark '\x7d'] := by simp
    exact absurd hopen (hlast ▸ hmark (by decide))

/-- A declaration starts with a word or a group, or the tokens end. -/
def StartsDeclaration (rest : List Token) : Prop :=
  ∀ token ∈ rest.head?, (∃ name, token = .identifier name) ∨ token = .mark '('

theorem StartsDeclaration.head_ne {rest : List Token} (h : StartsDeclaration rest) {c : CodePoint}
    (hc : c ≠ '(') : rest.head? ≠ some (.mark c) := by
  intro hhead
  rcases h _ hhead with ⟨name, hname⟩ | hmark
  · cases hname
  · exact hc (Token.mark.inj hmark)

theorem endsRestriction_of_startsDeclaration {rest : List Token} (h : StartsDeclaration rest) :
    endsRestriction rest = false := by
  have hpoint := h.head_ne (c := '.') (by decide)
  have hbrace := h.head_ne (c := '\x7d') (by decide)
  have hcomma := h.head_ne (c := ',') (by decide)
  match rest with
  | [] => rfl
  | [token] => simpa [endsRestriction] using hbrace
  | token :: next :: rest =>
    simp only [List.head?_cons, ne_eq, Option.some.injEq] at hpoint hbrace hcomma
    simp [endsRestriction, hpoint, hbrace, hcomma]

/-- Whether a body looks like restrictions does not depend on what follows it. -/
theorem restrictions_append_brace {rest : List Token} (hrest : StartsDeclaration rest) :
    ∀ (size : Nat) (ts : List Token), ts.length ≤ size →
      startsRestrictions (ts ++ .mark '\x7d' :: rest) = startsRestrictions (ts ++ [.mark '\x7d']) ∧
      endsRestriction (ts ++ .mark '\x7d' :: rest) = endsRestriction (ts ++ [.mark '\x7d'])
  | _, [], _ => by
    rw [List.nil_append, List.nil_append, endsRestriction_brace, endsRestriction_brace]
    exact ⟨rfl, rfl⟩
  | 0, _ :: _, hsize => absurd hsize (by simp)
  | size + 1, token :: ts, hsize => by
    have hts : ts.length ≤ size := by simpa using hsize
    obtain ⟨ihstarts, ihends⟩ := restrictions_append_brace hrest size ts hts
    constructor
    · cases token with
      | identifier name => exact ihends
      | _ => rfl
    · match ts with
      | [] =>
        simp [endsRestriction, startsRestrictions, endsRestriction_of_startsDeclaration hrest]
      | next :: ts =>
        have ihnext := (restrictions_append_brace hrest size ts (by simp at hts; omega)).2
        simp only [List.cons_append] at ihstarts ⊢
        simp only [endsRestriction, ihnext, ihstarts]

/-- Behind a name, a body that looks like restrictions is read as such. -/
theorem read_name_restrictions {ts inside rest : List Token} (h : IsName ts)
    (hinside : startsRestrictions (inside ++ .mark '\x7d' :: rest) = true)
    (hbrace : Token.mark '\x7d' ∉ inside) (hrest : rest.head? ≠ some (.mark '?')) :
    ∃ type, Ty.read (ts ++ .mark '\x7b' :: (inside ++ .mark '\x7d' :: rest)) = .ok (type, rest) := by
  refine ⟨nominal (Token.render (ts ++ .mark '\x7b' :: (inside ++ [.mark '\x7d']))), ?_⟩
  rw [Ty.read, readWith, if_neg (h.head_ne _), readBase_restrictions h hinside hbrace, ok_bind]
  exact congrArg Except.ok (wrapOptional_eq_self _ hrest)

end Ty

/-! ## Declarations as they are written -/

/-- A function: `fun f(P) {B}` or `fun f(P): T {B}`. -/
structure FunctionSource where
  /-- The name of the function. -/
  name : Text
  /-- The tokens of the parameter list. -/
  parameters : List Token
  /-- The tokens of the result type, if there is one. -/
  result : Option (List Token)
  /-- The tokens of the body. -/
  body : List Token
  nested_parameters : Bracket.Nested parameters
  isPlain_result : ∀ ts ∈ result, Ty.IsPlain ts
  nested_body : Bracket.Nested body

/-- A transaction: `transaction {B}` or `transaction(P) {B}`. -/
structure TransactionSource where
  /-- The tokens of the parameter list, if there is one. -/
  parameters : Option (List Token)
  /-- The tokens of the body. -/
  body : List Token
  nested_parameters : ∀ ts ∈ parameters, Bracket.Nested ts
  nested_body : Bracket.Nested body

/-- A composite type or an interface: `kind [interface] Name [: names] {B}`. -/
structure CompositeSource where
  /-- The kind. -/
  kind : Text
  /-- Whether it is an interface. -/
  isInterface : Bool
  /-- The name of the type. -/
  name : Text
  /-- The names of the interfaces it conforms to. -/
  conformances : List (Text × List Text)
  /-- The tokens of the body. -/
  body : List Token
  kind_mem : kind ∈ compositeKinds
  kind_ne : kind ≠ "event"
  name_ne : name ≠ "interface"
  nested_body : Bracket.Nested body

/-- What may stand in front of a declaration. -/
inductive Modifier where
  /-- A word that is no keyword of a declaration. -/
  | word (name : Text) (h : name ≠ "fun" ∧ name ≠ "transaction" ∧ name ∉ compositeKinds)
  /-- A group in round brackets. -/
  | group (inside : List Token) (h : Bracket.Nested inside)

/-- A declaration of any sort, without what stands in front of it. -/
inductive CoreSource where
  | function (source : FunctionSource)
  | transaction (source : TransactionSource)
  | composite (source : CompositeSource)

/-- A declaration with what stands in front of it. -/
structure DeclarationSource where
  /-- What stands in front. -/
  modifiers : List Modifier
  /-- The declaration. -/
  core : CoreSource

/-! ## Groups in a declaration -/

namespace Program

/-- A group is found and left behind. -/
theorem group_eq {c closer : CodePoint} (hc : Bracket.closer? c = some closer) {inside : List Token}
    (h : Bracket.Nested inside) (rest : List Token) :
    group (.mark c :: (inside ++ .mark closer :: rest)) = .ok (inside, rest) := by
  rw [group, Bracket.group?_group hc h]

theorem parameterList_eq {inside : List Token} (h : Bracket.Nested inside) (rest : List Token) :
    parameterList (.mark '(' :: (inside ++ .mark ')' :: rest)) =
      (parameters inside).map (·, rest) := by
  rw [parameterList, group_eq rfl h, ok_bind]
  exact bind_ok_eq_map _ _

theorem members_eq (keyword : Text) {inside : List Token} (h : Bracket.Nested inside)
    (rest : List Token) :
    members keyword (.mark '\x7b' :: (inside ++ .mark '\x7d' :: rest)) =
      (membersWith keyword inside.length inside).map (·, rest) := by
  rw [members, group_eq rfl h, ok_bind]
  exact bind_ok_eq_map _ _

end Program

/-! ## Functions -/

open Program

namespace FunctionSource

/-- The tokens behind the parameter list. -/
def resultTokens (f : FunctionSource) : List Token :=
  match f.result with
  | some ts => .mark ':' :: ts
  | none => []

/-- The tokens behind the keyword. -/
def tail (f : FunctionSource) : List Token :=
  .identifier f.name :: .mark '(' :: (f.parameters ++ .mark ')' ::
    (f.resultTokens ++ .mark '\x7b' :: (f.body ++ [.mark '\x7d'])))

/-- What the function declares. -/
def read (f : FunctionSource) : Except SourceError Declaration :=
  (Program.parameters f.parameters).map fun ps => .function ⟨f.name, ps⟩

/-- The same function with another body. -/
def withBody (f : FunctionSource) (body : List Token) (h : Bracket.Nested body) : FunctionSource :=
  { f with body := body, nested_body := h }

/-- The body is taken for restrictions of the result type, and these end inside it: it stands behind a
name, the look-ahead finds names and commas up to a closing brace, and there is a closing brace inside
the body, where the restrictions are cut off. -/
def IsMistaken (f : FunctionSource) : Prop :=
  (∃ ts ∈ f.result, Ty.IsName ts) ∧ Ty.startsRestrictions (f.body ++ [.mark '\x7d']) = true ∧
    Token.mark '\x7d' ∈ f.body

theorem nested_tail (f : FunctionSource) : Bracket.Nested f.tail := by
  have hbody : Bracket.Nested (.mark '\x7b' :: (f.body ++ [.mark '\x7d'])) :=
    .enclosed rfl f.nested_body
  refine .identifier _ (.group rfl f.nested_parameters ?_)
  unfold resultTokens
  split
  · next ts hts =>
    have hresult := f.isPlain_result ts hts
    exact .token rfl rfl (hresult.isType.nested.append hbody)
  · exact hbody

/-- The result type and the body are skipped. -/
theorem afterResult_afterBody (f : FunctionSource) (h : ¬f.IsMistaken) {rest : List Token}
    (hrest : Ty.StartsDeclaration rest) :
    (afterResult (f.resultTokens ++ .mark '\x7b' :: (f.body ++ .mark '\x7d' :: rest)) >>= afterBody) =
      .ok rest := by
  have hbody : afterBody (.mark '\x7b' :: (f.body ++ .mark '\x7d' :: rest)) = .ok rest := by
    rw [afterBody, if_pos List.head?_cons, group_eq rfl f.nested_body]
    rfl
  have hnobody : afterBody rest = .ok rest :=
    if_neg (hrest.head_ne (by decide))
  unfold resultTokens
  split
  · next ts hts =>
    have hplain := f.isPlain_result ts hts
    rw [List.cons_append, afterResult, if_pos List.head?_cons, List.drop_one, List.tail_cons]
    by_cases hmisread : Ty.IsName ts ∧ Ty.startsRestrictions (f.body ++ [.mark '\x7d']) = true
    · -- The body is read as restrictions, and its end is theirs.
      obtain ⟨hname, hstarts⟩ := hmisread
      have hbrace : Token.mark '\x7d' ∉ f.body := fun hmem => h ⟨⟨ts, hts, hname⟩, hstarts, hmem⟩
      rw [← (Ty.restrictions_append_brace hrest _ _ le_rfl).1] at hstarts
      obtain ⟨type, hread⟩ :=
        Ty.read_name_restrictions hname hstarts hbrace (hrest.head_ne (by decide))
      simp only [hread]
      exact hnobody
    · obtain ⟨type, hread⟩ := hplain.isType.exists_read
      rw [hread _ ⟨by simp, fun hopen => ⟨by simp, by simp, ?_⟩⟩]
      · exact hbody
      · rw [← (Ty.restrictions_append_brace hrest _ _ le_rfl).1] at hmisread
        simpa [Ty.hasRestrictions, hplain.isName_of_isOpenEnded hopen] using hmisread
  · exact hbody

/-- A function is read alike whatever its body and whatever follows it. -/
theorem readFunction_append (f : FunctionSource) (h : ¬f.IsMistaken) {rest : List Token}
    (hrest : Ty.StartsDeclaration rest) :
    readFunction (f.tail ++ rest) = f.read.map fun d => (some d, rest) := by
  obtain ⟨behind, hresult, hbody⟩ := bind_eq_ok_iff.mp (f.afterResult_afterBody h hrest)
  simp only [tail, List.cons_append, List.append_assoc, List.nil_append]
  rw [readFunction, if_pos List.head?_cons, parameterList_eq f.nested_parameters, read]
  cases Program.parameters f.parameters with
  | error e => rfl
  | ok ps => simp [Except.map, bind, Except.bind, hresult, hbody]

end FunctionSource

/-! ## Transactions -/

namespace TransactionSource

/-- The tokens in front of the body. -/
def parameterTokens (t : TransactionSource) : List Token :=
  match t.parameters with
  | some ts => .mark '(' :: (ts ++ [.mark ')'])
  | none => []

/-- The tokens behind the keyword. -/
def tail (t : TransactionSource) : List Token :=
  t.parameterTokens ++ .mark '\x7b' :: (t.body ++ [.mark '\x7d'])

/-- What the transaction declares. -/
def read (t : TransactionSource) : Except SourceError Declaration := do
  let found ← match t.parameters with
    | some ts => (Program.parameters ts).map some
    | none => .ok none
  let prepares ← membersWith "prepare" t.body.length t.body
  .ok (.transaction ⟨found, prepares.head?⟩)

theorem nested_tail (t : TransactionSource) : Bracket.Nested t.tail := by
  have hbody : Bracket.Nested (.mark '\x7b' :: (t.body ++ [.mark '\x7d'])) :=
    .enclosed rfl t.nested_body
  unfold tail parameterTokens
  split
  · next ts hts => exact (Bracket.Nested.enclosed rfl (t.nested_parameters ts hts)).append hbody
  · exact hbody

/-- A transaction is read alike whatever follows it. -/
theorem readTransaction_append (t : TransactionSource) (rest : List Token) :
    readTransaction (t.tail ++ rest) = t.read.map fun d => (some d, rest) := by
  rcases t with ⟨_ | parameters, body, hparameters, hbody⟩
  · simp only [tail, parameterTokens, read, List.nil_append, List.cons_append, List.append_assoc]
    rw [readTransaction, if_neg (by simp)]
    simp only [ok_bind, if_pos List.head?_cons, members_eq "prepare" hbody rest]
    cases membersWith "prepare" body.length body <;> rfl
  · simp only [tail, parameterTokens, read, List.nil_append, List.cons_append, List.append_assoc]
    rw [readTransaction, if_pos List.head?_cons, parameterList_eq (hparameters parameters rfl)]
    cases Program.parameters parameters with
    | error e => rfl
    | ok found =>
      simp only [Except.map, ok_bind, if_pos List.head?_cons, members_eq "prepare" hbody rest]
      cases membersWith "prepare" body.length body <;> rfl

end TransactionSource

/-! ## Composite types -/

namespace CompositeSource

/-- The tokens between the name and the body. -/
def conformanceTokens (c : CompositeSource) : List Token :=
  match c.conformances with
  | [] => []
  | names => .mark ':' :: Token.commaSeparated (names.map fun (first, parts) => Token.dotted first parts)

/-- The tokens behind the kind. -/
def tail (c : CompositeSource) : List Token :=
  (if c.isInterface then [.identifier "interface"] else []) ++
    .identifier c.name :: (c.conformanceTokens ++ .mark '\x7b' :: (c.body ++ [.mark '\x7d']))

/-- What the composite type or the interface declares. -/
def read (c : CompositeSource) : Except SourceError Declaration :=
  (membersWith "init" c.body.length c.body).map fun found =>
    if c.isInterface then .interface ⟨c.kind, c.name, found⟩ else .composite ⟨c.kind, c.name, found⟩

theorem nested_conformanceTokens (c : CompositeSource) : Bracket.Nested c.conformanceTokens := by
  unfold conformanceTokens
  split
  · exact .nil
  · refine .token rfl rfl (Token.commaSeparated_induction .nil (.singleton rfl rfl) .append ?_)
    intro ts hts
    obtain ⟨⟨first, parts⟩, -, rfl⟩ := List.mem_map.mp hts
    exact Token.dotted_induction (fun _ => .singleton rfl rfl) (.singleton rfl rfl) .append first parts

theorem nested_tail (c : CompositeSource) : Bracket.Nested c.tail := by
  have hbody : Bracket.Nested (.mark '\x7b' :: (c.body ++ [.mark '\x7d'])) :=
    .enclosed rfl c.nested_body
  have hname : Bracket.Nested (.identifier c.name :: (c.conformanceTokens ++
      .mark '\x7b' :: (c.body ++ [.mark '\x7d']))) :=
    .identifier _ (c.nested_conformanceTokens.append hbody)
  unfold tail
  split_ifs
  · exact .identifier _ hname
  · exact hname

/-- No bracket stands in front of the body. -/
theorem opens_conformanceTokens (c : CompositeSource) :
    ∀ token ∈ c.conformanceTokens, token.opens = false := by
  unfold conformanceTokens
  split
  · simp
  · refine List.forall_mem_cons.mpr ⟨rfl, ?_⟩
    refine Token.forall_mem_commaSeparated (P := (·.opens = false)) rfl fun ts hts => ?_
    obtain ⟨⟨first, parts⟩, -, rfl⟩ := List.mem_map.mp hts
    exact Token.forall_mem_dotted (P := (·.opens = false)) (fun _ => rfl) rfl first parts

theorem toBlockWith_append {ts : List Token} (h : ∀ token ∈ ts, token.opens = false)
    (rest : List Token) : ∀ {fuel : Nat}, ts.length < fuel →
      toBlockWith fuel (ts ++ .mark '\x7b' :: rest) = .ok (.mark '\x7b' :: rest) := by
  induction ts with
  | nil =>
    intro fuel hfuel
    obtain ⟨fuel, rfl⟩ : ∃ f, fuel = f + 1 := ⟨fuel - 1, by omega⟩
    rw [List.nil_append, toBlockWith, if_pos rfl]
  | cons token ts ih =>
    intro fuel hfuel
    obtain ⟨htoken, hts⟩ := List.forall_mem_cons.mp h
    obtain ⟨fuel, rfl⟩ : ∃ f, fuel = f + 1 := ⟨fuel - 1, by omega⟩
    have hne : ∀ {c : CodePoint}, (Token.mark c).opens = true → token ≠ .mark c := by
      rintro c hc rfl
      rw [htoken] at hc
      cases hc
    rw [List.cons_append, toBlockWith, if_neg (hne rfl), if_neg (not_or.mpr ⟨hne rfl, hne rfl⟩)]
    exact ih hts (by simpa using hfuel)

/-- Behind its name, a composite type is read alike whatever follows it. -/
theorem readComposite_append (c : CompositeSource) (rest : List Token) :
    readComposite c.kind c.name
        (c.conformanceTokens ++ .mark '\x7b' :: (c.body ++ .mark '\x7d' :: rest)) =
      (membersWith "init" c.body.length c.body).map fun found =>
        (some ⟨c.kind, c.name, found⟩, rest) := by
  rw [readComposite, if_neg c.kind_ne, toBlock,
    toBlockWith_append c.opens_conformanceTokens _ (by simp), ok_bind, if_neg (by simp),
    members_eq "init" c.nested_body rest]
  cases membersWith "init" c.body.length c.body <;> rfl

/-- A composite type is read alike whatever follows it. -/
theorem readCompositeOrInterface_append (c : CompositeSource) (rest : List Token) :
    readCompositeOrInterface c.kind (c.tail ++ rest) = c.read.map fun d => (some d, rest) := by
  have hread := c.readComposite_append rest
  unfold tail read
  split_ifs with hinterface
  · simp only [List.cons_append, List.append_assoc, List.nil_append]
    rw [readCompositeOrInterface, if_pos rfl]
    simp only [hread]
    cases membersWith "init" c.body.length c.body <;> rfl
  · simp only [List.cons_append, List.append_assoc, List.nil_append]
    unfold readCompositeOrInterface
    simp only [if_neg c.name_ne, hread]
    cases membersWith "init" c.body.length c.body <;> rfl

end CompositeSource

/-! ## One declaration after another -/

namespace Modifier

/-- The tokens of the modifier. -/
def tokens : Modifier → List Token
  | word name _ => [.identifier name]
  | group inside _ => .mark '(' :: (inside ++ [.mark ')'])

theorem nested_tokens (m : Modifier) : Bracket.Nested m.tokens := by
  cases m with
  | word name _ => exact .singleton rfl rfl
  | group inside h => exact .enclosed rfl h

/-- A modifier is passed over. -/
theorem declarationsWith_append (m : Modifier) (rest : List Token) (fuel : Nat) :
    declarationsWith (fuel + 1) (m.tokens ++ rest) = declarationsWith fuel rest := by
  have hstep : ∀ (token : Token) (ts : List Token), step token ts = .ok (none, rest) →
      declarationsWith (fuel + 1) (token :: ts) = declarationsWith fuel rest := by
    intro token ts hstep
    rw [declarationsWith, hstep, ok_bind]
    cases hothers : declarationsWith fuel rest <;> simp [hothers, bind, Except.bind]
  cases m with
  | word name h =>
    obtain ⟨hfun, htransaction, hkind⟩ := h
    exact hstep _ _ (by rw [step, if_neg hfun, if_neg htransaction, if_neg hkind]; rfl)
  | group inside h =>
    have hgroup : step (.mark '(') (inside ++ .mark ')' :: rest) = .ok (none, rest) := by
      simp only [step]
      rw [if_pos (by rfl), group_eq rfl h, ok_bind]
    simpa [tokens] using hstep _ _ hgroup

end Modifier

namespace CoreSource

/-- The keyword of the declaration. -/
def keyword : CoreSource → Text
  | function _ => "fun"
  | transaction _ => "transaction"
  | composite c => c.kind

/-- The tokens behind the keyword. -/
def tail : CoreSource → List Token
  | function f => f.tail
  | transaction t => t.tail
  | composite c => c.tail

/-- What the declaration declares. -/
def read : CoreSource → Except SourceError Declaration
  | function f => f.read
  | transaction t => t.read
  | composite c => c.read

/-- The body of the function is taken for something else. -/
def IsMistaken : CoreSource → Prop
  | function f => f.IsMistaken
  | _ => False

theorem nested_tail (source : CoreSource) : Bracket.Nested source.tail := by
  cases source with
  | function f => exact f.nested_tail
  | transaction t => exact t.nested_tail
  | composite c => exact c.nested_tail

/-- A declaration is read alike whatever follows it. -/
theorem step_append (source : CoreSource) (h : ¬source.IsMistaken) {rest : List Token}
    (hrest : Ty.StartsDeclaration rest) :
    step (.identifier source.keyword) (source.tail ++ rest) =
      source.read.map fun d => (some d, rest) := by
  cases source with
  | function f =>
    rw [step, keyword, if_pos rfl]
    exact f.readFunction_append h hrest
  | transaction t =>
    rw [step, keyword, if_neg (by decide), if_pos rfl]
    exact t.readTransaction_append rest
  | composite c =>
    have hfun : c.kind ≠ "fun" := ne_of_mem_of_not_mem c.kind_mem (by decide)
    have htransaction : c.kind ≠ "transaction" := ne_of_mem_of_not_mem c.kind_mem (by decide)
    rw [step, keyword, if_neg hfun, if_neg htransaction, if_pos c.kind_mem]
    exact c.readCompositeOrInterface_append rest

end CoreSource

namespace DeclarationSource

/-- The tokens of the declaration. -/
def tokens (d : DeclarationSource) : List Token :=
  d.modifiers.flatMap Modifier.tokens ++ .identifier d.core.keyword :: d.core.tail

/-- What the declaration declares. -/
def read (d : DeclarationSource) : Except SourceError Declaration :=
  d.core.read

theorem nested_tokens (d : DeclarationSource) : Bracket.Nested d.tokens := by
  have hcore : Bracket.Nested (.identifier d.core.keyword :: d.core.tail) :=
    .identifier _ d.core.nested_tail
  unfold tokens
  induction d.modifiers with
  | nil => exact hcore
  | cons m modifiers ih =>
    rw [List.flatMap_cons, List.append_assoc]
    exact m.nested_tokens.append ih

/-- A declaration starts as declarations do. -/
theorem startsDeclaration_append (d : DeclarationSource) (rest : List Token) :
    Ty.StartsDeclaration (d.tokens ++ rest) := by
  rcases d with ⟨_ | ⟨⟨name, _⟩ | ⟨inside, _⟩, modifiers⟩, core⟩ <;>
    simp [Ty.StartsDeclaration, tokens, Modifier.tokens]

/-- The first of the declarations is read as if it stood alone. Its tokens take some of the fuel and
leave enough for the others. -/
theorem declarationsWith_append (d : DeclarationSource) (h : ¬d.core.IsMistaken) {rest : List Token}
    (hrest : Ty.StartsDeclaration rest) {fuel : Nat} (hfuel : (d.tokens ++ rest).length ≤ fuel) :
    ∃ left, rest.length ≤ left ∧ declarationsWith fuel (d.tokens ++ rest) =
      d.read >>= fun declaration => (declarationsWith left rest).map (declaration :: ·) := by
  rcases d with ⟨modifiers, core⟩
  induction modifiers generalizing fuel with
  | nil =>
    obtain ⟨fuel, rfl⟩ : ∃ f, fuel = f + 1 := ⟨fuel - 1, by simp [tokens] at hfuel; omega⟩
    refine ⟨fuel, by simp [tokens] at hfuel; omega, ?_⟩
    simp only [tokens, List.flatMap_nil, List.nil_append, List.cons_append]
    rw [declarationsWith, core.step_append h hrest, read]
    cases core.read with
    | error e => rfl
    | ok declaration => exact bind_ok_eq_map _ _
  | cons m modifiers ih =>
    have hsplit : (⟨m :: modifiers, core⟩ : DeclarationSource).tokens ++ rest =
        m.tokens ++ ((⟨modifiers, core⟩ : DeclarationSource).tokens ++ rest) := by
      simp [tokens]
    have hlength : 0 < m.tokens.length := by cases m <;> simp [Modifier.tokens]
    rw [hsplit, List.length_append] at hfuel
    obtain ⟨fuel, rfl⟩ : ∃ f, fuel = f + 1 := ⟨fuel - 1, by omega⟩
    rw [hsplit, m.declarationsWith_append]
    exact ih h (by omega)

/-- Declarations one after another are read one by one. -/
theorem declarationsWith_flatMap {ds : List DeclarationSource} (h : ∀ d ∈ ds, ¬d.core.IsMistaken)
    {fuel : Nat} (hfuel : (ds.flatMap tokens).length ≤ fuel) :
    declarationsWith fuel (ds.flatMap tokens) = ds.mapM read := by
  induction ds generalizing fuel with
  | nil => cases fuel <;> rfl
  | cons d ds ih =>
    obtain ⟨hd, hds⟩ := List.forall_mem_cons.mp h
    have hrest : Ty.StartsDeclaration (ds.flatMap tokens) := by
      cases ds with
      | nil => simp [Ty.StartsDeclaration]
      | cons e ds => exact e.startsDeclaration_append _
    rw [List.flatMap_cons] at hfuel ⊢
    obtain ⟨left, hleft, heq⟩ := d.declarationsWith_append hd hrest hfuel
    rw [heq, ih hds hleft, List.mapM_cons]
    cases d.read with
    | error e => rfl
    | ok declaration => exact (bind_ok_eq_map _ _).symm

/-- Declarations one after another form the program of what each of them declares. -/
theorem ofTokens_flatMap {ds : List DeclarationSource} (h : ∀ d ∈ ds, ¬d.core.IsMistaken) :
    ofTokens (ds.flatMap tokens) = (ds.mapM read).map Program.mk := by
  have hnested : Bracket.Nested (ds.flatMap tokens) := by
    clear h
    induction ds with
    | nil => exact .nil
    | cons d ds ih => exact d.nested_tokens.append ih
  rw [ofTokens, Bracket.check_eq_ok_iff.mpr hnested]
  simp only [declarationsWith_flatMap h le_rfl]

end DeclarationSource

end ContractKit
