import ContractKit.Argument.Program
import ContractKit.Proofs.Lines
import ContractKit.Proofs.Parameters

/-!
# The parameters of an entry point

A script, a contract and a transaction that are written with a parameter list have exactly these
parameters as the parameters of their entry point, whatever the body is that follows
(`Program.entryParameters_written`). A `prepare` block with a parameter list needs as many authorizers
as there are parameters.

Members of a body are looked for outside of its groups (`Program.HasMember`).
-/

namespace ContractKit

namespace Program

/-! ## Members -/

/-- A parameter list stands behind the keyword, outside of all groups. -/
def HasMember (keyword : Text) (tokens : List Token) : Prop :=
  ∃ before after, tokens = before ++ .identifier keyword :: .mark '(' :: after ∧
    Bracket.Nested before

theorem membersWith_of_not_hasMember {keyword : Text} {tokens : List Token}
    (hnested : Bracket.Nested tokens) (h : ¬HasMember keyword tokens) (fuel : Nat) :
    membersWith keyword fuel tokens = .ok [] := by
  induction hnested generalizing fuel with
  | nil => cases fuel <;> rfl
  | @token token rest hopens hcloses _ ih =>
    cases fuel with
    | zero => rfl
    | succ fuel =>
      have hhere : ¬(token = .identifier keyword ∧ rest.head? = some (.mark '(')) := by
        rintro ⟨rfl, hhead⟩
        obtain ⟨after, rfl⟩ : ∃ after, rest = .mark '(' :: after := by
          cases rest with
          | nil => cases hhead
          | cons next after => exact ⟨after, by rw [Option.some.inj hhead]⟩
        exact h ⟨[], after, rfl, .nil⟩
      have hrest : ¬HasMember keyword rest := fun ⟨before, after, heq, hbefore⟩ =>
        h ⟨token :: before, after, by rw [heq]; rfl, .token hopens hcloses hbefore⟩
      rw [membersWith, if_neg (by simp [hopens]), if_neg hhere]
      exact ih hrest fuel
  | @group c closer inside rest hc hinside _ _ ih =>
    cases fuel with
    | zero => rfl
    | succ fuel =>
      have hrest : ¬HasMember keyword rest := fun ⟨before, after, heq, hbefore⟩ =>
        h ⟨.mark c :: (inside ++ .mark closer :: before), after, by rw [heq]; simp,
          .group hc hinside hbefore⟩
      rw [membersWith, if_pos (by simp [Token.opens, hc]), group_eq hc hinside, ok_bind]
      exact ih hrest fuel

/-- A body that holds one member, with a parameter list and a body of its own. -/
def memberTokens (keyword : Text) (parameters body : List Token) : List Token :=
  .identifier keyword :: .mark '(' :: (parameters ++ .mark ')' ::
    .mark '\x7b' :: (body ++ [.mark '\x7d']))

theorem nested_memberTokens (keyword : Text) {parameters body : List Token}
    (hparameters : Bracket.Nested parameters) (hbody : Bracket.Nested body) :
    Bracket.Nested (memberTokens keyword parameters body) :=
  .identifier _ (.group rfl hparameters (.enclosed rfl hbody))

/-- The one member of a body is found with its parameters. -/
theorem membersWith_memberTokens (keyword : Text) {parameters body : List Token}
    (hparameters : Bracket.Nested parameters) (hbody : Bracket.Nested body) :
    membersWith keyword (memberTokens keyword parameters body).length
        (memberTokens keyword parameters body) =
      (Program.parameters parameters).map fun ps => [⟨keyword, ps⟩] := by
  obtain ⟨fuel, hfuel⟩ : ∃ fuel, (memberTokens keyword parameters body).length = fuel + 2 :=
    ⟨parameters.length + body.length + 3, by simp [memberTokens]; omega⟩
  rw [hfuel, memberTokens, membersWith, if_neg (by simp [Token.opens]), if_pos ⟨rfl, rfl⟩,
    parameterList_eq hparameters]
  cases Program.parameters parameters with
  | error e => rfl
  | ok ps =>
    have hgroup := group_eq (c := '\x7b') rfl hbody []
    have hopens : (Token.mark '\x7b').opens = true := rfl
    simp only [Except.map, ok_bind]
    rw [membersWith, if_pos hopens, hgroup, ok_bind]
    cases fuel <;> rfl

/-! ## Entry points -/

/-- A declaration with its body on lines of its own forms the program of this declaration. -/
theorem parse_around {d : DeclarationSource} (hmistaken : ¬d.core.IsMistaken)
    {before inside after : List Token} (hsplit : before ++ (inside ++ after) = d.tokens)
    {head body tail : Text} (hhead : Token.Written before head) (hbody : Token.scan body = .ok inside)
    (htail : Token.Written after tail) :
    parse (Text.joinLines [head, body, tail]) = d.read.map fun declaration => ⟨[declaration]⟩ := by
  refine parse_text ?_ hmistaken
  rw [Token.scan_joinLines (.cons (Token.scan_of_written hhead) (.cons hbody
    (.cons (Token.scan_of_written htail) .nil))), ← hsplit]
  simp

/-- The text is a program whose entry point has these parameters, and its arguments are coerced to
them. -/
def HasParameters (text : Text) (qs : List Parameter) : Prop :=
  ∃ program, parse text = .ok program ∧ program.entryParameters? = some qs ∧
    ∀ raws, arguments (parse text) raws = (Argument.coerceAll qs raws).mapError .coercion

theorem hasParameters_of_parse {text : Text} (program : Program) {qs : List Parameter}
    (hparse : parse text = .ok program) (hentry : program.entryParameters? = some qs) :
    HasParameters text qs := by
  refine ⟨program, hparse, hentry, fun raws => ?_⟩
  rw [hparse]
  simp only [arguments, entryParameters, hentry, Option.getD_some]
  cases Argument.coerceAll qs raws <;> rfl

section

variable {ps : List ParameterSource} {qs : List Parameter} {body : Text} {inside : List Token}

/-- `fun main(P) {B}` -/
theorem hasParameters_script (hread : Program.parameters (ParameterSource.listTokens ps) = .ok qs)
    (hbody : Token.scan body = .ok inside) (hnested : Bracket.Nested inside) {head tail : Text}
    (hhead : Token.Written (.identifier "fun" :: .identifier "main" :: ParameterSource.opening ps) head)
    (htail : Token.Written [.mark '\x7d'] tail) :
    HasParameters (Text.joinLines [head, body, tail]) qs := by
  let f : FunctionSource :=
    { name := "main", parameters := ParameterSource.listTokens ps, result := none, body := inside
      nested_parameters := ParameterSource.nested_listTokens ps
      isPlain_result := by simp, nested_body := hnested }
  have hmistaken : ¬f.IsMistaken := by simp [FunctionSource.IsMistaken, f]
  have hparse := parse_around (d := ⟨[], .function f⟩) hmistaken (by
    simp [DeclarationSource.tokens, CoreSource.tail, CoreSource.keyword, FunctionSource.tail,
      ParameterSource.opening, FunctionSource.resultTokens, f]) hhead hbody htail
  refine hasParameters_of_parse ⟨[.function ⟨"main", qs⟩]⟩ (hparse.trans ?_) rfl
  simp [DeclarationSource.read, CoreSource.read, FunctionSource.read, f, hread, Except.map]

/-- `contract C { init(P) {B} }` -/
theorem hasParameters_contract (hread : Program.parameters (ParameterSource.listTokens ps) = .ok qs)
    (hbody : Token.scan body = .ok inside) (hnested : Bracket.Nested inside) {name head tail : Text}
    (hname : name ≠ "interface")
    (hhead : Token.Written (.identifier "contract" :: .identifier name :: .mark '\x7b' ::
      .identifier "init" :: ParameterSource.opening ps) head)
    (htail : Token.Written [.mark '\x7d', .mark '\x7d'] tail) :
    HasParameters (Text.joinLines [head, body, tail]) qs := by
  let c : CompositeSource :=
    { kind := "contract", isInterface := false, name := name, conformances := []
      body := memberTokens "init" (ParameterSource.listTokens ps) inside
      kind_mem := by decide, kind_ne := by decide, name_ne := hname
      nested_body := nested_memberTokens "init" (ParameterSource.nested_listTokens ps) hnested }
  have hparse := parse_around (d := ⟨[], .composite c⟩) (by simp [CoreSource.IsMistaken]) (by
    simp [DeclarationSource.tokens, CoreSource.tail, CoreSource.keyword, CompositeSource.tail,
      ParameterSource.opening, CompositeSource.conformanceTokens, memberTokens, c]) hhead hbody htail
  refine hasParameters_of_parse ⟨[.composite ⟨"contract", name, [⟨"init", qs⟩]⟩]⟩
    (hparse.trans ?_) rfl
  simp [DeclarationSource.read, CoreSource.read, CompositeSource.read, c,
    membersWith_memberTokens "init" (ParameterSource.nested_listTokens ps) hnested, hread, Except.map]

/-- `transaction(P) {B}` -/
theorem hasParameters_transaction
    (hread : Program.parameters (ParameterSource.listTokens ps) = .ok qs)
    (hbody : Token.scan body = .ok inside) (hnested : Bracket.Nested inside)
    (hprepare : ¬HasMember "prepare" inside) {head tail : Text}
    (hhead : Token.Written (.identifier "transaction" :: ParameterSource.opening ps) head)
    (htail : Token.Written [.mark '\x7d'] tail) :
    HasParameters (Text.joinLines [head, body, tail]) qs := by
  let t : TransactionSource :=
    { parameters := some (ParameterSource.listTokens ps), body := inside
      nested_parameters := fun ts hts => Option.mem_some.mp hts ▸ ParameterSource.nested_listTokens ps
      nested_body := hnested }
  have hparse := parse_around (d := ⟨[], .transaction t⟩) (by simp [CoreSource.IsMistaken]) (by
    simp [DeclarationSource.tokens, CoreSource.tail, CoreSource.keyword, TransactionSource.tail,
      ParameterSource.opening, TransactionSource.parameterTokens, t]) hhead hbody htail
  refine hasParameters_of_parse ⟨[.transaction ⟨some qs, none⟩]⟩ (hparse.trans ?_) rfl
  simp [DeclarationSource.read, CoreSource.read, TransactionSource.read, t, hread,
    membersWith_of_not_hasMember hnested hprepare, Except.map, bind, Except.bind]

/-- `transaction { prepare(P) {B} }` -/
theorem authorizerCount_transaction
    (hread : Program.parameters (ParameterSource.listTokens ps) = .ok qs)
    (hbody : Token.scan body = .ok inside) (hnested : Bracket.Nested inside) {head tail : Text}
    (hhead : Token.Written (.identifier "transaction" :: .mark '\x7b' :: .identifier "prepare" ::
      ParameterSource.opening ps) head)
    (htail : Token.Written [.mark '\x7d', .mark '\x7d'] tail) :
    ∃ program, parse (Text.joinLines [head, body, tail]) = .ok program ∧
      program.authorizerCount = qs.length := by
  let t : TransactionSource :=
    { parameters := none, body := memberTokens "prepare" (ParameterSource.listTokens ps) inside
      nested_parameters := by simp
      nested_body := nested_memberTokens "prepare" (ParameterSource.nested_listTokens ps) hnested }
  have hparse := parse_around (d := ⟨[], .transaction t⟩) (by simp [CoreSource.IsMistaken]) (by
    simp [DeclarationSource.tokens, CoreSource.tail, CoreSource.keyword, TransactionSource.tail,
      ParameterSource.opening, TransactionSource.parameterTokens, memberTokens, t]) hhead hbody htail
  refine ⟨⟨[.transaction ⟨none, some ⟨"prepare", qs⟩⟩]⟩, hparse.trans ?_, rfl⟩
  simp [DeclarationSource.read, CoreSource.read, TransactionSource.read, t,
    membersWith_memberTokens "prepare" (ParameterSource.nested_listTokens ps) hnested, hread,
    Except.map, bind, Except.bind]

end

/-- The parameters of a list that is written, with types of the grammar and in any layout, are those
of the entry point it belongs to: of a script, of a contract by its initializer and of a transaction
without a `prepare` block of its own. As many authorizers are needed as the list of a `prepare` block
has parameters. The body stands on lines of its own and may be any tokens that nest. -/
theorem entryParameters_written (ps : List ParameterSource) {body : Text} {inside : List Token}
    (hbody : Token.scan body = .ok inside) (hnested : Bracket.Nested inside) :
    ∃ qs, List.Forall₂ ParameterSource.Declares ps qs ∧
      (∀ head tail : Text,
        Token.Written (.identifier "fun" :: .identifier "main" :: ParameterSource.opening ps) head →
        Token.Written [.mark '\x7d'] tail →
        HasParameters (Text.joinLines [head, body, tail]) qs) ∧
      (∀ name head tail : Text, name ≠ "interface" →
        Token.Written (.identifier "contract" :: .identifier name :: .mark '\x7b' ::
          .identifier "init" :: ParameterSource.opening ps) head →
        Token.Written [.mark '\x7d', .mark '\x7d'] tail →
        HasParameters (Text.joinLines [head, body, tail]) qs) ∧
      (¬HasMember "prepare" inside → ∀ head tail : Text,
        Token.Written (.identifier "transaction" :: ParameterSource.opening ps) head →
        Token.Written [.mark '\x7d'] tail →
        HasParameters (Text.joinLines [head, body, tail]) qs) ∧
      ∀ head tail : Text,
        Token.Written (.identifier "transaction" :: .mark '\x7b' :: .identifier "prepare" ::
          ParameterSource.opening ps) head →
        Token.Written [.mark '\x7d', .mark '\x7d'] tail →
        ∃ program, parse (Text.joinLines [head, body, tail]) = .ok program ∧
          program.authorizerCount = ps.length := by
  obtain ⟨qs, hdeclares, hread⟩ := ParameterSource.exists_parameters ps
  refine ⟨qs, hdeclares, fun _ _ hhead htail => ?_, fun _ _ _ hname hhead htail => ?_,
    fun hprepare _ _ hhead htail => ?_, fun _ _ hhead htail => ?_⟩
  · exact hasParameters_script hread hbody hnested hhead htail
  · exact hasParameters_contract hread hbody hnested hname hhead htail
  · exact hasParameters_transaction hread hbody hnested hprepare hhead htail
  · obtain ⟨program, hparse, hcount⟩ :=
      authorizerCount_transaction hread hbody hnested hhead htail
    exact ⟨program, hparse, hcount.trans hdeclares.length_eq.symm⟩

/-- A script with a dictionary and a generic type, and with brackets in a string and in a comment. -/
theorem entryParameters_script :
    ∃ qs, qs.length = 2 ∧ HasParameters (Text.joinLines
      ["fun main(to a: \x7bAddress: UFix64\x7d, /* , */ b: Cap<A, B>?) \x7b",
        "log(\"\x7d\") // \x7b", "\x7d"]) qs := by
  have hname : ∀ name : Text, name ≠ "auth" → Ty.IsType [.identifier name] :=
    fun name h => .name ⟨name, [], h, rfl⟩
  have hcap : Ty.IsType ([.identifier "Cap"] ++ .mark '<' ::
      (Token.commaSeparated [[.identifier "A"], [.identifier "B"]] ++ [.mark '>'])) :=
    .generic ⟨"Cap", [], by decide, rfl⟩ (by simp) (List.forall_mem_cons.mpr
      ⟨hname "A" (by decide), List.forall_mem_singleton.mpr (hname "B" (by decide))⟩)
  let a : ParameterSource :=
    { label := some "to", identifier := "a"
      typeTokens := [.mark '\x7b', .identifier "Address", .mark ':', .identifier "UFix64",
        .mark '\x7d']
      isType := .dictionary (hname "Address" (by decide)) (hname "UFix64" (by decide)) }
  let b : ParameterSource :=
    { label := none, identifier := "b"
      typeTokens := [.identifier "Cap", .mark '<', .identifier "A", .mark ',', .identifier "B",
        .mark '>', .mark '?']
      isType := .optional hcap }
  have hbody : Token.scan "log(\"\x7d\") // \x7b" =
      .ok [.identifier "log", .mark '(', .string "\"\x7d\"", .mark ')'] := by cbv
  have hhead : Token.scan "fun main(to a: \x7bAddress: UFix64\x7d, /* , */ b: Cap<A, B>?) \x7b" =
      .ok (.identifier "fun" :: .identifier "main" :: ParameterSource.opening [a, b]) := by cbv
  have htail : Token.scan "\x7d" = .ok [.mark '\x7d'] := by cbv
  obtain ⟨qs, hdeclares, hscript, -⟩ :=
    entryParameters_written [a, b] hbody (Bracket.check_eq_ok_iff.mp rfl)
  exact ⟨qs, hdeclares.length_eq.symm,
    hscript _ _ (Token.written_of_scan hhead) (Token.written_of_scan htail)⟩

end Program

end ContractKit
