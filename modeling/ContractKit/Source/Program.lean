import ContractKit.Source.Declaration
import ContractKit.Text.Utf8
import ContractKit.Ty.Annotation

/-!
# Reading programs

`Program.parse` finds the declarations at the top level of a source text. Bodies are skipped as
groups in brackets, except that the `prepare` block of a transaction and the initializers of a
composite type are looked for one level down. `Program.ofBytes` does the same for the bytes of a
file.
-/

namespace ContractKit

/-- Why a source text is no program. -/
inductive SourceError where
  /-- The bytes are no UTF-8. -/
  | notUtf8
  /-- The text has no tokens. -/
  | scan (e : ScanError)
  /-- The brackets do not nest. -/
  | bracket (e : BracketError)
  /-- The tokens, given as text, are no parameter. -/
  | invalidParameter (text : Text)
  /-- A type annotation is wrong. -/
  | type (e : AnnotationError)
  /-- Something follows the type in an annotation. -/
  | invalidType (text : Text)
  /-- An opening bracket has no partner. -/
  | noPartner (opener : Text)
deriving DecidableEq

/-- The wording of an error in the file of the given name. -/
def SourceError.message (file : Text) : SourceError → Text
  | .notUtf8 => .concat [file, ": source is not valid UTF-8"]
  | .scan e => .concat [file, ": ", e.message]
  | .bracket e => .concat [file, ": ", e.message]
  | .invalidParameter text => .concat [file, ": invalid parameter ", text.quote]
  | .type (.size e) => e.message
  | .type e => .concat [file, ": ", e.message]
  | .invalidType text => .concat [file, ": invalid type annotation ", text.quote]
  | .noPartner opener => .concat ["unclosed ", opener.quote]

namespace Program

/-! ## Parameters -/

/-- Puts a token in front of the first segment. -/
def consSegment (token : Token) : List (List Token) → List (List Token)
  | [] => [[token]]
  | segment :: rest => (token :: segment) :: rest

/-- The segments between the commas that stand outside of all brackets, angle brackets included.
`depth` counts the brackets open so far. -/
def segmentsFrom (depth : Int) : List Token → List (List Token)
  | [] => [[]]
  | token :: rest =>
    if token.opens ∨ token = .mark '<' then consSegment token (segmentsFrom (depth + 1) rest)
    else if token.closes ∨ token = .mark '>' then consSegment token (segmentsFrom (depth - 1) rest)
    else if token = .mark ',' ∧ depth = 0 then [] :: segmentsFrom depth rest
    else consSegment token (segmentsFrom depth rest)

/-- The label and the name of a parameter, from the tokens before its colon. -/
def parameterNames? : List Token → Option (Text × Text)
  | [.identifier name] => some ([], name)
  | [.identifier label, .identifier name] => some (label, name)
  | _ => none

/-- The parameter a segment declares. -/
def parameter (segment : List Token) : Except SourceError Parameter :=
  let names := segment.takeWhile (· ≠ .mark ':')
  match segment.dropWhile (· ≠ .mark ':'), parameterNames? names with
  | _ :: typeTokens, some (label, identifier) =>
    match Ty.read typeTokens with
    | .error e => .error (.type e)
    | .ok (type, []) => .ok ⟨label, identifier, type, Token.render typeTokens⟩
    | .ok (_, _ :: _) => .error (.invalidType (Token.render typeTokens))
  | _, _ => .error (.invalidParameter (Token.render segment))

/-- The parameters that the tokens between two round brackets declare. -/
def parameters (tokens : List Token) : Except SourceError (List Parameter) :=
  if tokens = [] then .ok [] else (segmentsFrom 0 tokens).mapM parameter

/-- The tokens inside the group that the tokens start with, and those after it. -/
def group (tokens : List Token) : Except SourceError (List Token × List Token) :=
  match Bracket.group? tokens with
  | some found => .ok found
  | none => .error (.noPartner ((tokens.head?.map Token.text).getD []))

/-- The parameters in the group that the tokens start with, and the tokens after it. -/
def parameterList (tokens : List Token) : Except SourceError (List Parameter × List Token) := do
  let (inside, after) ← group tokens
  .ok (← parameters inside, after)

/-! ## Members -/

/-- The members named `keyword`, with their parameters, among the tokens of a body. Groups in the
body are skipped. -/
def membersWith (keyword : Text) :
    Nat → List Token → Except SourceError (List FunctionDeclaration)
  | 0, _ => .ok []
  | _ + 1, [] => .ok []
  | fuel + 1, token :: rest =>
    if token.opens then do
      let (_, after) ← group (token :: rest)
      membersWith keyword fuel after
    else if token = .identifier keyword ∧ rest.head? = some (.mark '(') then do
      let (found, after) ← parameterList rest
      .ok (⟨keyword, found⟩ :: (← membersWith keyword fuel after))
    else membersWith keyword fuel rest

/-- The members named `keyword` in the group that the tokens start with, and the tokens after it. -/
def members (keyword : Text) (tokens : List Token) :
    Except SourceError (List FunctionDeclaration × List Token) := do
  let (inside, after) ← group tokens
  .ok (← membersWith keyword inside.length inside, after)

/-! ## Declarations -/

/-- The tokens from the next opening brace on that stands outside of round and square brackets. -/
def toBlockWith : Nat → List Token → Except SourceError (List Token)
  | 0, _ => .ok []
  | _ + 1, [] => .ok []
  | fuel + 1, token :: rest =>
    if token = .mark '\x7b' then .ok (token :: rest)
    else if token = .mark '(' ∨ token = .mark '[' then do
      let (_, after) ← group (token :: rest)
      toBlockWith fuel after
    else toBlockWith fuel rest

/-- The tokens from the body of a declaration on. -/
def toBlock (tokens : List Token) : Except SourceError (List Token) :=
  toBlockWith tokens.length tokens

/-- The tokens after the result type of a function, if one stands there. -/
def afterResult (tokens : List Token) : Except SourceError (List Token) :=
  if tokens.head? = some (.mark ':') then
    match Ty.read (tokens.drop 1) with
    | .error e => .error (.type e)
    | .ok (_, rest) => .ok rest
  else .ok tokens

/-- The tokens after the body of a function, if one stands there. -/
def afterBody (tokens : List Token) : Except SourceError (List Token) :=
  if tokens.head? = some (.mark '\x7b') then do
    let (_, after) ← group tokens
    .ok after
  else .ok tokens

/-- A function, read behind its keyword, and the tokens after it. -/
def readFunction (tokens : List Token) : Except SourceError (Option Declaration × List Token) :=
  match tokens with
  | .identifier name :: rest =>
    if rest.head? = some (.mark '(') then do
      let (found, rest) ← parameterList rest
      let rest ← afterResult rest
      let rest ← afterBody rest
      .ok (some (.function ⟨name, found⟩), rest)
    else .ok (none, tokens)
  | _ => .ok (none, tokens)

/-- A transaction, read behind its keyword, and the tokens after it. -/
def readTransaction (tokens : List Token) :
    Except SourceError (Option Declaration × List Token) := do
  let (found, rest) ←
    if tokens.head? = some (.mark '(') then do
      let (found, rest) ← parameterList tokens
      .ok (some found, rest)
    else .ok (none, tokens)
  if rest.head? = some (.mark '\x7b') then
    let (prepares, after) ← members "prepare" rest
    .ok (some (.transaction ⟨found, prepares.head?⟩), after)
  else .ok (none, tokens)

/-- A composite type of the given kind, read behind the name `identifier`, and the tokens after
it. -/
def readComposite (kind identifier : Text) (tokens : List Token) :
    Except SourceError (Option CompositeDeclaration × List Token) :=
  if kind = "event" then
    if tokens.head? = some (.mark '(') then do
      let (_, after) ← parameterList tokens
      .ok (some ⟨kind, identifier, []⟩, after)
    else .ok (some ⟨kind, identifier, []⟩, tokens)
  else do
    let body ← toBlock tokens
    if body = [] then .ok (none, [])
    else
      let (initializers, after) ← members "init" body
      .ok (some ⟨kind, identifier, initializers⟩, after)

/-- A composite type or an interface of the given kind, read behind the keyword, and the tokens
after it. -/
def readCompositeOrInterface (kind : Text) (tokens : List Token) :
    Except SourceError (Option Declaration × List Token) :=
  match tokens with
  | .identifier word :: rest =>
    if word = "interface" then
      match rest with
      | .identifier name :: rest => do
        let (found, after) ← readComposite kind name rest
        .ok (found.map .interface, after)
      | _ => .ok (none, tokens)
    else do
      let (found, after) ← readComposite kind word rest
      .ok (found.map .composite, after)
  | _ => .ok (none, tokens)

/-- What stands at the front of the tokens: a declaration, a group or another token; and the tokens
after it. -/
def step (token : Token) (rest : List Token) :
    Except SourceError (Option Declaration × List Token) :=
  match token with
  | .identifier word =>
    if word = "fun" then readFunction rest
    else if word = "transaction" then readTransaction rest
    else if word ∈ compositeKinds then readCompositeOrInterface word rest
    else .ok (none, rest)
  | token =>
    if token.opens then do
      let (_, after) ← group (token :: rest)
      .ok (none, after)
    else .ok (none, rest)

/-- The declarations among the tokens. -/
def declarationsWith : Nat → List Token → Except SourceError (List Declaration)
  | 0, _ => .ok []
  | _ + 1, [] => .ok []
  | fuel + 1, token :: rest => do
    let (found, after) ← step token rest
    let others ← declarationsWith fuel after
    .ok (found.toList ++ others)

/-- The program that tokens form. Every step takes a token, so their number is enough fuel. -/
def ofTokens (tokens : List Token) : Except SourceError Program :=
  match Bracket.check tokens with
  | .error e => .error (.bracket e)
  | .ok () => (declarationsWith tokens.length tokens).map Program.mk

/-- The program of a source text. -/
def parse (code : Text) : Except SourceError Program :=
  match Token.scan code with
  | .error e => .error (.scan e)
  | .ok tokens => ofTokens tokens

/-- The program of the bytes of a file. -/
def ofBytes (bytes : List UInt8) : Except SourceError Program :=
  match Utf8.decode bytes with
  | .error _ => .error .notUtf8
  | .ok code => parse code

end Program

end ContractKit
