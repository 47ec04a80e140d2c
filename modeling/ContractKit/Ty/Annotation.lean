import ContractKit.Source.Bracket
import ContractKit.Ty.Basic

/-!
# Type annotations

Reading types from tokens. `Ty.read` takes the longest type that the tokens start with and returns
the tokens after it. `Ty.parse` reads a text that is one type. Resource markers `@` are dropped, and
reference, function, generic and restricted types become nominal types with the text of their
tokens.
-/

namespace ContractKit

/-- Why tokens do not start with a type, or why a text is none. -/
inductive AnnotationError where
  /-- Another token was expected. -/
  | expected (mark : CodePoint) (found : Text)
  /-- The size of a constant array has to be a number. -/
  | invalidSize (found : Text)
  /-- The size of a constant array cannot be read. -/
  | size (e : NumeralError)
  /-- A bracket is not closed. -/
  | unclosed (opener : CodePoint)
  /-- No type starts here. -/
  | noType (found : Text)
  /-- Something follows the type. -/
  | trailing (found whole : Text)
  /-- The text has no tokens. -/
  | scan (e : ScanError)
deriving DecidableEq

/-- The name under which a text without a file is reported. -/
def annotationName : Text := "<type>"

/-- The wording of an error. -/
def AnnotationError.message : AnnotationError → Text
  | .expected mark found =>
    .concat ["expected ", Text.quote [mark], " in type annotation, found ", found.quote]
  | .invalidSize found => .concat ["invalid constant array size ", found.quote]
  | .size e => e.message
  | .unclosed opener => .concat ["unclosed ", Text.quote [opener]]
  | .noType found => .concat ["invalid type annotation near ", found.quote]
  | .trailing found whole =>
    .concat ["unexpected ", found.quote, " in type annotation ", whole.quote]
  | .scan e => .concat [annotationName, ": ", e.message]

namespace Ty

/-- The text of the first token, for a message. -/
def foundText : List Token → Text
  | [] => "end of input"
  | token :: _ => token.text

/-- The tokens after the mark they have to start with. -/
def expect (mark : CodePoint) : List Token → Except AnnotationError (List Token)
  | token :: rest =>
    if token = .mark mark then .ok rest else .error (.expected mark (foundText (token :: rest)))
  | [] => .error (.expected mark (foundText []))

/-- The tokens of `tokens` that come before `rest`, which they end with, as text. -/
def consumed (tokens rest : List Token) : Text :=
  Token.render (tokens.take (tokens.length - rest.length))

/-- The optional marks behind a type. -/
def wrapOptional (type : Ty) : List Token → Ty × List Token
  | token :: rest => if token = .mark '?' then wrapOptional type.optional rest else (type, token :: rest)
  | [] => (type, [])

/-- What follows the points and names after a first name. -/
def afterDots : List Token → List Token
  | .mark c :: .identifier name :: rest =>
    if c = '.' then afterDots rest else .mark c :: .identifier name :: rest
  | rest => rest

mutual

/-- Whether tokens, read behind an opening brace, are names separated by commas up to a closing
brace. -/
def startsRestrictions : List Token → Bool
  | .identifier _ :: rest => endsRestriction rest
  | _ => false

/-- Whether tokens go on with restrictions behind a name. -/
def endsRestriction : List Token → Bool
  | [] => false
  | [token] => token = .mark '\x7d'
  | token :: next :: rest =>
    if token = .mark '.' then endsRestriction rest
    else if token = .mark '\x7d' then true
    else if token = .mark ',' then startsRestrictions (next :: rest)
    else false

end

/-- Whether the tokens go on with restrictions in braces. -/
def hasRestrictions : List Token → Bool
  | token :: rest => token = .mark '\x7b' && startsRestrictions rest
  | [] => false

/-- The tokens after the next closing brace. -/
def skipRestrictions (tokens : List Token) : Except AnnotationError (List Token) :=
  expect '\x7d' (tokens.dropWhile (· ≠ .mark '\x7d'))

/-- The tokens after the group in brackets that the tokens start with. -/
def skipGroup (opener : CodePoint) (tokens : List Token) : Except AnnotationError (List Token) :=
  match Bracket.group? tokens with
  | some (_, after) => .ok after
  | none => .error (.unclosed opener)

/-- The size of a constant array and the tokens after its closing bracket. -/
def readSize (tokens : List Token) : Except AnnotationError (Nat × List Token) :=
  let text := (tokens.head?.map Token.text).getD []
  if text ≠ [] ∧ text.all CodePoint.isDigit then do
    let rest ← expect ']' (tokens.drop 1)
    match Numeral.readDecimal text with
    | .ok size => .ok (size, rest)
    | .error e => .error (.size e)
  else .error (.invalidSize text)

mutual

/-- A type and the tokens after it. -/
def readWith : Nat → List Token → Except AnnotationError (Ty × List Token)
  | 0, tokens => .error (.noType (foundText tokens))
  | fuel + 1, tokens => do
    let start := if tokens.head? = some (.mark '@') then tokens.drop 1 else tokens
    let (type, rest) ← readBase fuel start
    .ok (wrapOptional type rest)

/-- A type without marker and optional marks. -/
def readBase : Nat → List Token → Except AnnotationError (Ty × List Token)
  | 0, tokens => .error (.noType (foundText tokens))
  | _ + 1, [] => .error (.noType (foundText []))
  | fuel + 1, token :: rest =>
    let tokens := token :: rest
    if token = .mark '[' then do
      let (element, rest) ← readWith fuel rest
      if rest.head? = some (.mark ';') then
        let (size, rest) ← readSize (rest.drop 1)
        .ok (constant element size, rest)
      else
        let rest ← expect ']' rest
        .ok (array element, rest)
    else if token = .mark '\x7b' then do
      let (key, rest) ← readWith fuel rest
      if rest.head? = some (.mark ':') then
        let (value, rest) ← readWith fuel (rest.drop 1)
        let rest ← expect '\x7d' rest
        .ok (dictionary key value, rest)
      else
        let rest ← skipRestrictions rest
        .ok (nominal (consumed tokens rest), rest)
    else if token = .mark '&' then do
      let (_, rest) ← readWith fuel rest
      .ok (nominal (consumed tokens rest), rest)
    else if token = .identifier "auth" then do
      let rest ← if rest.head? = some (.mark '(') then skipGroup '(' rest else .ok rest
      let rest ← expect '&' rest
      let (_, rest) ← readWith fuel rest
      .ok (nominal (consumed tokens rest), rest)
    else if token = .mark '(' then do
      let rest ← skipGroup '(' tokens
      if rest.head? = some (.mark ':') then
        let (_, rest) ← readWith fuel (rest.drop 1)
        .ok (nominal (consumed tokens rest), rest)
      else .ok (nominal (consumed tokens rest), rest)
    else
      match token with
      | .identifier _ => do
        let named := afterDots rest
        let name := consumed tokens named
        let isGeneric := named.head? = some (.mark '<')
        let rest ← if isGeneric then readArguments fuel (named.drop 1) else .ok named
        if hasRestrictions rest then
          let rest ← skipRestrictions (rest.drop 1)
          .ok (nominal (consumed tokens rest), rest)
        else if isGeneric then .ok (nominal (consumed tokens rest), rest)
        else .ok (ofName name, rest)
      | other => .error (.noType other.text)

/-- The tokens after the arguments of a generic type, read behind its opening bracket. -/
def readArguments : Nat → List Token → Except AnnotationError (List Token)
  | 0, tokens => .error (.noType (foundText tokens))
  | fuel + 1, tokens => do
    let (_, rest) ← readWith fuel tokens
    if rest.head? = some (.mark ',') then readArguments fuel (rest.drop 1)
    else expect '>' rest

end

/-- The type that the tokens start with and the tokens after it. Every second call takes a token,
so twice their number is enough fuel. -/
def read (tokens : List Token) : Except AnnotationError (Ty × List Token) :=
  readWith (2 * tokens.length + 2) tokens

/-- The type a text consists of. -/
def parse (text : Text) : Except AnnotationError Ty :=
  match Token.scan text with
  | .error e => .error (.scan e)
  | .ok tokens =>
    match read tokens with
    | .error e => .error e
    | .ok (type, []) => .ok type
    | .ok (_, token :: _) => .error (.trailing token.text text)

end Ty

end ContractKit
