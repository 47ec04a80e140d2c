import ContractKit.Literal.Reader
import ContractKit.Log
import ContractKit.Source.Declaration

/-!
# Coercing arguments

Turning the words of a command line into values of the parameter types. A word for a string needs no
quotation marks and one for an address no `0x`: `prepare` adds them. The word is first read as a
value of the type under the optional ones around it; for an optional parameter it is read a second
time, as it stands, as a value of the optional type, which is how `nil` is understood.
-/

namespace ContractKit

/-- Why words are no arguments for parameters. -/
inductive CoercionError where
  /-- There are more or fewer words than parameters. -/
  | countMismatch (got want : Nat)
  /-- The word for this parameter is no value of the type. -/
  | typeMismatch (identifier : Text) (type : Ty)
  /-- The word names a code point of more than 31 bits. -/
  | codePointOverflow
  /-- The word is no value of the type, and an array length in the type is too long to be written. -/
  | numeral (e : NumeralError)
deriving DecidableEq

/-- The wording of an error. -/
def CoercionError.message : CoercionError → Text
  | .countMismatch got want =>
    .concat ["argument count is ", Numeral.ofNat 10 got, ", expected ", Numeral.ofNat 10 want]
  | .typeMismatch identifier type =>
    .concat ["argument `", identifier, "` is not expected type `", type.text, "`"]
  | .codePointOverflow => (LiteralError.codePointOverflow).message 0
  | .numeral e => e.message

namespace Argument

/-- The word as a literal of a type that is not optional. -/
def prepare (raw : Text) (leaf : Ty) : Text :=
  if leaf.isTextual then
    if raw = [] ∨ raw.head? = some ('"' : CodePoint) then raw else .concat ["\"", raw, "\""]
  else if leaf = .address then
    if Text.contains raw "0x" then raw else .concat ["0x", raw]
  else raw

/-- The error about a word that is no value of the parameter's type. It names the type under the optional
ones, if that can be written. -/
def mismatch (parameter : Parameter) : CoercionError :=
  if parameter.type.leaf.isWritable then .typeMismatch parameter.identifier parameter.type.leaf
  else .numeral .tooManyDigits

/-- The value that an argument gives to a parameter. -/
def coerce (parameter : Parameter) (raw : Text) : Except CoercionError Value :=
  let leaf := parameter.type.leaf
  match Literal.parse (prepare raw leaf) leaf with
  | .ok value => .ok value
  | .error .codePointOverflow => .error .codePointOverflow
  | .error _ =>
    if leaf = parameter.type then .error (mismatch parameter)
    else
      match Literal.parse raw parameter.type with
      | .ok value => .ok value
      | .error .codePointOverflow => .error .codePointOverflow
      | .error _ => .error (mismatch parameter)

/-- The values that arguments give to parameters, one each. -/
def coerceAll (parameters : List Parameter) (raws : List Text) :
    Except CoercionError (List Value) :=
  if raws.length = parameters.length then
    (parameters.zip raws).mapM fun (parameter, raw) => coerce parameter raw
  else .error (.countMismatch raws.length parameters.length)

/-! ## What coercion does on the way -/

/-- The literals that are read for an argument, with their types, in order. -/
def readings (parameter : Parameter) (raw : Text) : List (Text × Ty) :=
  let leaf := parameter.type.leaf
  let first := (prepare raw leaf, leaf)
  match Literal.parse first.1 first.2 with
  | .ok _ => [first]
  | .error .codePointOverflow => [first]
  | .error _ => if leaf = parameter.type then [first] else [first, (raw, parameter.type)]

/-- Arguments with their parameters up to the first one that fails, that one included. -/
def reached : List (Parameter × Text) → List (Parameter × Text)
  | [] => []
  | (parameter, raw) :: rest =>
    (parameter, raw) ::
      match coerce parameter raw with
      | .ok _ => reached rest
      | .error _ => []

/-- The arguments that coercion looks at, with their parameters. -/
def visited (parameters : List Parameter) (raws : List Text) : List (Parameter × Text) :=
  if raws.length = parameters.length then reached (parameters.zip raws) else []

/-- The literals that are read for arguments, in order. -/
def allReadings (parameters : List Parameter) (raws : List Text) : List (Text × Ty) :=
  (visited parameters raws).flatMap fun (parameter, raw) => readings parameter raw

/-- The note that the literal read for an argument differs from the word given. -/
def note? (parameter : Parameter) (raw : Text) : Option LogRecord :=
  let literal := prepare raw parameter.type.leaf
  if literal = raw then none
  else
    some ⟨.debug, .arguments, .concat ["Argument ", parameter.identifier, " rewritten from ",
      raw.quoted, " to ", literal.quoted]⟩

/-- The notes that coercing arguments leaves. -/
def notes (parameters : List Parameter) (raws : List Text) : List LogRecord :=
  (visited parameters raws).filterMap fun (parameter, raw) => note? parameter raw

end Argument

end ContractKit
