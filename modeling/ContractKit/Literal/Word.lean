import ContractKit.Value.Basic
import ContractKit.Value.Scalar

/-!
# Literals of one word

Numbers, addresses and truth values are written as one word: letters, digits, `_` and points, with a
minus sign in front or none. This module reads words and says which word is which value.
`LiteralError` has the errors of all literals.
-/

namespace ContractKit

/-- Why a text is no literal of a type. -/
inductive LiteralError where
  /-- A character was expected and the text found instead. -/
  | expected (c : CodePoint) (found : Text)
  /-- A word was expected where `left` code points were left. -/
  | noWord (left : Nat)
  /-- The word is no integer. -/
  | invalidInteger (word : Text)
  /-- The decimal integer, or the length that an array has to have, has too many digits. -/
  | numeral (e : NumeralError)
  /-- The number or address is not one of the type. -/
  | scalar (e : ScalarError)
  /-- A quotation mark was expected. -/
  | notString
  /-- The escape of a code point is malformed. -/
  | invalidUnicodeEscape
  /-- The escape names a number past the last code point. -/
  | invalidCodePoint
  /-- The escape names a number of more than 31 bits. -/
  | codePointOverflow
  /-- A backslash and the given character, or the end, are no escape. -/
  | invalidEscape (found : Text)
  /-- The string does not end on its line. -/
  | unterminated
  /-- A path starts with a slash. -/
  | notPath
  /-- The path type of this name has no such domain. -/
  | invalidDomain (type : Text)
  /-- A slash follows the domain. -/
  | noDomainEnd
  /-- An identifier ends a path. -/
  | noIdentifier
  /-- The word is no address. -/
  | invalidAddress (word : Text)
  /-- A character literal holds one code point. -/
  | notCharacter
  /-- The word is no truth value. -/
  | invalidBool (word : Text)
  /-- The word is no fixed point. -/
  | invalidFixedPoint (word : Text)
  /-- The array has to have another length. -/
  | wrongLength (want got : Nat)
  /-- No literal denotes a value of the type. -/
  | unwritten (type : Text)
  /-- Something follows the literal. -/
  | trailing (rest : Text)
deriving DecidableEq

/-- The wording of an error met in a text of `size` code points. -/
def LiteralError.message (size : Nat) : LiteralError → Text
  | .expected c found => .concat ["expected ", Text.quote [c], ", found ", found.quote]
  | .noWord left => .concat ["expected a literal at position ", Numeral.ofNat 10 (size - left)]
  | .invalidInteger word => .concat ["invalid integer literal ", word.quote]
  | .numeral e => e.message
  | .scalar e => e.message
  | .notString => "expected a string literal"
  | .invalidUnicodeEscape => "invalid unicode escape in string literal"
  | .invalidCodePoint => "invalid unicode code point in string literal"
  | .codePointOverflow => "code point does not fit into 31 bits"
  | .invalidEscape found => .concat ["invalid escape sequence ", Text.quote ('\\' :: found)]
  | .unterminated => "unterminated string literal"
  | .notPath => "expected a path literal"
  | .invalidDomain type => .concat ["invalid domain for ", type, " literal"]
  | .noDomainEnd => "expected '/' after path domain"
  | .noIdentifier => "expected path identifier"
  | .invalidAddress word => .concat ["invalid address literal ", word.quote]
  | .notCharacter => "character literal must contain exactly one character"
  | .invalidBool word => .concat ["invalid boolean literal ", word.quote]
  | .invalidFixedPoint word => .concat ["invalid fixed-point literal ", word.quote]
  | .wrongLength want got =>
    .concat ["expected ", Numeral.ofNat 10 want, " elements, got ", Numeral.ofNat 10 got]
  | .unwritten type => .concat ["values of type ", type, " cannot be written as literals"]
  | .trailing rest => .concat ["unexpected input after literal: ", rest.quote]

namespace Literal

/-- A letter, a digit, `_` or a point. -/
def isWordPart (c : CodePoint) : Bool :=
  c.continuesIdentifier || c = '.'

/-- The longest word the text starts with, and the text after it. -/
def word (s : Text) : Except LiteralError (Text × Text) :=
  let (sign, unsigned) : Text × Text :=
    match s with
    | c :: rest => if c = '-' then ([c], rest) else ([], s)
    | [] => ([], s)
  match unsigned.takeWhile isWordPart with
  | [] => .error (.noWord s.length)
  | found => .ok (sign ++ found, unsigned.dropWhile isWordPart)

/-- Digits, with runs of `_` between digits only. -/
def isGrouped (isDigit : CodePoint → Bool) (s : Text) : Bool :=
  s.all (fun c => isDigit c || c = '_') && s.head?.any isDigit && s.getLast?.any isDigit

/-- The text without `_`. -/
def ungroup (s : Text) : Text :=
  s.filter (· ≠ '_')

/-- Whether the word starts with a minus sign, and the word without it. -/
def splitSign (word : Text) : Bool × Text :=
  match Text.dropStart? "-" word with
  | some body => (true, body)
  | none => (false, word)

/-- The base that the start of a word names, and the rest of the word. -/
def splitBase (body : Text) : Nat × Text :=
  match Text.dropStart? "0x" body, Text.dropStart? "0b" body, Text.dropStart? "0o" body with
  | some digits, _, _ => (16, digits)
  | _, some digits, _ => (2, digits)
  | _, _, some digits => (8, digits)
  | none, none, none => (10, body)

/-- Whether the code point is an ASCII digit of the base. -/
def isDigitOf (base : Nat) (c : CodePoint) : Bool :=
  (Numeral.hexValue? c).any (· < base)

/-- The value of digits of the base; decimal digits are limited in number. -/
def digitsValue (base : Nat) (digits : Text) : Except NumeralError Nat :=
  if base = 10 ∧ Numeral.decimalLimit < digits.length then .error .tooManyDigits
  else .ok (Numeral.value base (digits.filterMap Numeral.hexValue?))

/-- The value of an integer word. -/
def integer (kind : IntegerKind) (word : Text) : Except LiteralError Value :=
  let (negative, body) := splitSign word
  let (base, digits) := splitBase body
  if isGrouped (isDigitOf base) digits then
    match digitsValue base (ungroup digits) with
    | .error e => .error (.numeral e)
    | .ok magnitude =>
      match kind.check (if negative then -(magnitude : Int) else magnitude) with
      | .ok number => .ok (.integer kind number)
      | .error e => .error (.scalar e)
  else .error (.invalidInteger word)

/-- A minus sign or none, and two groups of decimal digits with a point between them. -/
def isFixedPoint (word : Text) : Bool :=
  let body := (splitSign word).2
  isGrouped CodePoint.isAsciiDigit (body.takeWhile (· ≠ ('.' : CodePoint))) &&
    isGrouped CodePoint.isAsciiDigit ((body.dropWhile (· ≠ ('.' : CodePoint))).drop 1)

/-- The value of a fixed-point word. -/
def fixedPoint (kind : FixedKind) (word : Text) : Except LiteralError Value :=
  if isFixedPoint word then
    match FixedPoint.read kind (ungroup word) with
    | .ok raw => .ok (.fixed kind raw)
    | .error e => .error (.scalar e)
  else .error (.invalidFixedPoint word)

/-- The value of an address word: `0x` and hexadecimal digits. -/
def address (word : Text) : Except LiteralError Value :=
  match Text.dropStart? "0x" word with
  | some digits =>
    if digits ≠ [] ∧ digits.all Numeral.isHexDigit then
      match Address.normalize word with
      | .ok digits => .ok (.address (.concat ["0x", digits]))
      | .error e => .error (.scalar e)
    else .error (.invalidAddress word)
  | none => .error (.invalidAddress word)

/-- The value of a boolean word. -/
def bool (word : Text) : Except LiteralError Value :=
  if word = "true" then .ok (.bool true)
  else if word = "false" then .ok (.bool false)
  else .error (.invalidBool word)

end Literal

end ContractKit
