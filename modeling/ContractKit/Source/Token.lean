import ContractKit.Text.Blank

/-!
# Tokens of source text

A source text is a sequence of tokens with gaps between them: blanks, line comments from `//` to the
end of the line and block comments, which nest. `Token.scan` finds the tokens. It refuses a text
only for a string or a block comment that does not end.
-/

namespace ContractKit

/-- A token of source text. -/
inductive Token where
  /-- A letter or `_`, then letters, digits and `_`. -/
  | identifier (text : Text)
  /-- A digit, then letters, digits, `_` and points. -/
  | number (text : Text)
  /-- A string literal with its quotation marks. -/
  | string (text : Text)
  /-- Any other single character. -/
  | mark (c : CodePoint)
deriving DecidableEq

/-- Why a text has no tokens. -/
inductive ScanError where
  /-- A block comment does not end. -/
  | unterminatedComment
  /-- A string literal does not end on its line. -/
  | unterminatedString
deriving DecidableEq

/-- The wording of an error. -/
def ScanError.message : ScanError → Text
  | .unterminatedComment => "unterminated block comment"
  | .unterminatedString => "unterminated string literal"

namespace Token

/-- The text of the token. -/
def text : Token → Text
  | .identifier text => text
  | .number text => text
  | .string text => text
  | .mark c => [c]

/-- A letter, a digit, `_` or a point: what a number goes on with. -/
def continuesNumber (c : CodePoint) : Bool :=
  c.continuesIdentifier || c = '.'

/-- What follows a block comment, read inside it with `depth` comments around that one. -/
def afterComment : Nat → Text → Option Text
  | _, [] => none
  | _, [_] => none
  | depth, a :: b :: rest =>
    if a = '/' ∧ b = '*' then afterComment (depth + 1) rest
    else if a = '*' ∧ b = '/' then
      match depth with
      | 0 => some rest
      | depth + 1 => afterComment depth rest
    else afterComment depth (b :: rest)

/-- The rest of a string literal with its closing quotation mark, and what follows it. A backslash
takes the next character with it; a line end ends no string. -/
def stringBody : Text → Option (Text × Text)
  | [] => none
  | [c] => if c = '"' then some ([c], []) else none
  | c :: d :: rest =>
    if c = '\\' then (stringBody rest).map fun (body, after) => (c :: d :: body, after)
    else if c = '"' then some ([c], d :: rest)
    else if c = '\n' then none
    else (stringBody (d :: rest)).map fun (body, after) => (c :: body, after)

theorem afterComment_length {depth : Nat} {s after : Text}
    (h : afterComment depth s = some after) : after.length ≤ s.length := by
  fun_induction afterComment depth s <;> grind

theorem stringBody_length {s body after : Text} (h : stringBody s = some (body, after)) :
    after.length ≤ s.length := by
  fun_induction stringBody s generalizing body after <;> grind [Option.map_eq_some_iff]

theorem length_dropWhile_le {α : Type} (p : α → Bool) (l : List α) :
    (l.dropWhile p).length ≤ l.length := by
  induction l with
  | nil => simp
  | cons a l ih =>
    simp only [List.dropWhile_cons]
    split
    · simp only [List.length_cons]
      omega
    · simp

/-- The tokens of a text. -/
def scan (code : Text) : Except ScanError (List Token) :=
  match code with
  | [] => .ok []
  | c :: rest =>
    if c.isBlank then scan rest
    else if c = '/' ∧ rest.head? = some ('/' : CodePoint) then scan (rest.dropWhile (· ≠ '\n'))
    else if c = '/' ∧ rest.head? = some ('*' : CodePoint) then
      match _h : afterComment 0 (rest.drop 1) with
      | none => .error .unterminatedComment
      | some after => scan after
    else if c = '"' then
      match _h : stringBody rest with
      | none => .error .unterminatedString
      | some (body, after) => (scan after).map (.string (c :: body) :: ·)
    else if c.startsIdentifier then
      (scan (rest.dropWhile CodePoint.continuesIdentifier)).map
        (.identifier (c :: rest.takeWhile CodePoint.continuesIdentifier) :: ·)
    else if c.isAsciiDigit then
      (scan (rest.dropWhile continuesNumber)).map
        (.number (c :: rest.takeWhile continuesNumber) :: ·)
    else (scan rest).map (.mark c :: ·)
termination_by code.length
decreasing_by
  · simp
  · have := length_dropWhile_le (fun d => decide (d ≠ (CodePoint.ofChar '\n'))) rest
    simp only [List.length_cons]
    omega
  · have := afterComment_length _h
    simp only [List.length_drop] at this
    simp only [List.length_cons]
    omega
  · have := stringBody_length _h
    simp only [List.length_cons]
    omega
  · have := length_dropWhile_le CodePoint.continuesIdentifier rest
    simp only [List.length_cons]
    omega
  · have := length_dropWhile_le continuesNumber rest
    simp only [List.length_cons]
    omega
  · simp

/-! ## Tokens as text -/

/-- Whether the token is followed by a space in rendered text. -/
def isSpaced (token : Token) : Bool :=
  token = .mark ',' || token = .mark ':' || token = .mark ';'

/-- Rendered text with one more token. -/
def renderOnto (out : Text) (token : Token) : Text :=
  if token.isSpaced then out ++ token.text ++ [(' ' : CodePoint)]
  else if token = .mark '&' ∧ ("auth" : Text).isSuffixOf out then out ++ (" &" : Text)
  else out ++ token.text

/-- The tokens as one text, with a space after commas, colons and semicolons. -/
def render (tokens : List Token) : Text :=
  Text.trim (tokens.foldl renderOnto [])

end Token

end ContractKit
