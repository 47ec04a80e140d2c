import ContractKit.Literal.Word
import ContractKit.Text.Alphanumeric
import ContractKit.Ty.Basic

/-!
# Reading literals

`Literal.read` takes a literal of a type from the start of a text and returns its value and the rest
of the text. `Literal.parse` reads a text that is one literal, with blanks around it.
-/

namespace ContractKit.Literal

/-- The text without the blanks it starts with. -/
def skip (s : Text) : Text :=
  s.trimLeft

/-- The text after the character that has to come next, blanks aside. -/
def expect (c : CodePoint) (s : Text) : Except LiteralError Text :=
  match skip s with
  | [] => .error (.expected c "end of input")
  | d :: rest => if d = c then .ok rest else .error (.expected c [d])

/-! ## Strings -/

/-- The character of an escape of one letter. -/
def shortEscape? (c : CodePoint) : Option CodePoint :=
  if c = '0' then some '\x00'
  else if c = 'n' then some '\n'
  else if c = 'r' then some '\r'
  else if c = 't' then some '\t'
  else if c = '"' ∨ c = '\'' ∨ c = '\\' then some c
  else none

/-- The code point that hexadecimal digits name. -/
def codePoint (digits : Text) : Except LiteralError CodePoint :=
  let number := Numeral.value 16 (digits.filterMap Numeral.hexValue?)
  if h : number < 0x110000 then .ok ⟨number, h⟩
  else if number < 0x80000000 then .error .invalidCodePoint
  else .error .codePointOverflow

/-- The code point of one to eight hexadecimal digits in braces, read behind the `u`. -/
def unicodeEscape (s : Text) : Except LiteralError (CodePoint × Text) :=
  match s with
  | [] => .error .invalidUnicodeEscape
  | brace :: rest =>
    match rest.takeWhile Numeral.isHexDigit, rest.dropWhile Numeral.isHexDigit with
    | _, [] => .error .invalidUnicodeEscape
    | digits, close :: after =>
      if brace = '\x7b' ∧ close = '\x7d' ∧ digits ≠ [] ∧ digits.length ≤ 8 then
        (codePoint digits).map (·, after)
      else .error .invalidUnicodeEscape

/-- What an escape denotes, read behind its backslash, and the text after it. -/
def escape (s : Text) : Except LiteralError (CodePoint × Text) :=
  match s with
  | [] => .error (.invalidEscape [])
  | c :: rest =>
    match shortEscape? c with
    | some d => .ok (d, rest)
    | none => if c = 'u' then unicodeEscape rest else .error (.invalidEscape [c])

theorem unicodeEscape_length {s rest : Text} {c : CodePoint}
    (h : unicodeEscape s = .ok (c, rest)) : rest.length < s.length := by
  unfold unicodeEscape at h
  split at h
  · simp at h
  · next brace tail =>
    have hle : (tail.dropWhile Numeral.isHexDigit).length ≤ tail.length :=
      (List.dropWhile_suffix _).length_le
    split at h
    · simp at h
    · next close after heq =>
      rw [heq, List.length_cons] at hle
      split at h
      · cases hc : codePoint (tail.takeWhile Numeral.isHexDigit) with
        | error e => simp [hc, Except.map] at h
        | ok d =>
          simp only [hc, Except.map, Except.ok.injEq, Prod.mk.injEq] at h
          simp only [← h.2, List.length_cons]
          omega
      · simp at h

/-- An escape takes at least one code point. -/
theorem escape_length {s rest : Text} {c : CodePoint} (h : escape s = .ok (c, rest)) :
    rest.length < s.length := by
  unfold escape at h
  split at h
  · simp at h
  · split at h
    · simp only [Except.ok.injEq, Prod.mk.injEq] at h
      simp [← h.2]
    · split at h
      · have := unicodeEscape_length h
        simp only [List.length_cons]
        omega
      · simp at h

/-- The contents of a string and the text after it, read behind the opening quotation mark. -/
def stringBody (s : Text) : Except LiteralError (Text × Text) :=
  match s with
  | [] => .error .unterminated
  | c :: rest =>
    if c = '"' then .ok ([], rest)
    else if c = '\n' then .error .unterminated
    else if c = '\\' then
      match _h : escape rest with
      | .error e => .error e
      | .ok (d, after) => (stringBody after).map fun (t, left) => (d :: t, left)
    else (stringBody rest).map fun (t, left) => (c :: t, left)
termination_by s.length
decreasing_by
  · have := escape_length _h
    simp only [List.length_cons]
    omega
  · simp

/-- The contents of a string literal and the text after it. -/
def string (s : Text) : Except LiteralError (Text × Text) :=
  match s with
  | c :: rest => if c = '"' then stringBody rest else .error .notString
  | [] => .error .notString

/-! ## Paths -/

/-- The longest identifier the text starts with, empty if there is none, and the text after it. -/
def identifier (s : Text) : Text × Text :=
  match s with
  | c :: rest =>
    if c.startsIdentifier then
      (c :: rest.takeWhile CodePoint.continuesIdentifier,
        rest.dropWhile CodePoint.continuesIdentifier)
    else ([], s)
  | [] => ([], s)

/-- A path and the text after it. -/
def path (kind : PathKind) (s : Text) : Except LiteralError (Value × Text) :=
  match Text.dropStart? "/" s with
  | none => .error .notPath
  | some s =>
    let (domain, s) := identifier s
    if domain ∈ kind.domains then
      match Text.dropStart? "/" s with
      | none => .error .noDomainEnd
      | some s =>
        match identifier s with
        | ([], _) => .error .noIdentifier
        | (name, rest) => .ok (.path domain name, rest)
    else .error (.invalidDomain kind.name)

/-! ## Sequences -/

section

variable {α : Type} (close : CodePoint) (item : Text → Except LiteralError (α × Text))

/-- Items with commas between them up to the closing character, and the text after it. A comma may
stand before the closing character. -/
def items : Nat → Text → Except LiteralError (List α × Text)
  | 0, s => .error (.expected close (s.take 1))
  | fuel + 1, s => do
    let (first, rest) ← item s
    let rest := skip rest
    if rest.head? = some (',' : CodePoint) then
      let rest := skip (rest.drop 1)
      if rest.head? = some close then .ok ([first], rest.drop 1)
      else
        let (others, rest) ← items fuel rest
        .ok (first :: others, rest)
    else
      let rest ← expect close rest
      .ok ([first], rest)

/-- What stands between an opening character and `close`: no items or some. Every item takes a code
point, so the length of the text is enough fuel. -/
def sequence (s : Text) : Except LiteralError (List α × Text) :=
  let s := skip s
  if s.head? = some close then .ok ([], s.drop 1) else items close item (s.length + 1) s

end

/-! ## Values -/

/-- Whether the text starts with the word `nil`. -/
def startsNil (s : Text) : Bool :=
  match Text.dropStart? "nil" s with
  | some [] => true
  | some (c :: _) => !(c.isAlphanumeric || c = '_')
  | none => false

/-- A literal of a simple type and the text after it. -/
def simple (type : SimpleType) (s : Text) : Except LiteralError (Value × Text) :=
  match type with
  | .string => (string s).map fun (t, rest) => (.string t, rest)
  | .character => do
    let (t, rest) ← string s
    if t.length = 1 then .ok (.character t, rest) else .error .notCharacter
  | .bool => do
    let (found, rest) ← word s
    .ok (← bool found, rest)
  | .integer kind => do
    let (found, rest) ← word s
    .ok (← integer kind found, rest)
  | .fixed kind => do
    let (found, rest) ← word s
    .ok (← fixedPoint kind found, rest)
  | .path kind => path kind s
  | .unwritten kind => .error (.unwritten kind.name)

/-- The array of so many values. The error names the length, unless that is too long to be written. -/
def ofLength (size : Nat) (values : List Value) : Except LiteralError Value :=
  if values.length = size then .ok (.array values)
  else
    match Numeral.print size with
    | .ok _ => .error (.wrongLength size values.length)
    | .error e => .error (.numeral e)

/-- A literal of the type, read behind the blanks the text starts with, and the text after it. -/
def read : Ty → Text → Except LiteralError (Value × Text)
  | .optional inner, s =>
    let s := skip s
    if startsNil s then .ok (.optional none, s.drop 3)
    else (read inner s).map fun (value, rest) => (.optional (some value), rest)
  | .address, s => do
    let (found, rest) ← word (skip s)
    .ok (← address found, rest)
  | .simple type, s => simple type (skip s)
  | .array element, s => do
    let rest ← expect '[' s
    let (values, rest) ← sequence ']' (read element) rest
    .ok (.array values, rest)
  | .constant element size, s => do
    let rest ← expect '[' s
    let (values, rest) ← sequence ']' (read element) rest
    (ofLength size values).map (·, rest)
  | .dictionary key value, s => do
    let rest ← expect '\x7b' s
    let entry (s : Text) : Except LiteralError ((Value × Value) × Text) := do
      let (left, rest) ← read key s
      let rest ← expect ':' rest
      let (right, rest) ← read value rest
      .ok ((left, right), rest)
    let (pairs, rest) ← sequence '\x7d' entry rest
    .ok (.dictionary pairs, rest)
  | .nominal name, _ => .error (.unwritten name)

/-- The value of a text that is one literal of the type, with blanks around it. -/
def parse (text : Text) (type : Ty) : Except LiteralError Value :=
  match read type text with
  | .error e => .error e
  | .ok (value, rest) =>
    match skip rest with
    | [] => .ok value
    | left => .error (.trailing left)

end ContractKit.Literal
