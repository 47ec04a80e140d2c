import ContractKit.Json.Basic
import ContractKit.Number.Numeral

/-!
# Reading JSON

`Json.parse` reads a text that holds one JSON value. Besides the standard grammar the numbers
`NaN`, `Infinity` and `-Infinity` are read, a repeated member name keeps its first place and its
last value, and a whole number may have `Numeral.decimalLimit` digits. Of two faults the one that
stands first in the text is reported.
-/

namespace ContractKit.Json

/-- Why a text holds no JSON value. -/
inductive ReadError where
  /-- The text breaks the grammar. -/
  | malformed
  /-- A whole number could not be read. -/
  | numeral (e : NumeralError)
deriving DecidableEq

/-- The blanks of JSON: space, tab, line feed and carriage return. -/
def isBlank (c : CodePoint) : Bool :=
  c = ' ' || c = '\t' || c = '\n' || c = '\r'

/-- The text without the blanks it starts with. -/
def skipBlanks (s : Text) : Text :=
  s.dropWhile isBlank

/-! ## Strings -/

/-- Four hexadecimal digits. -/
def readUnit : Text → Option (Nat × Text)
  | a :: b :: c :: d :: rest =>
    match Numeral.hexValue? a, Numeral.hexValue? b, Numeral.hexValue? c, Numeral.hexValue? d with
    | some a, some b, some c, some d => some (Numeral.value 16 [a, b, c, d], rest)
    | _, _, _, _ => none
  | _ => none

/-- The escape of a low surrogate, with its backslash. -/
def readLowSurrogate : Text → Option (Nat × Text)
  | backslash :: u :: rest =>
    if backslash = '\\' ∧ u = 'u' then
      match readUnit rest with
      | some (unit, after) =>
        if 0xdc00 ≤ unit ∧ unit < 0xe000 then some (unit, after) else none
      | none => none
    else none
  | _ => none

/-- The character of an escape of one letter. -/
def shortEscape? (c : CodePoint) : Option CodePoint :=
  if c = '"' ∨ c = '\\' ∨ c = '/' then some c
  else if c = 'b' then some (.ofNat 8)
  else if c = 'f' then some (.ofNat 12)
  else if c = 'n' then some '\n'
  else if c = 'r' then some '\r'
  else if c = 't' then some '\t'
  else none

/-- What an escape denotes, read after its backslash. The escapes of a high and a low surrogate
that stand side by side denote one code point. -/
def readEscape : Text → Option (CodePoint × Text)
  | [] => none
  | letter :: rest =>
    if letter = 'u' then
      match readUnit rest with
      | none => none
      | some (unit, after) =>
        if 0xd800 ≤ unit ∧ unit < 0xdc00 then
          match readLowSurrogate after with
          | some (low, after) =>
            some (.ofNat (0x10000 + (unit - 0xd800) * 0x400 + (low - 0xdc00)), after)
          | none => some (.ofNat unit, after)
        else some (.ofNat unit, after)
    else (shortEscape? letter).map (·, rest)

theorem readUnit_length {s rest : Text} {unit : Nat} (h : readUnit s = some (unit, rest)) :
    rest.length < s.length := by
  unfold readUnit at h
  split at h
  · split at h
    · simp only [Option.some.injEq, Prod.mk.injEq] at h
      simp only [← h.2, List.length_cons]
      omega
    · simp at h
  · simp at h

theorem readLowSurrogate_length {s rest : Text} {unit : Nat}
    (h : readLowSurrogate s = some (unit, rest)) : rest.length < s.length := by
  unfold readLowSurrogate at h
  split at h
  · split at h
    · split at h
      · next hu =>
        split at h
        · simp only [Option.some.injEq, Prod.mk.injEq] at h
          have := readUnit_length hu
          simp only [← h.2, List.length_cons]
          omega
        · simp at h
      · simp at h
    · simp at h
  · simp at h

/-- An escape takes at least one code point. -/
theorem readEscape_length {s rest : Text} {c : CodePoint} (h : readEscape s = some (c, rest)) :
    rest.length < s.length := by
  unfold readEscape at h
  split at h
  · simp at h
  · split at h
    · split at h
      · simp at h
      · next hu =>
        have := readUnit_length hu
        split at h
        · split at h
          · next hl =>
            have := readLowSurrogate_length hl
            simp only [Option.some.injEq, Prod.mk.injEq] at h
            simp only [← h.2, List.length_cons]
            omega
          · simp only [Option.some.injEq, Prod.mk.injEq] at h
            simp only [← h.2, List.length_cons]
            omega
        · simp only [Option.some.injEq, Prod.mk.injEq] at h
          simp only [← h.2, List.length_cons]
          omega
    · simp only [Option.map_eq_some_iff, Prod.mk.injEq] at h
      obtain ⟨_, _, _, rfl⟩ := h
      simp

/-- The contents of a string and what follows it, read after its opening quotation mark. -/
def readString (s : Text) : Except ReadError (Text × Text) :=
  match s with
  | [] => .error .malformed
  | c :: rest =>
    if c = '"' then .ok ([], rest)
    else if c = '\\' then
      match _h : readEscape rest with
      | none => .error .malformed
      | some (d, after) => (readString after).map fun (t, end_) => (d :: t, end_)
    else if c.val < 0x20 then .error .malformed
    else (readString rest).map fun (t, end_) => (c :: t, end_)
termination_by s.length
decreasing_by
  · have := readEscape_length _h
    simp only [List.length_cons]
    omega
  · simp

/-! ## Numbers -/

/-- The values of a run of ASCII digits, and what follows it. -/
def readDigits (s : Text) : List Nat × Text :=
  ((s.takeWhile CodePoint.isAsciiDigit).map (·.val - 48), s.dropWhile CodePoint.isAsciiDigit)

/-- The whole part of a number: one zero, or digits that start with no zero. -/
def readWhole (s : Text) : Option (List Nat × Text) :=
  match readDigits s with
  | ([], _) => none
  | (0 :: _, _) => some ([0], s.drop 1)
  | found => some found

/-- The digits behind the point; none when no point with a digit follows. -/
def readFraction (s : Text) : List Nat × Text :=
  match s with
  | point :: rest =>
    if point = '.' then
      match readDigits rest with
      | ([], _) => ([], s)
      | found => found
    else ([], s)
  | [] => ([], s)

/-- A sign, `true` for a minus. -/
def readSign (s : Text) : Bool × Text :=
  match s with
  | c :: rest => if c = '-' then (true, rest) else if c = '+' then (false, rest) else (false, s)
  | [] => (false, s)

/-- The exponent; none when no exponent with a digit follows. -/
def readExponent (s : Text) : Option Int × Text :=
  match s with
  | e :: rest =>
    if e = 'e' ∨ e = 'E' then
      let (negative, unsigned) := readSign rest
      match readDigits unsigned with
      | ([], _) => (none, s)
      | (ds, after) =>
        let n : Int := Numeral.value 10 ds
        (some (if negative then -n else n), after)
    else (none, s)
  | [] => (none, s)

/-- A number, with a minus sign in front of it where `negative` says so. -/
def readNumber (negative : Bool) (s : Text) : Except ReadError (Json × Text) :=
  match readWhole s with
  | none => .error .malformed
  | some (whole, rest) =>
    match readFraction rest with
    | (fraction, rest) =>
      match readExponent rest with
      | (exponent, after) =>
        if fraction.isEmpty ∧ exponent = none then
          if Numeral.decimalLimit < whole.length then .error (.numeral .tooManyDigits)
          else
            let n : Int := Numeral.value 10 whole
            .ok (.int (if negative then -n else n), after)
        else
          let significand := Numeral.value 10 (whole ++ fraction)
          let power := exponent.getD 0 - fraction.length
          .ok (.float (Binary64.ofDecimal negative significand power), after)

/-! ## Values -/

/-- The values written as words. -/
def words : List (Text × Json) :=
  [("null", .null), ("true", .bool true), ("false", .bool false), ("NaN", .float .nan),
   ("Infinity", .float (.infinite false)), ("-Infinity", .float (.infinite true))]

/-- A value written as a word. -/
def readWord (s : Text) : Option (Json × Text) :=
  words.findSome? fun (word, value) => (Text.dropStart? word s).map (value, ·)

mutual

/-- A value and what follows it. -/
def readValue : Nat → Text → Except ReadError (Json × Text)
  | 0, _ => .error .malformed
  | _ + 1, [] => .error .malformed
  | fuel + 1, c :: rest =>
    if c = '"' then (readString rest).map fun (t, after) => (.str t, after)
    else if c = '[' then
      match skipBlanks rest with
      | [] => .error .malformed
      | d :: after =>
        if d = ']' then .ok (.arr [], after)
        else (readItems fuel (d :: after)).map fun (items, after) => (.arr items, after)
    else if c = '\x7b' then
      match skipBlanks rest with
      | [] => .error .malformed
      | d :: after =>
        if d = '\x7d' then .ok (.obj [], after)
        else (readMembers fuel (d :: after)).map fun (members, after) => (object members, after)
    else
      match readWord (c :: rest) with
      | some found => .ok found
      | none => if c = '-' then readNumber true rest else readNumber false (c :: rest)

/-- The items of an array up to its closing bracket, and what follows that. -/
def readItems : Nat → Text → Except ReadError (List Json × Text)
  | 0, _ => .error .malformed
  | fuel + 1, s => do
    let (item, rest) ← readValue fuel s
    match skipBlanks rest with
    | [] => .error .malformed
    | d :: after =>
      if d = ']' then .ok ([item], after)
      else if d = ',' then
        let (items, after) ← readItems fuel (skipBlanks after)
        .ok (item :: items, after)
      else .error .malformed

/-- The members of an object up to its closing brace, and what follows that. -/
def readMembers : Nat → Text → Except ReadError (List (Text × Json) × Text)
  | 0, _ => .error .malformed
  | _ + 1, [] => .error .malformed
  | fuel + 1, c :: s =>
    if c = '"' then do
      let (name, rest) ← readString s
      match skipBlanks rest with
      | [] => .error .malformed
      | colon :: rest =>
        if colon = ':' then
          let (item, rest) ← readValue fuel (skipBlanks rest)
          match skipBlanks rest with
          | [] => .error .malformed
          | d :: after =>
            if d = '\x7d' then .ok ([(name, item)], after)
            else if d = ',' then
              let (members, after) ← readMembers fuel (skipBlanks after)
              .ok ((name, item) :: members, after)
            else .error .malformed
        else .error .malformed
    else .error .malformed

end

/-- The value a text holds, with blanks around it. Every call takes a code point or is the one
inside a list of items, so twice the length is enough fuel. -/
def parse (text : Text) : Except ReadError Json :=
  match readValue (2 * text.length + 2) (skipBlanks text) with
  | .error e => .error e
  | .ok (value, rest) => if skipBlanks rest = [] then .ok value else .error .malformed

end ContractKit.Json
