import ContractKit.Number.Numeral

/-!
# Options on a command line

Splitting the words of a command line into options with their values and other words. A word that
starts with a dash is an option unless it is a negative number, holds a space or stands behind `--`.
The value of an option is the next word, if that is no option, or stands behind `=` in the same word.
A name may be cut short as long as it is the start of one name only. Words that fit nothing make the
command line invalid, and so does the option that asks for help, as no command is run then.
-/

namespace ContractKit

/-- An option that a command knows. -/
structure OptionRule where
  /-- Its name, with the dashes. -/
  name : Text
  /-- Its short name, a dash and a letter, if it has one. -/
  short : Option Text := none
  /-- Whether it takes a value. -/
  takesValue : Bool := true

namespace OptionRule

/-- Whether `name` is one of the names of the option. -/
def isCalled (rule : OptionRule) (name : Text) : Bool :=
  rule.name = name || rule.short = some name

/-- The option that asks for help. Every command knows it, and is not run where it is given. -/
def help : OptionRule := { name := "--help", short := some "-h", takesValue := false }

end OptionRule

/-- What a word of a command line is. -/
inductive Word where
  /-- A word that is no option. -/
  | plain (text : Text)
  /-- The word `--`, behind which all words are plain. -/
  | divider
  /-- A known option, with the value that stands in the word itself, if any. -/
  | known (rule : OptionRule) (value : Option Text)
  /-- An option that keeps the command from being run: it is not known, may be one of several, or asks
  for help. -/
  | unknown

namespace Word

/-- Decimal digits, or a point with decimal digits behind it and perhaps before it. -/
def isUnsignedNumber (text : Text) : Bool :=
  match text.dropWhile CodePoint.isDecimal with
  | [] => text ≠ []
  | point :: fraction => point = '.' && fraction ≠ [] && fraction.all CodePoint.isDecimal

/-- A minus sign and a number; a line end may follow. -/
def isNegativeNumber (text : Text) : Bool :=
  match Text.dropStart? "-" text with
  | none => false
  | some body =>
    isUnsignedNumber body ||
      (body.getLast? = some ('\n' : CodePoint) && isUnsignedNumber body.dropLast)

/-- The parts of a word before and after its first `=`. -/
def splitValue? (text : Text) : Option (Text × Text) :=
  match text.dropWhile (· ≠ ('=' : CodePoint)) with
  | [] => none
  | _ :: value => some (text.takeWhile (· ≠ ('=' : CodePoint)), value)

/-- What a word with a value in it is that may be any of these options. -/
def ofRules (value : Option Text) : List OptionRule → Option Word
  | [] => none
  | [rule] => some (if rule.name = OptionRule.help.name then .unknown else .known rule value)
  | _ => some .unknown

/-- The option that a word names. Its name may be cut short, and the value of a short option may follow it
at once. -/
def option? (rules : List OptionRule) (text : Text) : Option Word :=
  let rules := OptionRule.help :: rules
  let (name, value) := match splitValue? text with
    | some (name, value) => (name, some value)
    | none => (text, none)
  let whole := ofRules none (rules.filter (·.isCalled text))
  let assigned := ofRules value (rules.filter (·.isCalled name))
  let rest :=
    if List.isPrefixOf ("--" : Text) text then
      ofRules value (rules.filter fun rule => List.isPrefixOf name rule.name)
    else ofRules (some (text.drop 2)) (rules.filter fun rule => rule.short = some (text.take 2))
  whole <|> assigned <|> rest

/-- What a word is that does not stand behind `--`. -/
def classify (rules : List OptionRule) (text : Text) : Word :=
  if text.head? ≠ some ('-' : CodePoint) ∨ text.length = 1 then .plain text
  else if text = "--" then .divider
  else
    match option? rules text with
    | some found => found
    | none =>
      if isNegativeNumber text ∨ (' ' : CodePoint) ∈ text then .plain text else .unknown

/-- What the words of a command line are. -/
def classifyAll (rules : List OptionRule) : List Text → List Word
  | [] => []
  | text :: rest =>
    match classify rules text with
    | .divider => .divider :: rest.map .plain
    | word => word :: classifyAll rules rest

/-- Whether the word is an option. -/
def isOption : Word → Bool
  | .known _ _ | .unknown => true
  | .plain _ | .divider => false

/-- The text of a plain word. -/
def text? : Word → Option Text
  | .plain text => some text
  | _ => none

end Word

/-- Options with their values, a later one of a name after an earlier one, and the other words. -/
structure Options where
  /-- The options in order; one that takes no value has the empty text. -/
  values : List (Text × Text)
  /-- The other words; none when there is no place for them. -/
  rest : Option (List Text)

namespace Options

/-- The values of all options of a name, in order. -/
def all (options : Options) (name : Text) : List Text :=
  (options.values.filter (·.1 = name)).map (·.2)

/-- The value of the last option of a name. -/
def get? (options : Options) (name : Text) : Option Text :=
  (options.all name).getLast?

/-- Whether an option of the name is there. -/
def has (options : Options) (name : Text) : Bool :=
  (options.get? name).isSome

/-- The value of an option and the words after it, read behind the option. -/
def value? (rule : OptionRule) (given : Option Text) (rest : List Word) :
    Option (Text × List Word) :=
  match rule.takesValue, given, rest with
  | true, some value, rest => some (value, rest)
  | true, none, .plain value :: rest => some (value, rest)
  | false, none, rest => some ([], rest)
  | _, _, _ => none

/-- The options and the other words of a command line that has room for one run of other words when
`isOpen` says so. `fuel` bounds the number of steps. -/
def collect : Nat → Bool → List Word → Option Options
  | _, _, [] => some ⟨[], none⟩
  | 0, _, _ => none
  | _ + 1, _, .unknown :: _ => none
  | fuel + 1, isOpen, .known rule given :: rest => do
    let (value, rest) ← value? rule given rest
    let others ← collect fuel isOpen rest
    some { others with values := (rule.name, value) :: others.values }
  | fuel + 1, isOpen, word :: rest =>
    if isOpen then do
      let run := (word :: rest).takeWhile (!·.isOption)
      let others ← collect fuel false ((word :: rest).dropWhile (!·.isOption))
      some { others with rest := some (run.filterMap Word.text?) }
    else none

/-- The options and the other words of a command line. -/
def parse (rules : List OptionRule) (takesRest : Bool) (words : List Text) : Option Options :=
  let classified := Word.classifyAll rules words
  collect classified.length takesRest classified

/-- The options in front of the first word that is none, that word and the words after it. -/
def leading (rules : List OptionRule) : Nat → List Text → Option (Options × List Text)
  | 0, _ => none
  | _ + 1, [] => none
  | fuel + 1, word :: rest =>
    match Word.classify rules word with
    | .plain _ => some (⟨[], none⟩, word :: rest)
    | .known rule given => do
      let (value, after) ← value? rule given (rest.map (Word.classify rules))
      let (others, command) ← leading rules fuel (rest.drop (rest.length - after.length))
      some ({ others with values := (rule.name, value) :: others.values }, command)
    | .divider | .unknown => none

end Options

end ContractKit
