import ContractKit.Json.Reader
import ContractKit.Json.Printer
import ContractKit.Value.Basic
import ContractKit.Value.Scalar

/-!
# Wire form of values

Values travel as JSON objects with a `type` and a `value`. `Value.encode` writes the wire form and
`Value.decode` reads it, checking every part: numbers against their ranges, addresses and paths
against their form. `Value.encodeList` and `Value.decodeList` do the same for the text of a list of
arguments.
-/

namespace ContractKit

/-! ## Types with a wire form -/

/-- A type whose values have a wire form. -/
inductive WireType where
  | void | optional | bool | string | character | address
  | integer (kind : IntegerKind)
  | fixed (kind : FixedKind)
  | array | dictionary | path
deriving DecidableEq

namespace WireType

/-- The name that stands under `type`. -/
def name : WireType → Text
  | void => "Void"
  | optional => "Optional"
  | bool => "Bool"
  | string => "String"
  | character => "Character"
  | address => "Address"
  | integer kind => kind.name
  | fixed kind => kind.name
  | array => "Array"
  | dictionary => "Dictionary"
  | path => "Path"

/-- Every type with a wire form. -/
def all : List WireType :=
  [void, optional, bool, string, character, address] ++ IntegerKind.all.map integer ++
    FixedKind.all.map fixed ++ [array, dictionary, path]

/-- The type of the given name. -/
def ofName? (text : Text) : Option WireType :=
  all.find? (·.name = text)

end WireType

/-! ## Errors -/

/-- Why a value has no wire form, or why a JSON value is none. -/
inductive WireError where
  /-- The JSON value is no object. -/
  | notObject
  /-- The object names no type. -/
  | missingType
  /-- The object has no value although its type needs one. -/
  | missingValue (type : Text)
  /-- The value of this type has to be a string. -/
  | notText (type : Text)
  /-- A truth value has to be `true` or `false`. -/
  | notBool
  /-- A character has to be a single one. -/
  | notCharacter
  /-- An address or a fixed point is wrong. -/
  | scalar (e : ScalarError)
  /-- The text is no decimal integer. -/
  | notInteger (type text : Text)
  /-- The integer cannot be read or is out of range. -/
  | integer (type : Text) (e : ScalarError)
  /-- An array has to be a list. -/
  | notItems
  /-- A dictionary has to be a list. -/
  | notPairs
  /-- An entry of a dictionary lacks its key or its value. -/
  | badPair
  /-- A path has to be an object. -/
  | notPath
  /-- A path needs a domain and an identifier. -/
  | badPath
  /-- The type has no wire form. -/
  | unsupported (type : Text)
  /-- A number is too long to be written. -/
  | numeral (e : NumeralError)
deriving DecidableEq

/-- The wording of an error. -/
def WireError.message : WireError → Text
  | .notObject => "Encoded value must be a JSON object"
  | .missingType => "Encoded value is missing a type"
  | .missingValue type => .concat [type, " value is missing"]
  | .notText type => .concat [type, " value must be a string"]
  | .notBool => "Bool value must be true or false"
  | .notCharacter => "Character value must be a single character"
  | .scalar e => e.message
  | .notInteger type text =>
    .concat ["Invalid ", type, " value: ", text.quoted, " is not a decimal integer"]
  | .integer type e => .concat ["Invalid ", type, " value: ", e.message]
  | .notItems => "Array value must be a list"
  | .notPairs => "Dictionary value must be a list of key/value objects"
  | .badPair => "Dictionary entries must have key and value"
  | .notPath => "Path value must be an object"
  | .badPath => "Path value must have a valid domain and identifier"
  | .unsupported type => .concat ["Unsupported value type: ", type]
  | .numeral e => e.message

/-- Why a text is no list of arguments. -/
inductive ArgumentsError where
  /-- The text is no JSON. -/
  | notJson
  /-- The text holds a number that is too long. -/
  | numeral (e : NumeralError)
  /-- The text holds something else than a list. -/
  | notList
  /-- The item at the given position is no wire form. -/
  | item (position : Nat) (e : WireError)
deriving DecidableEq

/-- The wording of an error. What a JSON reader says about the place of an error is left out. -/
def ArgumentsError.message : ArgumentsError → Text
  | .notJson => "Arguments are not valid JSON"
  | .numeral e => e.message
  | .notList => "Arguments JSON must be a list"
  | .item position e => .concat ["argument ", Numeral.ofNat 10 position, ": ", e.message]

/-! ## Writing -/

namespace Value

/-- The object for a value of the given type. -/
def wireObject (type : WireType) (value : Json) : Json :=
  .obj [("type", .str type.name), ("value", value)]

mutual

/-- The wire form of a value. -/
def encode : Value → Except WireError Json
  | .void => .ok (.obj [("type", .str WireType.void.name)])
  | .optional none => .ok (wireObject .optional .null)
  | .optional (some inner) => do .ok (wireObject .optional (← encode inner))
  | .bool value => .ok (wireObject .bool (.bool value))
  | .string text => .ok (wireObject .string (.str text))
  | .character text => .ok (wireObject .character (.str text))
  | .address text => .ok (wireObject .address (.str text))
  | .integer kind number =>
    match Numeral.print number with
    | .ok text => .ok (wireObject (.integer kind) (.str text))
    | .error e => .error (.numeral e)
  | .fixed kind raw =>
    match FixedPoint.print raw with
    | .ok text => .ok (wireObject (.fixed kind) (.str text))
    | .error e => .error (.numeral e)
  | .array items => do .ok (wireObject .array (.arr (← encodeItems items)))
  | .dictionary pairs => do .ok (wireObject .dictionary (.arr (← encodePairs pairs)))
  | .path domain identifier =>
    .ok (wireObject .path (.obj [("domain", .str domain), ("identifier", .str identifier)]))
  | .foreign type _ => .error (.unsupported type)

/-- The wire forms of values in a row. -/
def encodeItems : List Value → Except WireError (List Json)
  | [] => .ok []
  | item :: rest => do
    let wire ← encode item
    .ok (wire :: (← encodeItems rest))

/-- The wire forms of pairs. -/
def encodePairs : List (Value × Value) → Except WireError (List Json)
  | [] => .ok []
  | (key, item) :: rest => do
    let left ← encode key
    let right ← encode item
    .ok (.obj [("key", left), ("value", right)] :: (← encodePairs rest))

end

/-! ## Reading -/

/-- An optional minus sign and ASCII digits. -/
def isIntegerText (text : Text) : Bool :=
  let digits := (Text.dropStart? "-" text).getD text
  digits ≠ [] && digits.all CodePoint.isAsciiDigit

/-- The integer of an integer text. -/
def readIntegerText (text : Text) : Except NumeralError Int :=
  match Text.dropStart? "-" text with
  | some digits => (Numeral.readDecimal digits).map fun n => -(n : Int)
  | none => (Numeral.readDecimal text).map fun n => (n : Int)

/-- A value of an integer type. -/
def decodeInteger (kind : IntegerKind) (text : Text) : Except WireError Value :=
  if isIntegerText text then
    match readIntegerText text with
    | .error e => .error (.integer kind.name (.numeral e))
    | .ok number =>
      match kind.check number with
      | .error e => .error (.integer kind.name e)
      | .ok number => .ok (.integer kind number)
  else .error (.notInteger kind.name text)

/-- A value whose wire value is a string. -/
def decodeText (type : WireType) (text : Text) : Except WireError Value :=
  match type with
  | .string => .ok (.string text)
  | .character => if text.length = 1 then .ok (.character text) else .error .notCharacter
  | .address =>
    match Address.normalize text with
    | .ok digits => .ok (.address (.concat ["0x", digits]))
    | .error e => .error (.scalar e)
  | .integer kind => decodeInteger kind text
  | .fixed kind =>
    match FixedPoint.read kind text with
    | .ok raw => .ok (.fixed kind raw)
    | .error e => .error (.scalar e)
  | other => .error (.unsupported other.name)

/-- A path. -/
def decodePath (domain identifier : Option Json) : Except WireError Value :=
  match domain, identifier with
  | some (.str domain), some (.str identifier) =>
    if domain ∈ pathDomains ∧ identifier ≠ [] then .ok (.path domain identifier)
    else .error .badPath
  | _, _ => .error .badPath

theorem sizeOf_get? {name : Text} {members : List (Text × Json)} {j : Json}
    (h : Entries.get? name members = some j) : sizeOf j < sizeOf members := by
  induction members with
  | nil => simp [Entries.get?] at h
  | cons entry rest ih =>
    obtain ⟨key, item⟩ := entry
    simp only [Entries.get?] at h
    split at h
    · simp only [Option.some.injEq] at h
      subst h
      simp only [List.cons.sizeOf_spec, Prod.mk.sizeOf_spec]
      omega
    · have := ih h
      simp only [List.cons.sizeOf_spec, Prod.mk.sizeOf_spec]
      omega

mutual

/-- The value of a wire form. -/
def decode (data : Json) : Except WireError Value :=
  match data with
  | .obj members =>
    match Entries.get? "type" members with
    | some (.str type) =>
      if type = [] then .error .missingType
      else if type = WireType.void.name then .ok .void
      else
        match _h : Entries.get? "value" members with
        | none => .error (.missingValue type)
        | some raw =>
          match WireType.ofName? type with
          | none => .error (.unsupported type)
          | some known => decodeAs known raw
    | _ => .error .missingType
  | _ => .error .notObject
termination_by (sizeOf data, 0)
decreasing_by
  have := sizeOf_get? _h
  left
  simp only [Json.obj.sizeOf_spec]
  omega

/-- The value of a known type that `raw` stands for. -/
def decodeAs (type : WireType) (raw : Json) : Except WireError Value :=
  match type with
  | .void => .ok .void
  | .optional =>
    match raw with
    | .null => .ok (.optional none)
    | inner => do .ok (.optional (some (← decode inner)))
  | .bool =>
    match raw with
    | .bool value => .ok (.bool value)
    | _ => .error .notBool
  | .array =>
    match raw with
    | .arr items => do .ok (.array (← decodeItems items))
    | _ => .error .notItems
  | .dictionary =>
    match raw with
    | .arr items => do .ok (.dictionary (← decodePairs items))
    | _ => .error .notPairs
  | .path =>
    match raw with
    | .obj members =>
      decodePath (Entries.get? "domain" members) (Entries.get? "identifier" members)
    | _ => .error .notPath
  | type =>
    match raw with
    | .str text => decodeText type text
    | _ => .error (.notText type.name)
termination_by (sizeOf raw, 1)

/-- The values of wire forms in a row. -/
def decodeItems (items : List Json) : Except WireError (List Value) :=
  match items with
  | [] => .ok []
  | item :: rest => do
    let value ← decode item
    .ok (value :: (← decodeItems rest))
termination_by (sizeOf items, 0)

/-- The pairs of a dictionary. -/
def decodePairs (items : List Json) : Except WireError (List (Value × Value)) :=
  match items with
  | [] => .ok []
  | .obj members :: rest =>
    match _hk : Entries.get? "key" members, _hv : Entries.get? "value" members with
    | some key, some item => do
      let left ← decode key
      let right ← decode item
      .ok ((left, right) :: (← decodePairs rest))
    | _, _ => .error .badPair
  | _ :: _ => .error .badPair
termination_by (sizeOf items, 0)
decreasing_by
  · have := sizeOf_get? _hk
    left
    simp only [List.cons.sizeOf_spec, Json.obj.sizeOf_spec]
    omega
  · have := sizeOf_get? _hv
    left
    simp only [List.cons.sizeOf_spec, Json.obj.sizeOf_spec]
    omega
  · left
    simp only [List.cons.sizeOf_spec]
    omega

end

/-! ## Lists of arguments -/

/-- The JSON text of a list of values. -/
def encodeList (values : List Value) : Except WireError Text :=
  (encodeItems values).map fun items => (Json.arr items).compact

/-- Decodes items of which the first stands at the given position. -/
def decodeFrom (position : Nat) : List Json → Except ArgumentsError (List Value)
  | [] => .ok []
  | item :: rest =>
    match decode item with
    | .error e => .error (.item position e)
    | .ok value => (decodeFrom (position + 1) rest).map (value :: ·)

/-- The values of a JSON text that holds a list of wire forms. -/
def decodeList (text : Text) : Except ArgumentsError (List Value) :=
  match Json.parse text with
  | .error .malformed => .error .notJson
  | .error (.numeral e) => .error (.numeral e)
  | .ok (.arr items) => decodeFrom 0 items
  | .ok _ => .error .notList

end Value

end ContractKit
