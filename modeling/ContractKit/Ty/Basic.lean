import ContractKit.Number.Numeral
import ContractKit.Value.Kind

/-!
# Types

The types that declarations give to parameters. Optional, array and dictionary types are built from
other types; references, generic and restricted types and type names that are not built in are kept
by name. `Ty.text` is the text of a type, which cannot be shown if an array length in it is too long
(`Ty.isWritable`).
-/

namespace ContractKit

/-- A built-in type whose values cannot be written as literals. -/
inductive UnwrittenType where
  | void | never | anyStruct | anyResource
  | number | signedNumber | integer | signedInteger | fixedPoint | signedFixedPoint
  | block | metaType | type
deriving DecidableEq

namespace UnwrittenType

/-- Every type of this kind. -/
def all : List UnwrittenType :=
  [void, never, anyStruct, anyResource, number, signedNumber, integer, signedInteger, fixedPoint,
   signedFixedPoint, block, metaType, type]

/-- The name of the type. -/
def name : UnwrittenType → Text
  | void => "Void"
  | never => "Never"
  | anyStruct => "AnyStruct"
  | anyResource => "AnyResource"
  | number => "Number"
  | signedNumber => "SignedNumber"
  | integer => "Integer"
  | signedInteger => "SignedInteger"
  | fixedPoint => "FixedPoint"
  | signedFixedPoint => "SignedFixedPoint"
  | block => "Block"
  | metaType => "MetaType"
  | type => "Type"

end UnwrittenType

/-- A built-in type that is a single name. -/
inductive SimpleType where
  | string
  | character
  | bool
  | integer (kind : IntegerKind)
  | fixed (kind : FixedKind)
  | path (kind : PathKind)
  | unwritten (kind : UnwrittenType)
deriving DecidableEq

namespace SimpleType

/-- Every simple type. -/
def all : List SimpleType :=
  [string, character, bool] ++ IntegerKind.all.map integer ++ FixedKind.all.map fixed ++
    PathKind.all.map path ++ UnwrittenType.all.map unwritten

/-- The name of the type. -/
def name : SimpleType → Text
  | string => "String"
  | character => "Character"
  | bool => "Bool"
  | integer kind => kind.name
  | fixed kind => kind.name
  | path kind => kind.name
  | unwritten kind => kind.name

/-- The type of the given name. -/
def ofName? (text : Text) : Option SimpleType :=
  all.find? (·.name = text)

end SimpleType

/-- A type. -/
inductive Ty where
  /-- The values of another type, or no value. -/
  | optional (inner : Ty)
  /-- Addresses. -/
  | address
  /-- A built-in type. -/
  | simple (type : SimpleType)
  /-- Arrays of any length. -/
  | array (element : Ty)
  /-- Arrays of one length. -/
  | constant (element : Ty) (size : Nat)
  /-- Dictionaries. -/
  | dictionary (key value : Ty)
  /-- A type known by its text alone. -/
  | nominal (name : Text)
deriving DecidableEq

namespace Ty

/-- The text of a type. -/
def text : Ty → Text
  | optional inner => .concat [inner.text, "?"]
  | address => "Address"
  | simple type => type.name
  | array element => .concat ["[", element.text, "]"]
  | constant element size => .concat ["[", element.text, "; ", Numeral.ofNat 10 size, "]"]
  | dictionary key value => .concat ["\x7b", key.text, ": ", value.text, "\x7d"]
  | nominal name => name

/-- Whether every array length in the type is short enough to be written. -/
def isWritable : Ty → Bool
  | optional inner => inner.isWritable
  | array element => element.isWritable
  | constant element size => element.isWritable && (Numeral.print size).isOk
  | dictionary key value => key.isWritable && value.isWritable
  | address | simple _ | nominal _ => true

/-- The type of a name: the built-in one of that name, or one known by the name alone. -/
def ofName (name : Text) : Ty :=
  if name = "Address" then address
  else
    match SimpleType.ofName? name with
    | some type => simple type
    | none => nominal name

/-- The type under all optional ones around it. -/
def leaf : Ty → Ty
  | optional inner => inner.leaf
  | other => other

/-- Whether the values of the type are written as strings. -/
def isTextual : Ty → Bool
  | simple .string | simple .character => true
  | _ => false

end Ty

end ContractKit
