import ContractKit.Text.CodePoint

/-!
# Kinds of numbers and paths

The integer types with their ranges, the fixed-point types with theirs, and the path types with the
domains they allow. A kind is found again under its own name (`IntegerKind.ofName?`).
-/

namespace ContractKit

/-! ## Integers -/

/-- An integer type. -/
inductive IntegerKind where
  | int | int8 | int16 | int32 | int64 | int128 | int256
  | uint | uint8 | uint16 | uint32 | uint64 | uint128 | uint256
  | word8 | word16 | word32 | word64
deriving DecidableEq

namespace IntegerKind

/-- Every integer type. -/
def all : List IntegerKind :=
  [int, int8, int16, int32, int64, int128, int256, uint, uint8, uint16, uint32, uint64, uint128,
   uint256, word8, word16, word32, word64]

/-- The name of the type. -/
def name : IntegerKind → Text
  | int => "Int" | int8 => "Int8" | int16 => "Int16" | int32 => "Int32" | int64 => "Int64"
  | int128 => "Int128" | int256 => "Int256"
  | uint => "UInt" | uint8 => "UInt8" | uint16 => "UInt16" | uint32 => "UInt32"
  | uint64 => "UInt64" | uint128 => "UInt128" | uint256 => "UInt256"
  | word8 => "Word8" | word16 => "Word16" | word32 => "Word32" | word64 => "Word64"

/-- The type of the given name. -/
def ofName? (text : Text) : Option IntegerKind :=
  all.find? (·.name = text)

/-- The width in bits; two types have none. -/
def bits? : IntegerKind → Option Nat
  | int | uint => none
  | int8 | uint8 | word8 => some 8
  | int16 | uint16 | word16 => some 16
  | int32 | uint32 | word32 => some 32
  | int64 | uint64 | word64 => some 64
  | int128 | uint128 => some 128
  | int256 | uint256 => some 256

/-- Whether the type holds negative numbers. -/
def isSigned : IntegerKind → Bool
  | int | int8 | int16 | int32 | int64 | int128 | int256 => true
  | _ => false

/-- The least number of the type. -/
def lowest? (kind : IntegerKind) : Option Int :=
  if kind.isSigned then kind.bits?.map fun bits => -(Nat.pow 2 (bits - 1) : Int) else some 0

/-- The greatest number of the type. -/
def highest? (kind : IntegerKind) : Option Int :=
  kind.bits?.map fun bits => (Nat.pow 2 (if kind.isSigned then bits - 1 else bits) : Int) - 1

/-- Whether `n` is a number of the type. -/
def InRange (kind : IntegerKind) (n : Int) : Prop :=
  (∀ low ∈ kind.lowest?, low ≤ n) ∧ ∀ high ∈ kind.highest?, n ≤ high

instance (kind : IntegerKind) (n : Int) : Decidable (kind.InRange n) := by
  unfold InRange
  infer_instance

end IntegerKind

/-! ## Fixed points -/

/-- A fixed-point type, with eight decimal places. -/
inductive FixedKind where
  | fix64
  | ufix64
deriving DecidableEq

namespace FixedKind

/-- Every fixed-point type. -/
def all : List FixedKind := [fix64, ufix64]

/-- The name of the type. -/
def name : FixedKind → Text
  | fix64 => "Fix64"
  | ufix64 => "UFix64"

/-- The type of the given name. -/
def ofName? (text : Text) : Option FixedKind :=
  all.find? (·.name = text)

/-- The least number of the type, in units of `10 ^ -8`. -/
def lowest : FixedKind → Int
  | fix64 => -0x8000000000000000
  | ufix64 => 0

/-- The greatest number of the type, in units of `10 ^ -8`. -/
def highest : FixedKind → Int
  | fix64 => 0x7fffffffffffffff
  | ufix64 => 0xffffffffffffffff

/-- Whether `raw` units of `10 ^ -8` are a number of the type. -/
def InRange (kind : FixedKind) (raw : Int) : Prop :=
  kind.lowest ≤ raw ∧ raw ≤ kind.highest

instance (kind : FixedKind) (raw : Int) : Decidable (kind.InRange raw) := by
  unfold InRange
  infer_instance

end FixedKind

/-! ## Paths -/

/-- The domains a path may have. -/
def pathDomains : List Text := ["storage", "private", "public"]

/-- A path type. -/
inductive PathKind where
  | path
  | storagePath
  | capabilityPath
  | publicPath
  | privatePath
deriving DecidableEq

namespace PathKind

/-- Every path type. -/
def all : List PathKind := [path, storagePath, capabilityPath, publicPath, privatePath]

/-- The name of the type. -/
def name : PathKind → Text
  | path => "Path"
  | storagePath => "StoragePath"
  | capabilityPath => "CapabilityPath"
  | publicPath => "PublicPath"
  | privatePath => "PrivatePath"

/-- The type of the given name. -/
def ofName? (text : Text) : Option PathKind :=
  all.find? (·.name = text)

/-- The domains of the type's literals. -/
def domains : PathKind → List Text
  | path => pathDomains
  | storagePath => ["storage"]
  | capabilityPath => ["private", "public"]
  | publicPath => ["public"]
  | privatePath => ["private"]

end PathKind

end ContractKit
