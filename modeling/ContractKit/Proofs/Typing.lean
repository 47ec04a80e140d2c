import ContractKit.Proofs.Value
import ContractKit.Ty.Basic

/-!
# The values of a type

`Value.HasType` says which values are of a type, at every depth: numbers lie in the range of the type
they are named for, arrays have their declared length, and no optional value holds a missing one. Types
without literals have no values here (`Value.HasType.not_nominal`, `Value.HasType.not_unwritten`), and a
value of some type is well-formed (`Value.HasType.wellFormed`).
-/

namespace ContractKit

/-- A letter or `_`, then letters, digits and `_`, all of them ASCII. -/
def Text.IsIdentifier (t : Text) : Prop :=
  ∃ c rest, t = c :: rest ∧ c.startsIdentifier = true ∧ ∀ d ∈ rest, d.continuesIdentifier = true

namespace Value

/-- The value is of the type. -/
inductive HasType : Value → Ty → Prop
  /-- No value. -/
  | absent (inner : Ty) : HasType (.optional none) (.optional inner)
  /-- A value, which is not itself a missing one. -/
  | present {inner : Ty} {w : Value} : w ≠ .optional none → HasType w inner →
      HasType (.optional (some w)) (.optional inner)
  /-- `0x` and sixteen hexadecimal digits in lower case. -/
  | address {digits : Text} : Address.IsCanonical digits →
      HasType (.address (.concat ["0x", digits])) .address
  /-- A string. -/
  | string (text : Text) : HasType (.string text) (.simple .string)
  /-- A single code point. -/
  | character (c : CodePoint) : HasType (.character [c]) (.simple .character)
  /-- A truth value. -/
  | bool (value : Bool) : HasType (.bool value) (.simple .bool)
  /-- A number in the range of the type. -/
  | integer {kind : IntegerKind} {number : Int} : kind.InRange number →
      HasType (.integer kind number) (.simple (.integer kind))
  /-- A fixed point in the range of the type. -/
  | fixed {kind : FixedKind} {raw : Int} : kind.InRange raw →
      HasType (.fixed kind raw) (.simple (.fixed kind))
  /-- An identifier in one of the domains of the type. -/
  | path {kind : PathKind} {domain identifier : Text} : domain ∈ kind.domains →
      identifier.IsIdentifier → HasType (.path domain identifier) (.simple (.path kind))
  /-- Elements of the type. -/
  | array {element : Ty} {items : List Value} : (∀ w ∈ items, HasType w element) →
      HasType (.array items) (.array element)
  /-- As many elements of the type as are declared. -/
  | constant {element : Ty} {items : List Value} : (∀ w ∈ items, HasType w element) →
      HasType (.array items) (.constant element items.length)
  /-- Keys and values of their types. -/
  | dictionary {key value : Ty} {pairs : List (Value × Value)} : (∀ p ∈ pairs, HasType p.1 key) →
      (∀ p ∈ pairs, HasType p.2 value) → HasType (.dictionary pairs) (.dictionary key value)

namespace HasType

variable {v : Value} {type : Ty}

theorem not_nominal (v : Value) (name : Text) : ¬ v.HasType (.nominal name) :=
  nofun

theorem not_unwritten (v : Value) (kind : UnwrittenType) :
    ¬ v.HasType (.simple (.unwritten kind)) :=
  nofun

/-- A missing value is of optional types only. -/
theorem exists_optional {value : Option Value} (h : (Value.optional value).HasType type) :
    ∃ inner, type = .optional inner := by
  cases h with
  | absent inner => exact ⟨inner, rfl⟩
  | present => exact ⟨_, rfl⟩

theorem domains_subset (kind : PathKind) : ∀ domain ∈ kind.domains, domain ∈ pathDomains := by
  cases kind <;> decide

theorem isSound (h : v.HasType type) : v.IsSound := by
  cases h with
  | address hdigits => exact ⟨_, rfl, hdigits⟩
  | character c => exact List.length_singleton
  | integer hrange => exact hrange
  | fixed hrange => exact hrange
  | path hdomain hidentifier =>
    obtain ⟨c, rest, rfl, -⟩ := hidentifier
    exact ⟨domains_subset _ _ hdomain, List.cons_ne_nil c rest⟩
  | absent | present | string | bool | array | constant | dictionary => trivial

/-- The parts of a value have types of their own. -/
theorem exists_type_of_mem_parts (h : v.HasType type) :
    ∀ w ∈ v.parts, ∃ other, w.HasType other := by
  cases h with
  | present _ hw =>
    intro u hu
    rw [List.mem_singleton.mp hu]
    exact ⟨_, hw⟩
  | array hitems => exact fun w hw => ⟨_, hitems w hw⟩
  | constant hitems => exact fun w hw => ⟨_, hitems w hw⟩
  | dictionary hkeys hvalues =>
    intro w hw
    rcases List.mem_append.mp hw with hw | hw
    · obtain ⟨p, hp, rfl⟩ := List.mem_map.mp hw
      exact ⟨_, hkeys p hp⟩
    · obtain ⟨p, hp, rfl⟩ := List.mem_map.mp hw
      exact ⟨_, hvalues p hp⟩
  | absent | address | string | character | bool | integer | fixed | path =>
    exact fun w hw => absurd hw List.not_mem_nil

theorem wellFormed (h : v.HasType type) : v.WellFormed :=
  everywhere_of_step (Q := fun u => ∃ other, u.HasType other) (fun _ ⟨_, hu⟩ => hu.isSound)
    (fun _ ⟨_, hu⟩ => hu.exists_type_of_mem_parts) ⟨type, h⟩

end HasType

end Value

end ContractKit
