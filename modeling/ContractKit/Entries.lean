import ContractKit.Text.CodePoint

/-!
# Named entries

Entries under distinct names, in the order in which the names came up first. Inserting under a
name that is there replaces the entry where it stands.
-/

namespace ContractKit

/-- Named entries in order. -/
abbrev Entries (α : Type) := List (Text × α)

namespace Entries

variable {α : Type}

/-- The entry under `name`. -/
def get? (name : Text) : Entries α → Option α
  | [] => none
  | (key, item) :: rest => if key = name then some item else get? name rest

/-- Puts `item` under `name`: in place when the name is there, at the end when it is new. -/
def insert (name : Text) (item : α) : Entries α → Entries α
  | [] => [(name, item)]
  | (key, old) :: rest =>
    if key = name then (key, item) :: rest else (key, old) :: insert name item rest

/-- The entries given by pairs; of pairs with one name the last gives the entry and the first
its place. -/
def ofList (pairs : List (Text × α)) : Entries α :=
  pairs.foldl (fun entries pair => insert pair.1 pair.2 entries) []

/-- The names in order. -/
def names (entries : Entries α) : List Text :=
  entries.map (·.1)

end Entries

end ContractKit
