import ContractKit.Config.Format
import ContractKit.Config.Record

/-!
# The contracts section

A declared contract expands into one record per network (`ContractForm.expand`), and the records of
one name collapse into a declaration again (`ContractForm.collapse`). Records that no declaration
expands to are refused.
-/

namespace ContractKit

/-- A contract as the section declares it. -/
inductive ContractForm where
  /-- A location alone. -/
  | simple (location : Text)
  /-- A source, with the address that holds the contract on some networks. -/
  | aliased (source : Text) (aliases : Entries Text)
deriving DecidableEq

/-- Why contract records have no declaration. -/
inductive CollapseError where
  /-- The records of a name have different locations. -/
  | differentSources (name : Text) (locations : List Text)
  /-- A record without alias stands beside others. -/
  | unaliased (name network : Text)
  /-- The only record has no alias and is not on the default network. -/
  | needsAlias (name network default : Text)
  /-- Two records of a name are on one network. -/
  | repeatedNetwork (name : Text)
deriving DecidableEq

/-- The wording of an error. -/
def CollapseError.message : CollapseError → Text
  | .differentSources name locations =>
    .concat ["Contract ", name.quote, " has different sources across networks: ",
      .intercalate ", " locations]
  | .unaliased name network =>
    .concat ["Contract ", name.quote, " on network ", network.quote,
      " has no alias but other networks alias it; give it an alias or remove the aliased records"]
  | .needsAlias name network default =>
    .concat ["Contract ", name.quote, " on network ", network.quote,
      " needs an alias; only the default network ", default.quote,
      " may declare a contract without one"]
  | .repeatedNetwork name =>
    .concat ["Contract ", name.quote, " is declared more than once on the same network"]

namespace ContractForm

/-- The aliases of a contract, each checked to be a text. -/
def readAliases (name : Text) : List (Text × Json) → Except FormatError (Entries Text)
  | [] => .ok []
  | (network, raw) :: rest => do
    let address ← Format.text
      (.concat ["Contract ", name.quote, " alias for network ", network.quote]) raw
    .ok ((network, address) :: (← readAliases name rest))

/-- The declaration of a contract. -/
def read (name : Text) (raw : Json) : Except FormatError ContractForm :=
  match raw with
  | .str _ => do
    .ok (.simple (← Format.text (.concat ["Contract ", name.quote, " location"]) raw))
  | .obj members =>
    match Entries.get? "source" members with
    | none => .error (.contractForm name)
    | some source => do
      let source ← Format.text (.concat ["Contract ", name.quote, " source"]) source
      let aliases ← Format.members (.concat ["Contract ", name.quote, " aliases"])
        (Format.fieldOr "aliases" (.obj []) members)
      .ok (.aliased source (← readAliases name aliases))
  | _ => .error (.contractForm name)

/-- The JSON value of a declaration. -/
def json : ContractForm → Json
  | simple location => .str location
  | aliased source aliases =>
    .obj [("source", .str source),
      ("aliases", .obj (aliases.map fun (network, address) => (network, .str address)))]

/-- The records of a declared contract: one for each alias, or one on the default network. -/
def expand (name default : Text) : ContractForm → List Contract
  | simple location => [⟨name, location, default, []⟩]
  | aliased source [] => [⟨name, source, default, []⟩]
  | aliased source aliases =>
    aliases.map fun (network, address) => ⟨name, source, network, address⟩

/-- The declaration of records without alias, of which `first` is the first. -/
def collapseUnaliased (name default : Text) (records : List Contract) (first : Contract) :
    Except CollapseError ContractForm :=
  if 1 < records.length then .error (.unaliased name first.network)
  else if first.network = default then .ok (.simple first.location)
  else .error (.needsAlias name first.network default)

/-- The declaration that expands to the records of one name. -/
def collapse (name default : Text) (records : List Contract) :
    Except CollapseError ContractForm :=
  let locations := (records.map (·.location)).eraseDups
  if 1 < locations.length then .error (.differentSources name (Text.sort locations))
  else
    match records.find? (·.aliasAddress = []) with
    | some first => collapseUnaliased name default records first
    | none =>
      let networks := records.map (·.network)
      if networks.eraseDups.length = networks.length then
        .ok (.aliased ((records.head?.map (·.location)).getD [])
          (Entries.ofList (records.map fun record => (record.network, record.aliasAddress))))
      else .error (.repeatedNetwork name)

end ContractForm

/-- Contract records in order. -/
abbrev Contracts := List Contract

namespace Contracts

/-- The names of contracts in the order of their first records. -/
def names (contracts : Contracts) : List Text :=
  (contracts.map (·.name)).eraseDups

/-- The records of one name. -/
def named (contracts : Contracts) (name : Text) : List Contract :=
  contracts.filter (·.name = name)

/-- The records of declared contracts. -/
def decodeMembers (default : Text) : List (Text × Json) → Except FormatError Contracts
  | [] => .ok []
  | (name, raw) :: rest => do
    let form ← ContractForm.read name raw
    .ok (form.expand name default ++ (← decodeMembers default rest))

/-- The records of a contracts section. -/
def decode (raw : Json) (default : Text) : Except FormatError Contracts := do
  decodeMembers default (← Format.members "contracts" raw)

/-- The declarations of the contracts of the given names. -/
def collapseNames (contracts : Contracts) (default : Text) :
    List Text → Except CollapseError (List (Text × Json))
  | [] => .ok []
  | name :: rest => do
    let form ← ContractForm.collapse name default (contracts.named name)
    .ok ((name, form.json) :: (← collapseNames contracts default rest))

/-- The section that declares the contracts. -/
def encode (contracts : Contracts) (default : Text) : Except CollapseError Json := do
  .ok (.obj (← collapseNames contracts default contracts.names))

end Contracts

end ContractKit
