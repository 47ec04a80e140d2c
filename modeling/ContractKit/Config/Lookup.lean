import ContractKit.Config.Document

/-!
# Looking up records

Records are found by name, contracts also by name and network. Adding a record replaces the one of
the same name, or of the same name and network, where it stands.
-/

namespace ContractKit

/-- What was looked up and is not there. -/
inductive LookupError where
  | contract (name : Text)
  | contractOnNetwork (name network : Text)
  | account (name : Text)
  | network (name : Text)
  | emulator (name : Text)
  /-- There is no emulator at all. -/
  | noEmulator
deriving DecidableEq

/-- The wording of an error. -/
def LookupError.message : LookupError → Text
  | .contract name => .concat ["Contract ", name.quote, " not found in configuration"]
  | .contractOnNetwork name place =>
    .concat ["Contract ", name.quote, " not found for network ", place.quote]
  | .account name => .concat ["Account ", name.quote, " not found in configuration"]
  | .network name => .concat ["Network ", name.quote, " not found in configuration"]
  | .emulator name => .concat ["Emulator ", name.quote, " not found in configuration"]
  | .noEmulator => "No emulator configured"

namespace Lookup

variable {α : Type}

/-- The first record that satisfies `p`, or the error. -/
def first (p : α → Bool) (e : LookupError) (records : List α) : Except LookupError α :=
  match records.find? p with
  | some record => .ok record
  | none => .error e

/-- Puts a record in the place of the first one with the same key, or at the end. -/
def put {κ : Type} [DecidableEq κ] (key : α → κ) (record : α) : List α → List α
  | [] => [record]
  | old :: rest => if key old = key record then record :: rest else old :: put key record rest

end Lookup

namespace Contracts

/-- The first record of a name. -/
def byName (contracts : Contracts) (name : Text) : Except LookupError Contract :=
  Lookup.first (fun contract => contract.name = name) (.contract name) contracts

/-- The first record of a name on a network. -/
def byNameAndNetwork (contracts : Contracts) (name network : Text) :
    Except LookupError Contract :=
  Lookup.first (fun contract => contract.name = name ∧ contract.network = network)
    (.contractOnNetwork name network) contracts

/-- The records on a network. -/
def byNetwork (contracts : Contracts) (network : Text) : Contracts :=
  contracts.filter (·.network = network)

/-- What tells records apart: the name and the network. -/
def key (contract : Contract) : Text × Text :=
  (contract.name, contract.network)

/-- The record to use on a network: the one declared there, or else the source of the contract
without alias. -/
def forNetwork (contracts : Contracts) (name network : Text) : Except LookupError Contract :=
  match contracts.byNameAndNetwork name network with
  | .ok contract => .ok contract
  | .error _ => do
    let source ← contracts.byName name
    .ok ⟨name, source.location, network, []⟩

/-- The addresses that hold contracts on a network already, by the names of the contracts. -/
def aliases (contracts : Contracts) (network : Text) : Entries Text :=
  Entries.ofList <|
    ((contracts.byNetwork network).filter (·.aliasAddress ≠ [])).map fun contract =>
      (contract.name, contract.aliasAddress)

end Contracts

namespace Accounts

/-- The first account of a name. -/
def byName (accounts : Accounts) (name : Text) : Except LookupError Account :=
  Lookup.first (fun account => account.name = name) (.account name) accounts

end Accounts

namespace Networks

/-- The first network of a name. -/
def byName (networks : Networks) (name : Text) : Except LookupError Network :=
  Lookup.first (fun network => network.name = name) (.network name) networks

end Networks

namespace Emulators

/-- The first emulator of a name. -/
def byName (emulators : Emulators) (name : Text) : Except LookupError Emulator :=
  Lookup.first (fun emulator => emulator.name = name) (.emulator name) emulators

/-- The emulator of the standard name, or else the first one. -/
def default (emulators : Emulators) : Except LookupError Emulator :=
  match emulators.find? (·.name = Settings.standard.emulatorName), emulators with
  | some emulator, _ => .ok emulator
  | none, emulator :: _ => .ok emulator
  | none, [] => .error .noEmulator

end Emulators

namespace Deployments

/-- The deployments to an account on a network. -/
def byAccountAndNetwork (deployments : Deployments) (account network : Text) : Deployments :=
  deployments.filter fun deployment =>
    deployment.account = account ∧ deployment.network = network

/-- The deployments on a network. -/
def byNetwork (deployments : Deployments) (network : Text) : Deployments :=
  deployments.filter (·.network = network)

end Deployments

end ContractKit
