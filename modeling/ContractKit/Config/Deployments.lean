import ContractKit.Config.Format
import ContractKit.Config.Record

/-!
# The deployments section

Deployments are a list of objects, or objects nested by network and account. They are written as a
list. A contract is named alone or with the arguments of its initializer.
-/

namespace ContractKit

/-- Deployments in order. -/
abbrev Deployments := List Deployment

namespace Deployments

/-- A contract to deploy. -/
def readItem (place : Text) (raw : Json) : Except FormatError DeploymentItem :=
  let namePlace : Text := .concat [place, " contract name"]
  match raw with
  | .str _ => do .ok ⟨← Format.text namePlace raw, []⟩
  | other => do
    let members ← Format.members (.concat [place, " contract"]) other
    let name ← Format.text namePlace (Format.field "name" members)
    match Format.fieldOr "args" (.arr []) members with
    | .arr args =>
      match Value.decodeItems args with
      | .ok values => .ok ⟨name, values⟩
      | .error e => .error (.invalidArgs place name e)
    | _ => .error (.argsNotList place name)

/-- Contracts to deploy. -/
def readItems (place : Text) (raw : Json) : Except FormatError (List DeploymentItem) :=
  match raw with
  | .arr items => items.mapM (readItem place)
  | _ => .error (.contractsNotList place)

/-- A deployment of the list form, at the given position. -/
def readAt (position : Nat) (raw : Json) : Except FormatError Deployment := do
  let place : Text := .concat ["Deployment ", Numeral.ofNat 10 position]
  let members ← Format.members place raw
  let network ← Format.text (.concat [place, " network"]) (Format.field "network" members)
  let account ← Format.text (.concat [place, " account"]) (Format.field "account" members)
  .ok ⟨network, account, ← readItems place (Format.fieldOr "contracts" (.arr []) members)⟩

/-- The deployments of a list, the first of which stands at the given position. -/
def decodeList (position : Nat) : List Json → Except FormatError Deployments
  | [] => .ok []
  | item :: rest => do
    let deployment ← readAt position item
    .ok (deployment :: (← decodeList (position + 1) rest))

/-- The deployments to the accounts of one network. -/
def decodeAccounts (network : Text) (raw : Json) : Except FormatError Deployments := do
  let accounts ← Format.members (.concat ["Deployments for network ", network.quote]) raw
  accounts.mapM fun (account, contracts) => do
    let place : Text := .concat ["Deployment ", Text.quote (.concat [network, "/", account])]
    .ok ⟨network, account, ← readItems place contracts⟩

/-- The deployments of a section. -/
def decode : Json → Except FormatError Deployments
  | .arr items => decodeList 0 items
  | raw => do
    let networks ← Format.members "deployments" raw
    .ok (← networks.mapM fun (network, accounts) => decodeAccounts network accounts).flatten

/-- The section that declares the deployments. -/
def encode (deployments : Deployments) : Except WireError Json := do
  .ok (.arr (← deployments.mapM Deployment.record))

end Deployments

end ContractKit
