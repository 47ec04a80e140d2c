import ContractKit.Config.Settings
import ContractKit.Value.Wire

/-!
# Configuration records

What a project configuration is made of: networks, emulators, accounts with their keys, contracts and
deployments. Each record is shown as a JSON object by its `record` function.
-/

namespace ContractKit

/-! ## Networks and emulators -/

/-- A network. -/
structure Network where
  /-- The name of the network. -/
  name : Text
  /-- Where the network is reached. -/
  host : Text
  /-- The public key that secures the connection, empty for none. -/
  key : Text := []
deriving DecidableEq

/-- The JSON object of a network; an empty key is left out. -/
def Network.record (network : Network) : Json :=
  if network.key = [] then .obj [("name", .str network.name), ("host", .str network.host)]
  else
    .obj [("name", .str network.name), ("host", .str network.host), ("key", .str network.key)]

/-- An emulator. -/
structure Emulator where
  /-- The name of the emulator. -/
  name : Text
  /-- The port it listens on. -/
  port : Int
  /-- The name of its service account. -/
  serviceAccount : Text
deriving DecidableEq

/-- The JSON object of an emulator. -/
def Emulator.record (emulator : Emulator) : Json :=
  .obj [("name", .str emulator.name), ("port", .int emulator.port),
    ("serviceAccount", .str emulator.serviceAccount)]

/-! ## Accounts -/

/-- Where the private key of an account is. -/
inductive KeyMaterial where
  /-- In the configuration, as hexadecimal text. -/
  | hex (privateKey : Text)
  /-- In the file at the given location, if one is given. -/
  | file (location : Option Text)
deriving DecidableEq

/-- The name of a kind of key. -/
def KeyMaterial.typeName : KeyMaterial → Text
  | .hex _ => "hex"
  | .file _ => "file"

/-- The member that tells where the key is. -/
def KeyMaterial.member : KeyMaterial → Text × Json
  | .hex privateKey => ("privateKey", .str privateKey)
  | .file (some location) => ("location", .str location)
  | .file none => ("location", .null)

/-- The key of an account. -/
structure AccountKey where
  /-- The index of the key on the account. -/
  index : Int
  /-- The signature algorithm. -/
  sigAlgo : Text
  /-- The hash algorithm. -/
  hashAlgo : Text
  /-- Where the private key is. -/
  material : KeyMaterial
deriving DecidableEq

namespace AccountKey

/-- The members that describe a key besides the key itself. -/
def description (key : AccountKey) : List (Text × Json) :=
  [("type", .str key.material.typeName), ("index", .int key.index),
    ("signatureAlgorithm", .str key.sigAlgo), ("hashAlgorithm", .str key.hashAlgo)]

/-- The JSON object of a key. -/
def record (key : AccountKey) : Json :=
  .obj (key.description ++ [key.material.member])

/-- The private key of a key that has nothing but standard settings around it. -/
def bare? (key : AccountKey) : Option Text :=
  match key.material with
  | .hex privateKey =>
    if key.index = Settings.standard.keyIndex ∧ key.sigAlgo = Settings.standard.sigAlgo ∧
        key.hashAlgo = Settings.standard.hashAlgo then some privateKey
    else none
  | .file _ => none

end AccountKey

/-- An account. -/
structure Account where
  /-- The name of the account. -/
  name : Text
  /-- The digits of its address. -/
  address : Text
  /-- Its key. -/
  key : AccountKey
deriving DecidableEq

/-- The JSON object of an account. -/
def Account.record (account : Account) : Json :=
  .obj [("name", .str account.name), ("address", .str account.address),
    ("key", account.key.record)]

/-! ## Contracts and deployments -/

/-- A contract on one network. -/
structure Contract where
  /-- The name of the contract. -/
  name : Text
  /-- Where its source is. -/
  location : Text
  /-- The network. -/
  network : Text
  /-- The address that holds the contract on the network already, empty for none. -/
  aliasAddress : Text := []
deriving DecidableEq

/-- The JSON object of a contract. -/
def Contract.record (contract : Contract) : Json :=
  .obj [("name", .str contract.name), ("location", .str contract.location),
    ("network", .str contract.network), ("alias", .str contract.aliasAddress)]

/-- A contract to deploy, with the arguments of its initializer. -/
structure DeploymentItem where
  /-- The name of the contract. -/
  contract : Text
  /-- The arguments. -/
  args : List Value := []

/-- The JSON object of a contract to deploy. -/
def DeploymentItem.record (item : DeploymentItem) : Except WireError Json := do
  let args ← Value.encodeItems item.args
  .ok (.obj [("name", .str item.contract), ("args", .arr args)])

/-- Contracts to deploy to an account on a network. -/
structure Deployment where
  /-- The network. -/
  network : Text
  /-- The name of the account. -/
  account : Text
  /-- The contracts, in order. -/
  contracts : List DeploymentItem

/-- The JSON object of a deployment. -/
def Deployment.record (deployment : Deployment) : Except WireError Json := do
  let contracts ← deployment.contracts.mapM DeploymentItem.record
  .ok (.obj [("network", .str deployment.network), ("account", .str deployment.account),
    ("contracts", .arr contracts)])

end ContractKit
