import ContractKit.Config.Accounts
import ContractKit.Config.Contracts
import ContractKit.Config.Deployments
import ContractKit.Config.Networks
import ContractKit.Log

/-!
# The configuration document

A configuration is an object with five sections. `Document.decode` reads all of them and
`Document.encode` writes those that are not empty. Members that are no section are ignored, which is
noted.
-/

namespace ContractKit

/-- A whole configuration. -/
structure Document where
  /-- The emulators. -/
  emulators : Emulators
  /-- The contracts. -/
  contracts : Contracts
  /-- The networks. -/
  networks : Networks
  /-- The accounts. -/
  accounts : Accounts
  /-- The deployments. -/
  deployments : Deployments

/-- Why a configuration has no document. -/
inductive EncodeError where
  /-- Contract records have no declaration. -/
  | collapse (e : CollapseError)
  /-- An argument has no wire form. -/
  | wire (e : WireError)
deriving DecidableEq

/-- The wording of an error. -/
def EncodeError.message : EncodeError → Text
  | .collapse e => e.message
  | .wire e => e.message

namespace Document

/-- The configuration without records. -/
def empty : Document := ⟨[], [], [], [], []⟩

/-- The names of the sections. -/
def sections : List Text :=
  ["emulators", "contracts", "networks", "accounts", "deployments"]

/-- The members of a document that are no section, in order of their names. -/
def unknownNames (members : List (Text × Json)) : List Text :=
  Text.sort ((Entries.names members).filter (· ∉ sections))

/-- The notes that decoding a document leaves. -/
def notes : Json → List LogRecord
  | .obj members =>
    match unknownNames members with
    | [] => []
    | names =>
      [⟨.debug, .configuration,
        .concat ["Ignoring unknown configuration keys: ", .intercalate ", " names]⟩]
  | _ => []

/-- The configuration of a document. -/
def decode (raw : Json) (settings : Settings) : Except FormatError Document := do
  let members ← Format.members "Configuration" raw
  let contracts ← Contracts.decode (Format.fieldOr "contracts" (.obj []) members)
    settings.defaultNetwork
  let accounts ← Accounts.decode (Format.fieldOr "accounts" (.obj []) members) settings
  let networks ← Networks.decode (Format.fieldOr "networks" (.obj []) members)
  let emulators ← Emulators.decode (Format.fieldOr "emulators" (.obj []) members)
  let deployments ← Deployments.decode (Format.fieldOr "deployments" (.arr []) members)
  .ok ⟨emulators, contracts, networks, accounts, deployments⟩

/-- Whether a section holds nothing. -/
def isEmptySection : Json → Bool
  | .arr [] | .obj [] => true
  | _ => false

/-- The document of a configuration. -/
def encode (document : Document) (settings : Settings) : Except EncodeError Json := do
  let contracts ← (document.contracts.encode settings.defaultNetwork).mapError .collapse
  let deployments ← document.deployments.encode.mapError .wire
  let all : List (Text × Json) :=
    [("emulators", document.emulators.encode), ("contracts", contracts),
     ("networks", document.networks.encode), ("accounts", document.accounts.encode),
     ("deployments", deployments)]
  .ok (.obj (all.filter fun member => !isEmptySection member.2))

end Document

end ContractKit
