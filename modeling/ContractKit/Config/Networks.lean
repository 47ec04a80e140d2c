import ContractKit.Config.Format
import ContractKit.Config.Record

/-!
# The networks and emulators sections

A network is declared by its host alone or by an object with a host and a key. An emulator has a
port and a service account.
-/

namespace ContractKit

/-- Networks in order. -/
abbrev Networks := List Network

namespace Networks

/-- The network declared under a name. -/
def read (name : Text) (raw : Json) : Except FormatError Network :=
  let hostPlace : Text := .concat ["Network ", name.quote, " host"]
  match raw with
  | .str _ => do .ok ⟨name, ← Format.text hostPlace raw, []⟩
  | other => do
    let members ← Format.members (.concat ["Network ", name.quote]) other
    match Format.fieldOr "key" (.str []) members with
    | .str key => do .ok ⟨name, ← Format.text hostPlace (Format.field "host" members), key⟩
    | _ => .error (.networkKey name)

/-- The networks of a section. -/
def decode (raw : Json) : Except FormatError Networks := do
  (← Format.members "networks" raw).mapM fun (name, item) => read name item

/-- The JSON value that declares a network. -/
def declaration (network : Network) : Json :=
  if network.key = [] then .str network.host
  else .obj [("host", .str network.host), ("key", .str network.key)]

/-- The section that declares the networks. -/
def encode (networks : Networks) : Json :=
  .object (networks.map fun network => (network.name, declaration network))

end Networks

/-- Emulators in order. -/
abbrev Emulators := List Emulator

namespace Emulators

/-- The emulator declared under a name. -/
def read (name : Text) (raw : Json) : Except FormatError Emulator := do
  let members ← Format.members (.concat ["Emulator ", name.quote]) raw
  match Format.field "port" members with
  | .int port =>
    if 0 < port ∧ port < 65536 then
      let account ← Format.text (.concat ["Emulator ", name.quote, " serviceAccount"])
        (Format.field "serviceAccount" members)
      .ok ⟨name, port, account⟩
    else .error (.emulatorPort name)
  | _ => .error (.emulatorPort name)

/-- The emulators of a section. -/
def decode (raw : Json) : Except FormatError Emulators := do
  (← Format.members "emulators" raw).mapM fun (name, item) => read name item

/-- The section that declares the emulators. -/
def encode (emulators : Emulators) : Json :=
  .object (emulators.map fun emulator =>
    (emulator.name, .obj [("port", .int emulator.port),
      ("serviceAccount", .str emulator.serviceAccount)]))

end Emulators

end ContractKit
