import ContractKit.Config.Format
import ContractKit.Config.Record
import ContractKit.Text.Lowercase

/-!
# The accounts section

An account has an address and a key. A key is given by its private key alone, with the settings in
force for the rest, or by an object that may name all parts. The private key stands in the object or
in a file.
-/

namespace ContractKit

/-- Accounts in order. -/
abbrev Accounts := List Account

namespace Accounts

/-- What the key of an account is called in messages, with the part `part` of it. -/
def place (name part : Text) : Text :=
  .concat ["Account ", name.quote, " ", part]

/-- The address of an account; `service` stands for the service address. -/
def readAddress (settings : Settings) (name : Text) (raw : Json) : Except FormatError Text := do
  let text ← Format.text (place name "address") raw
  if text = "service" then .ok settings.serviceAddress
  else
    match Address.normalize text with
    | .ok digits => .ok digits
    | .error _ => .error (.invalidAddress name text)

/-- A private key for the algorithm. -/
def readPrivateKey (name : Text) (raw : Json) (algorithm : Text) : Except FormatError Text := do
  let text ← Format.text (place name "private key") raw
  match PrivateKey.validate text algorithm with
  | .ok key => .ok key
  | .error e => .error (.invalidKey name e)

/-- The choice that a JSON value names, blanks and case aside. -/
def readAlgorithm (name sort : Text) (choices : List Text) (raw : Json) :
    Except FormatError Text :=
  match choices.find? fun choice => choice.lower = raw.display.trim.lower with
  | some choice => .ok choice
  | none => .error (.unsupportedAlgorithm name sort raw.display)

/-- The index of a key. -/
def readIndex (name : Text) : Json → Except FormatError Int
  | .int index => if 0 ≤ index then .ok index else .error (.keyIndex name)
  | _ => .error (.keyIndex name)

/-- Whether the key stands in a file, from the type a key names, blanks and case aside. -/
def readIsFile (name : Text) (raw : Json) : Except FormatError Bool :=
  let type := raw.display.trim.lower
  if type = "hex" then .ok false
  else if type = "file" then .ok true
  else .error (.keyType name)

/-- The key of an account. -/
def readKey (settings : Settings) (name : Text) (raw : Json) : Except FormatError AccountKey :=
  match raw with
  | .str _ => do
    let privateKey ← readPrivateKey name raw settings.sigAlgo
    .ok ⟨settings.keyIndex, settings.sigAlgo, settings.hashAlgo, .hex privateKey⟩
  | other => do
    let members ← Format.members (place name "key") other
    let isFile ← readIsFile name (Format.fieldOr "type" (.str "hex") members)
    let index ← readIndex name (Format.fieldOr "index" (.int settings.keyIndex) members)
    let sigAlgo ← readAlgorithm name "signature algorithm" settings.sigAlgos
      (Format.fieldOr "signatureAlgorithm" (.str settings.sigAlgo) members)
    let hashAlgo ← readAlgorithm name "hash algorithm" settings.hashAlgos
      (Format.fieldOr "hashAlgorithm" (.str settings.hashAlgo) members)
    if isFile then
      let location ← Format.text (place name "key location") (Format.field "location" members)
      .ok ⟨index, sigAlgo, hashAlgo, .file (some location)⟩
    else
      let privateKey ← readPrivateKey name (Format.field "privateKey" members) sigAlgo
      .ok ⟨index, sigAlgo, hashAlgo, .hex privateKey⟩

/-- The account declared under a name. -/
def read (settings : Settings) (name : Text) (raw : Json) : Except FormatError Account := do
  let members ← Format.members (.concat ["Account ", name.quote]) raw
  match Entries.get? "key" members with
  | none => .error (.missingKey name)
  | some key =>
    let address ← readAddress settings name (Format.field "address" members)
    .ok ⟨name, address, ← readKey settings name key⟩

/-- The accounts of a section. -/
def decode (raw : Json) (settings : Settings) : Except FormatError Accounts := do
  (← Format.members "accounts" raw).mapM fun (name, item) => read settings name item

/-- The JSON value of a key: the private key alone where it says all. -/
def keyDeclaration (key : AccountKey) : Json :=
  match key.bare? with
  | some privateKey => .str privateKey
  | none => key.record

/-- The section that declares the accounts. -/
def encode (accounts : Accounts) : Json :=
  .object (accounts.map fun account =>
    (account.name, .obj [("address", .str account.address),
      ("key", keyDeclaration account.key)]))

end Accounts

end ContractKit
