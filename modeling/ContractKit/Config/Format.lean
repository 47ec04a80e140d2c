import ContractKit.Curve.PrivateKey
import ContractKit.Json.Display
import ContractKit.Value.Wire

/-!
# Reading configuration values

The errors of a configuration that does not have the right form, and the checks that every section
needs: that something is an object, or a text that is not empty.
-/

namespace ContractKit

/-- Why a JSON value is no configuration. -/
inductive FormatError where
  /-- This has to be an object. -/
  | notObject (what : Text)
  /-- This has to be a text that is not empty. -/
  | notText (what : Text)
  /-- A contract is neither a location nor an object with a source. -/
  | contractForm (name : Text)
  /-- The key of a network has to be a text. -/
  | networkKey (name : Text)
  /-- The port of an emulator has to be a port number. -/
  | emulatorPort (name : Text)
  /-- An account has no key. -/
  | missingKey (account : Text)
  /-- The address of an account is none. -/
  | invalidAddress (account text : Text)
  /-- The key type of an account is unknown. -/
  | keyType (account : Text)
  /-- The key index of an account has to be a natural number. -/
  | keyIndex (account : Text)
  /-- An account names an algorithm of the given sort that is not among the choices. -/
  | unsupportedAlgorithm (account sort shown : Text)
  /-- The private key of an account is none. -/
  | invalidKey (account : Text) (e : KeyError)
  /-- The contracts of a deployment have to be a list. -/
  | contractsNotList (place : Text)
  /-- The arguments of a contract to deploy have to be a list. -/
  | argsNotList (place contract : Text)
  /-- An argument of a contract to deploy is no wire form. -/
  | invalidArgs (place contract : Text) (e : WireError)
deriving DecidableEq

/-- The wording of an error. -/
def FormatError.message : FormatError → Text
  | .notObject what => .concat [what, " must be a JSON object"]
  | .notText what => .concat [what, " must be a non-empty string"]
  | .contractForm name =>
    .concat ["Contract ", name.quote,
      " must be a location string or an object with a 'source' field"]
  | .networkKey name => .concat ["Network ", name.quote, " key must be a string"]
  | .emulatorPort name =>
    .concat ["Emulator ", name.quote, " port must be an integer between 1 and 65535"]
  | .missingKey account => .concat ["Account ", account.quote, " is missing a key"]
  | .invalidAddress account text =>
    .concat ["Account ", account.quote, " address is invalid: ", text]
  | .keyType account => .concat ["Account ", account.quote, " key type must be 'hex' or 'file'"]
  | .keyIndex account =>
    .concat ["Account ", account.quote, " key index must be a non-negative integer"]
  | .unsupportedAlgorithm account sort shown =>
    .concat ["Account ", account.quote, " has unsupported ", sort, ": ", shown]
  | .invalidKey account e =>
    .concat ["Account ", account.quote, " private key is invalid: ", e.message]
  | .contractsNotList place => .concat [place, " contracts must be a list"]
  | .argsNotList place contract =>
    .concat [place, " contract ", contract.quote, " args must be a list"]
  | .invalidArgs place contract e =>
    .concat [place, " contract ", contract.quote, " has invalid args: ", e.message]

namespace Format

/-- The members of an object. -/
def members (what : Text) : Json → Except FormatError (List (Text × Json))
  | .obj members => .ok members
  | _ => .error (.notObject what)

/-- A text that is not empty. -/
def text (what : Text) : Json → Except FormatError Text
  | .str t => if t = [] then .error (.notText what) else .ok t
  | _ => .error (.notText what)

/-- The member `name`, `null` when there is none. -/
def field (name : Text) (members : List (Text × Json)) : Json :=
  (Entries.get? name members).getD .null

/-- The member `name`, `default` when there is none. -/
def fieldOr (name : Text) (default : Json) (members : List (Text × Json)) : Json :=
  (Entries.get? name members).getD default

end Format

end ContractKit
