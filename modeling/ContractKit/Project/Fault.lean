import ContractKit.Config.Lookup
import ContractKit.Workspace.File

/-!
# Faults

Everything that can go wrong with a project, and sessions: actions that keep a log and may end in a
fault. The log is kept when they do.
-/

namespace ContractKit

/-- What can go wrong with a project. -/
inductive Fault where
  /-- The configuration does not have the right form. -/
  | format (e : FormatError)
  /-- The configuration file holds no JSON. -/
  | notJson (path : Path)
  /-- A number is too long to be read from the configuration file or to be written to it. -/
  | numeral (e : NumeralError)
  /-- The configuration file cannot be read. -/
  | unreadable (path : Path) (e : FileError)
  /-- A file is no UTF-8. -/
  | notUtf8 (e : Utf8.DecodeError)
  /-- The configuration has no document. -/
  | encode (e : EncodeError)
  /-- A record is not there. -/
  | lookup (e : LookupError)
  /-- A key file cannot be read. -/
  | keyFile (path : Path) (e : FileError)
  /-- A key file holds no private key. -/
  | invalidKeyFile (path : Path) (e : KeyError)
  /-- The key of the service account is no private key. -/
  | serviceKey (e : KeyError)
  /-- A private key has no public key. -/
  | key (e : KeyError)
  /-- No path to save to is known. -/
  | noPath
  /-- The key of an account lies in a file without a location. -/
  | noLocation
  /-- A path cannot be opened or looked at. -/
  | file (path : Path) (e : FileError)
  /-- The configuration file was opened, but does not take its text. -/
  | unwritten (e : FileError)

/-- The wording of a fault. What a JSON reader says about the place of an error is left out. -/
def Fault.message : Fault → Text
  | .format e => e.message
  | .notJson path => .concat ["Configuration ", path.text.quote, " is not valid JSON"]
  | .numeral e => e.message
  | .unreadable path e =>
    .concat ["Failed to read configuration ", path.text.quote, ": ", e.message path]
  | .notUtf8 e => e.message
  | .encode e => e.message
  | .lookup e => e.message
  | .keyFile path e => .concat ["Failed to read key file ", path.text.quote, ": ", e.message path]
  | .invalidKeyFile path e =>
    .concat ["Key file ", path.text.quote, " does not hold a valid private key: ", e.message]
  | .serviceKey e => .concat ["Invalid service account key: ", e.message]
  | .key e => e.message
  | .noPath => "No configuration path to save to"
  | .noLocation => "expected str, bytes or os.PathLike object, not NoneType"
  | .file path e => e.message path
  | .unwritten e => e.report

/-- Actions of `m` that keep a log and may end in a fault of type `φ`. -/
abbrev Session (φ : Type) (m : Type → Type) := ExceptT φ (StateT (List LogRecord) m)

namespace Session

variable {m : Type → Type} [Monad m] {α ε φ ψ : Type}

/-- An action of the store. -/
def perform (action : m α) : Session φ m α :=
  fun log => do return (.ok (← action), log)

/-- Adds records to the log. -/
def note (records : List LogRecord) : Session φ m Unit :=
  fun log => return (.ok (), log ++ records)

/-- The result of a computation, its error turned into a fault. -/
def require (fault : ε → φ) : Except ε α → Session φ m α
  | .ok a => pure a
  | .error e => throw (fault e)

/-- The same session with its fault turned into another one. -/
def adapt (fault : φ → ψ) (session : Session φ m α) : Session ψ m α :=
  fun log => do
    match ← session log with
    | (.ok a, log) => return (.ok a, log)
    | (.error e, log) => return (.error (fault e), log)

end Session

end ContractKit
