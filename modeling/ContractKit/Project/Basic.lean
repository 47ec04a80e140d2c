import ContractKit.Json.Draft
import ContractKit.Project.Fault

/-!
# Projects

A project is a configuration with the path it is kept under and the settings in force. Projects are
set up (`Project.initial`), loaded and saved here.
-/

namespace ContractKit

/-- A project. -/
structure Project where
  /-- The configuration. -/
  document : Document
  /-- The path the project is kept under, if any. -/
  path : Option Path
  /-- The settings in force. -/
  settings : Settings

namespace Project

/-- A project without records. -/
def empty (path : Option Path) (settings : Settings) : Project :=
  ⟨Document.empty, path, settings⟩

/-- A new project: the default networks, the default emulator and its service account with the given
private key. -/
def initial (serviceKey : Text) (path : Option Path) (settings : Settings) :
    Except Fault Project :=
  match PrivateKey.validate serviceKey settings.sigAlgo with
  | .error e => .error (.serviceKey e)
  | .ok privateKey =>
    .ok {
      document := {
        emulators := [⟨settings.emulatorName, settings.emulatorPort, settings.serviceAccountName⟩]
        contracts := []
        networks := settings.defaultNetworks.map fun (name, host) => ⟨name, host, []⟩
        accounts := [⟨settings.serviceAccountName, settings.serviceAddress,
          ⟨settings.keyIndex, settings.sigAlgo, settings.hashAlgo, .hex privateKey⟩⟩]
        deployments := [] }
      path := path
      settings := settings }

/-- The project of a document. -/
def ofJson (raw : Json) (path : Option Path) (settings : Settings) : Except FormatError Project := do
  .ok ⟨← Document.decode raw settings, path, settings⟩

/-- The document of a project. -/
def json (project : Project) : Except EncodeError Json :=
  project.document.encode project.settings

/-! ## Loading and saving -/

/-- The JSON value in the bytes of the configuration file under `path`. -/
def readJson (path : Path) (bytes : List UInt8) : Except Fault Json :=
  match Utf8.decode bytes with
  | .error e => .error (.notUtf8 e)
  | .ok text =>
    match Json.parse text with
    | .error .malformed => .error (.notJson path)
    | .error (.numeral e) => .error (.numeral e)
    | .ok raw => .ok raw

/-- How many of something there are, for the log. -/
def count {α : Type} (records : List α) (noun : Text) : Text :=
  .concat [Numeral.ofNat 10 records.length, " ", noun]

/-- The note that a project is loaded. -/
def loadedNote (path : Path) (document : Document) : LogRecord :=
  ⟨.debug, .project, .concat ["Loaded ", path.text, ": ", .intercalate ", " [
    count document.contracts "contracts", count document.accounts "accounts",
    count document.networks "networks", count document.deployments "deployments"]]⟩

/-- The note that a project is saved. -/
def savedNote (path : Path) : LogRecord :=
  ⟨.info, .project, .concat ["Configuration saved to ", path.text]⟩

/-- The text of a configuration file. -/
def fileText (document : Json) : Text :=
  .concat [document.pretty, "\n"]

/-- The text of a configuration file as far as it can be written. -/
def fileDraft (document : Json) : Draft :=
  .concat [document.draft, .whole "\n"]

/-- The bytes of a text of ASCII characters. -/
def asciiBytes (text : Text) : List UInt8 :=
  text.map fun c => .ofNat c.val

section

variable {m : Type → Type} [Monad m] [FileStore m]

/-- Loads the project kept under a path. -/
def load (path : Path) (settings : Settings) : Session Fault m Project := do
  let bytes ← match ← Session.perform (FileStore.read path) with
    | .ok bytes => pure bytes
    | .error e => throw (if e.isSystem then .unreadable path e else .file path e)
  let raw ← Session.require id (readJson path bytes)
  Session.note (Document.notes raw)
  let document ← Session.require .format (Document.decode raw settings)
  Session.note [loadedNote path document]
  pure ⟨document, some path, settings⟩

/-- Writes a project under a path, in the directories that this needs. Once the file is open nothing is
left of what it held. -/
def store (path : Path) (document : Json) : Session Fault m Unit := do
  Session.require (.file path.parent) (← Session.perform (FileStore.makeDirectories path.parent))
  Session.require (.file path) (← Session.perform (FileStore.create path))
  let written := fileDraft document
  Session.require .unwritten (← Session.perform (FileStore.append path (asciiBytes written.text)))
  Session.require .numeral written.finish

/-- Saves a project under the given path, or under its own. A project whose configuration has no
document leaves the file as it is. -/
def save (project : Project) (path : Option Path) : Session Fault m Project := do
  match path <|> project.path with
  | none => throw .noPath
  | some target =>
    let document ← Session.require .encode project.json
    store target document
    Session.note [savedNote target]
    pure { project with path := some target }

end

end Project

end ContractKit
