import ContractKit.Project.Basic

/-!
# Keys of accounts

The private key of an account stands in the configuration or in a file, whose location is taken from
the directory of the configuration.
-/

namespace ContractKit.Project

/-- The directory the project is kept in. -/
def directory (project : Project) : Path :=
  (project.path.map Path.parent).getD Path.current

/-- The text with `\r\n` and `\r` turned into `\n`. -/
def unifyLineEnds : Text → Text
  | [] => []
  | [c] => if c = '\r' then ['\n'] else [c]
  | c :: d :: rest =>
    if c = '\r' then
      if d = '\n' then d :: unifyLineEnds rest else '\n' :: unifyLineEnds (d :: rest)
    else c :: unifyLineEnds (d :: rest)

/-- The private key in the bytes of the key file under `path`. -/
def readKeyFile (path : Path) (algorithm : Text) (bytes : List UInt8) : Except Fault Text :=
  match Utf8.decode bytes with
  | .error e => .error (.notUtf8 e)
  | .ok text =>
    match PrivateKey.validate (unifyLineEnds text).trim algorithm with
    | .error e => .error (.invalidKeyFile path e)
    | .ok key => .ok key

section

variable {m : Type → Type} [Monad m] [FileStore m]

/-- The private key of an account key, with locations taken from a directory. -/
def resolveKey (base : Path) (key : AccountKey) : Session Fault m Text :=
  match key.material with
  | .hex privateKey => pure privateKey
  | .file none => throw .noLocation
  | .file (some location) => do
    let path := Path.within base (Path.ofText location)
    match ← Session.perform (FileStore.read path) with
    | .ok bytes => Session.require id (readKeyFile path key.sigAlgo bytes)
    | .error e => throw (if e.isSystem then .keyFile path e else .file path e)

/-- The private key of the account of the given name. -/
def accountPrivateKey (project : Project) (name : Text) : Session Fault m Text := do
  let account ← Session.require .lookup (project.document.accounts.byName name)
  resolveKey project.directory account.key

/-- The public key of the account of the given name. -/
def accountPublicKey (project : Project) (name : Text) : Session Fault m (List UInt8) := do
  let account ← Session.require .lookup (project.document.accounts.byName name)
  let privateKey ← resolveKey project.directory account.key
  Session.require .key (PrivateKey.publicKey privateKey account.key.sigAlgo)

end

end ContractKit.Project
