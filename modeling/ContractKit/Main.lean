import ContractKit.Command.Run
import ContractKit.Workspace.Disk

/-!
# The command line

The program: the file system of the machine as a `FileStore`, and the outcome of a command line shown
to the user. What a command does is said in `ContractKit.Command.Run`.
-/

namespace ContractKit

/-- The characters of a text. Code points that are no characters are shown as replacement
characters. -/
def Text.shown (text : Text) : String :=
  String.ofList (text.map fun c => if c.isSurrogate then '\ufffd' else Char.ofNat c.val)

/-- The name under which the machine knows a path. -/
def Path.machineName (path : Path) : Except FileError String :=
  match Disk.pathFault? path.text with
  | some e => .error e
  | none => .ok path.text.shown

/-- The number of the error that the machine reports and its reason. The number may come negated. -/
def FileError.machineReport : IO.Error → Nat × String
  | .noFileOrDirectory _ number reason | .interrupted _ number reason
  | .alreadyExists _ number reason | .inappropriateType _ number reason
  | .invalidArgument _ number reason | .permissionDenied _ number reason
  | .resourceExhausted _ number reason | .noSuchThing _ number reason
  | .otherError number reason | .resourceBusy number reason | .resourceVanished number reason
  | .unsupportedOperation number reason | .hardwareFault number reason
  | .unsatisfiedConstraints number reason | .illegalOperation number reason
  | .protocolError number reason | .timeExpired number reason =>
    (number.toInt32.toInt.natAbs, reason)
  | .unexpectedEof => (5, "Input/output error")
  | .userError reason => (5, reason)

/-- The error that the machine reports. -/
def FileError.ofMachine (e : IO.Error) : FileError :=
  match machineReport e with
  | (2, _) => .missing
  | (17, _) => .present
  | (20, _) => .notDirectory
  | (21, _) => .isDirectory
  | (36, _) => .nameTooLong
  | (number, reason) => .other number reason

/-- Does something with a path on the machine. -/
def Path.access {α : Type} (path : Path) (action : String → IO α) : IO (Except FileError α) := do
  match path.machineName with
  | .error e => pure (.error e)
  | .ok name =>
    match ← (action name).toBaseIO with
    | .ok result => pure (.ok result)
    | .error e => pure (.error (.ofMachine e))

instance : FileStore IO where
  read path := path.access fun name => do pure (← IO.FS.readBinFile name).toList
  create path := path.access fun name => IO.FS.withFile name .write fun _ => pure ()
  append path bytes := path.access fun name =>
    IO.FS.withFile name .append fun handle => do
      handle.write ⟨bytes.toArray⟩
      handle.flush
  isPresent path := do
    match ← path.access fun name => IO.FS.Handle.mk name .read with
    | .ok _ => pure (.ok true)
    | .error .nameTooLong => pure (.error .nameTooLong)
    | .error (.other _ _) => pure (.ok true)
    | .error _ => pure (.ok false)
  makeDirectories path := path.access fun name => IO.FS.createDirAll name

/-- Shows an outcome and gives the exit code. -/
def Outcome.present : Outcome → IO UInt32
  | .rejected => do
    IO.eprintln "error: the arguments are not understood"
    pure 2
  | .ended exit printed log => do
    IO.eprint log.shown
    IO.print printed.shown
    pure exit.toUInt32
  | .crashed fault log => do
    IO.eprint log.shown
    IO.eprintln fault.message.shown
    pure 1

end ContractKit

def main (args : List String) : IO UInt32 := do
  (← ContractKit.Outcome.run (args.map ContractKit.Text.ofString)).present
