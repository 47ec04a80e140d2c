import ContractKit.Text.Utf8
import ContractKit.Workspace.Path

/-!
# Access to files

Why files cannot be accessed (`FileError`), and the operations a place that stores files has to offer
(`FileStore`): reading whole files, opening a file to be written and putting bytes into it, making
directories, and asking whether something is there.
-/

namespace ContractKit

/-- Why a file or a directory cannot be accessed. -/
inductive FileError where
  /-- Nothing is there. -/
  | missing
  /-- A part of the path is no directory. -/
  | notDirectory
  /-- A directory is there. -/
  | isDirectory
  /-- Something is there already. -/
  | present
  /-- A name or the path is too long. -/
  | nameTooLong
  /-- The path holds a null character. -/
  | nullCharacter
  /-- The path holds surrogates that cannot be encoded: the first one, where it stands and how many
  surrogates stand there. -/
  | surrogate (c : CodePoint) (position count : Nat)
  /-- The system gives another reason. -/
  | other (number : Nat) (reason : Text)
deriving DecidableEq

namespace FileError

/-- The number and the words of the system for an error, if it is one of the system's. -/
def system? : FileError → Option (Nat × Text)
  | missing => some (2, "No such file or directory")
  | present => some (17, "File exists")
  | notDirectory => some (20, "Not a directory")
  | isDirectory => some (21, "Is a directory")
  | nameTooLong => some (36, "File name too long")
  | other number reason => some (number, reason)
  | nullCharacter => none
  | surrogate _ _ _ => none

/-- Whether the system reports the error. -/
def isSystem (e : FileError) : Bool :=
  e.system?.isSome

/-- The wording of an error of the system that is not about a path. -/
def report (e : FileError) : Text :=
  match e.system? with
  | some (number, reason) => .concat ["[Errno ", Numeral.ofNat 10 number, "] ", reason]
  | none => []

/-- The wording of an error about the path. -/
def message (path : Path) : FileError → Text
  | nullCharacter => "embedded null byte"
  | surrogate c position count =>
    if count = 1 then
      .concat ["'utf-8' codec can't encode character ", Text.quote (c.escapedFor '\''),
        " in position ", Numeral.ofNat 10 position, ": surrogates not allowed"]
    else
      .concat ["'utf-8' codec can't encode characters in position ", Numeral.ofNat 10 position, "-",
        Numeral.ofNat 10 (position + count - 1), ": surrogates not allowed"]
  | e => .concat [e.report, ": ", path.text.quoted]

end FileError

/-- A place that stores files, accessed by actions of `m`. -/
class FileStore (m : Type → Type) where
  /-- The bytes of a file. -/
  read : Path → m (Except FileError (List UInt8))
  /-- Opens a file to be written: it loses what it holds, and is created if nothing is there. -/
  create : Path → m (Except FileError Unit)
  /-- Puts bytes at the end of a file that was opened. If this fails, some of them may be there. -/
  append : Path → List UInt8 → m (Except FileError Unit)
  /-- Whether a file or a directory is there. -/
  isPresent : Path → m (Except FileError Bool)
  /-- Makes a directory and all directories it lies in, so far as they are not there. -/
  makeDirectories : Path → m (Except FileError Unit)

end ContractKit
