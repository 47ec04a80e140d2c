import ContractKit.Workspace.File

/-!
# Disks

A disk as data: files and directories at their places. A place is given from the current directory,
from a directory above it or from the root. The directories above and the root are there, and hold
nothing but what is put into them. Actions on a disk are a `FileStore`.
-/

namespace ContractKit

/-- A directory that places are given from. -/
inductive Anchor where
  /-- The root. -/
  | root
  /-- The directory so many steps above the current one. -/
  | above (steps : Nat)
deriving DecidableEq

/-- A place on a disk. -/
structure Place where
  /-- The directory it is given from. -/
  anchor : Anchor
  /-- The names that lead to it from there. -/
  names : List Text
deriving DecidableEq

/-- What is at a place. -/
inductive Node where
  | directory
  | file (bytes : List UInt8)
deriving DecidableEq

/-- A disk: the files and directories that have been put on it. -/
structure Disk where
  /-- What is at each place. -/
  entries : List (Place × Node)

namespace Disk

/-- The disk that holds nothing. -/
def empty : Disk := ⟨[]⟩

/-- What is at a place. -/
def node? (disk : Disk) (place : Place) : Option Node :=
  if place.names = [] then some .directory
  else (disk.entries.find? (·.1 = place)).map (·.2)

/-- Puts a node at a place. -/
def put (disk : Disk) (place : Place) (node : Node) : Disk :=
  ⟨(place, node) :: disk.entries.filter (·.1 ≠ place)⟩

/-! ## From paths to places -/

/-- The length of a name in bytes. A surrogate stands for one byte. -/
def byteLength (name : Text) : Nat :=
  (name.map fun c => ((Utf8.encodePoint c).map List.length).getD 1).foldr (· + ·) 0

/-- The place one step up. -/
def up (place : Place) : Place :=
  if place.names = [] then
    match place.anchor with
    | .root => place
    | .above steps => ⟨.above (steps + 1), []⟩
  else ⟨place.anchor, place.names.dropLast⟩

/-- The place that a name leads to from a place, where a directory has to be. -/
def step (disk : Disk) (place : Place) (name : Text) : Except FileError Place :=
  match disk.node? place with
  | none => .error .missing
  | some (.file _) => .error .notDirectory
  | some .directory =>
    if name = ".." then .ok (up place)
    else if 255 < byteLength name then .error .nameTooLong
    else .ok ⟨place.anchor, place.names ++ [name]⟩

/-- A surrogate that cannot stand in a path. -/
def isBadSurrogate (c : CodePoint) : Bool :=
  c.isSurrogate && !(0xdc80 ≤ c.val && c.val ≤ 0xdcff)

/-- The fault of a path that no disk can hold. -/
def pathFault? (text : Text) : Option FileError :=
  match text.find? isBadSurrogate with
  | some _ =>
    let before := text.takeWhile (!CodePoint.isSurrogate ·)
    let run := (text.dropWhile (!CodePoint.isSurrogate ·)).takeWhile CodePoint.isSurrogate
    some (.surrogate (run.head?.getD default) before.length run.length)
  | none =>
    if text.any (·.val = 0) then some .nullCharacter
    else if 4095 < byteLength text then some .nameTooLong
    else none

/-- The place a path leads to. All directories on the way have to be there. -/
def locate (disk : Disk) (path : Path) : Except FileError Place :=
  match pathFault? path.text with
  | some e => .error e
  | none =>
    path.parts.foldlM disk.step ⟨if path.isAbsolute then .root else .above 0, []⟩

/-! ## Operations -/

/-- The bytes of a file. -/
def read (disk : Disk) (path : Path) : Except FileError (List UInt8) := do
  match disk.node? (← disk.locate path) with
  | none => .error .missing
  | some .directory => .error .isDirectory
  | some (.file bytes) => .ok bytes

/-- Whether something is there. A path that leads nowhere has nothing there. -/
def isPresent (disk : Disk) (path : Path) : Except FileError Bool :=
  match disk.locate path with
  | .ok place => .ok (disk.node? place).isSome
  | .error .nameTooLong => .error .nameTooLong
  | .error _ => .ok false

/-- Whether a directory is there. -/
def isDirectory (disk : Disk) (path : Path) : Bool :=
  match disk.locate path with
  | .ok place => disk.node? place = some .directory
  | .error _ => false

/-- Opens a file to be written: what was there is gone, unless it is a directory. -/
def create (disk : Disk) (path : Path) : Except FileError Disk := do
  let place ← disk.locate path
  if disk.node? place = some .directory then .error .isDirectory
  else .ok (disk.put place (.file []))

/-- Puts bytes at the end of a file. -/
def append (disk : Disk) (path : Path) (bytes : List UInt8) : Except FileError Disk := do
  let place ← disk.locate path
  match disk.node? place with
  | none => .error .missing
  | some .directory => .error .isDirectory
  | some (.file found) => .ok (disk.put place (.file (found ++ bytes)))

/-- Makes a directory where nothing is. -/
def makeDirectory (disk : Disk) (path : Path) : Except FileError Disk := do
  let place ← disk.locate path
  if (disk.node? place).isSome then .error .present
  else .ok (disk.put place .directory)

/-- Takes it as done that a directory is there. -/
def allowDirectory (disk : Disk) (path : Path) (e : FileError) : Except FileError Unit :=
  if e.isSystem ∧ disk.isDirectory path then .ok () else .error e

/-- Makes a directory and, where one is missing on the way, all directories it lies in. `depth`
bounds how many are made. Also gives the disk after a failure, when some may have been made. -/
def makeDirectoriesWith : Nat → Path → Disk → Except FileError Unit × Disk
  | depth, path, disk =>
    match disk.makeDirectory path, depth with
    | .ok disk, _ => (.ok (), disk)
    | .error .missing, 0 => (.error .missing, disk)
    | .error .missing, depth + 1 =>
      match makeDirectoriesWith depth path.parent disk with
      | (.error e, disk) => (.error e, disk)
      | (.ok (), disk) =>
        match disk.makeDirectory path with
        | .ok disk => (.ok (), disk)
        | .error .missing => (.error .missing, disk)
        | .error e => (disk.allowDirectory path e, disk)
    | .error e, _ => (disk.allowDirectory path e, disk)

/-- Makes a directory and all directories it lies in, so far as they are not there. -/
def makeDirectories (path : Path) (disk : Disk) : Except FileError Unit × Disk :=
  makeDirectoriesWith path.parts.length path disk

/-- The outcome of an operation: after a failure the disk is as it was. -/
def settle (disk : Disk) : Except FileError Disk → Except FileError Unit × Disk
  | .ok changed => (.ok (), changed)
  | .error e => (.error e, disk)

/-- Actions on a disk. -/
abbrev Action := StateM Disk

instance : FileStore Action where
  read path := fun disk => (disk.read path, disk)
  create path := fun disk => disk.settle (disk.create path)
  append path bytes := fun disk => disk.settle (disk.append path bytes)
  isPresent path := fun disk => (disk.isPresent path, disk)
  makeDirectories := makeDirectories

end Disk

/-! ## Bounded files -/

/-- A disk on which no file gets longer than a bound. -/
structure BoundedDisk where
  /-- The files and directories. -/
  disk : Disk
  /-- The length in bytes that a file may have. -/
  bound : Nat

namespace BoundedDisk

/-- The same bound on another disk. -/
def withDisk {α : Type} (s : BoundedDisk) (outcome : α × Disk) : α × BoundedDisk :=
  (outcome.1, { s with disk := outcome.2 })

/-- Puts bytes at the end of a file. Those that do not fit are left out, and this is an error. -/
def append (path : Path) (bytes : List UInt8) (s : BoundedDisk) :
    Except FileError Unit × BoundedDisk :=
  let length := match s.disk.read path with
    | .ok found => found.length
    | .error _ => 0
  let (result, after) := s.withDisk (s.disk.settle (s.disk.append path (bytes.take (s.bound - length))))
  if s.bound < length + bytes.length then (result.bind fun _ => .error (.other 27 "File too large"), after)
  else (result, after)

instance : FileStore (StateM BoundedDisk) where
  read path := fun s => (s.disk.read path, s)
  create path := fun s => s.withDisk (s.disk.settle (s.disk.create path))
  append := append
  isPresent path := fun s => (s.disk.isPresent path, s)
  makeDirectories path := fun s => s.withDisk (s.disk.makeDirectories path)

end BoundedDisk

end ContractKit
