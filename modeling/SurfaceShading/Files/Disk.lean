/-
  Files and directories as a value. The working directory is the root, so that absolute paths are
  followed like relative ones. Each operation answers or fails the way a file system does.
-/
import SurfaceShading.Files.Path
import SurfaceShading.OrderedMap
import SurfaceShading.Text.Utf8

namespace SurfaceShading

/-- Why a file operation failed. -/
inductive FileError where
  | notFound
  | notADirectory
  | isADirectory
  | alreadyExists
  | nameTooLong
  | nulInPath
  | notUtf8
  deriving Repr, DecidableEq

/-- The system's wording of an error. -/
def FileError.message : FileError → String
  | notFound => "No such file or directory (os error 2)"
  | notADirectory => "Not a directory (os error 20)"
  | isADirectory => "Is a directory (os error 21)"
  | alreadyExists => "File exists (os error 17)"
  | nameTooLong => "File name too long (os error 36)"
  | nulInPath => "file name contained an unexpected NUL byte"
  | notUtf8 => "stream did not contain valid UTF-8"

/-- What stands at a place of the disk. -/
inductive Node where
  | file (bytes : List UInt8)
  | directory
  deriving Repr, DecidableEq

/-- Everything below the root, each under the names that lead to it. -/
abbrev Disk := OrderedMap (List String) Node

namespace Disk

/-- Where a path leads. -/
inductive Place where
  | directory (names : List String)
  | file (names : List String) (bytes : List UInt8)
  | absent (names : List String)
  deriving Repr, DecidableEq

/-- The most bytes of a name. -/
def maxNameBytes : Nat := 255

/-- The most bytes of a path. -/
def maxPathBytes : Nat := 4095

/-- A path that is followed at all: a text without NUL that is not too long. -/
def checkPath (path : String) : Except FileError Unit :=
  if path.toList.contains '\x00' then .error .nulInPath
  else if maxPathBytes < path.utf8ByteSize then .error .nameTooLong
  else .ok ()

/-- Follows steps from a directory. Only the last step may lead to nothing or to a file, and
a name is looked at only once the steps before it have been walked. -/
def follow (disk : Disk) (names : List String) : List String → Except FileError Place
  | [] => .ok (.directory names)
  | step :: rest =>
    if step = "." then follow disk names rest
    else if step = ".." then follow disk names.dropLast rest
    else if maxNameBytes < step.utf8ByteSize then .error .nameTooLong
    else
      let next := names ++ [step]
      match disk.get? next with
      | some .directory => follow disk next rest
      | some (.file bytes) =>
        if rest.isEmpty then .ok (.file next bytes) else .error .notADirectory
      | none => if rest.isEmpty then .ok (.absent next) else .error .notFound

/-- The steps of a path from the root. -/
def stepsBelow (path : String) : Except FileError (List String) := do
  checkPath path
  if path.isEmpty then .error .notFound else .ok (Path.steps path)

/-- Where a path leads. A slash at the end asks for a directory. -/
def locate (disk : Disk) (path : String) : Except FileError Place := do
  let steps ← stepsBelow path
  follow disk [] (if Path.endsWithSlash path then steps ++ ["."] else steps)

/-- The steps before a last name, and all steps if the last one is no name. -/
def stepsBeforeName (steps : List String) : List String :=
  match steps.getLast? with
  | some "." | some ".." => steps
  | _ => steps.dropLast

/-- Where a path leads for a file to be written. A slash at the end makes the last name that
of a directory, be it there or not. -/
def locateForWriting (disk : Disk) (path : String) : Except FileError Place := do
  if Path.endsWithSlash path then
    follow disk [] (stepsBeforeName (← stepsBelow path) ++ ["."])
  else disk.locate path

/-- The bytes of a file. -/
def read (disk : Disk) (path : String) : Except FileError (List UInt8) := do
  match ← disk.locate path with
  | .directory _ => .error .isADirectory
  | .file _ bytes => .ok bytes
  | .absent _ => .error .notFound

/-- The text of a file. -/
def readText (disk : Disk) (path : String) : Except FileError String := do
  match Text.ofUtf8? (← disk.read path) with
  | some text => .ok text
  | none => .error .notUtf8

/-- The names in a directory. -/
def list (disk : Disk) (path : String) : Except FileError (List String) := do
  match ← disk.locate path with
  | .directory names =>
    .ok (disk.keys.filterMap fun k =>
      if k.length = names.length + 1 ∧ k.take names.length = names then k.getLast? else none)
  | .file _ _ => .error .notADirectory
  | .absent _ => .error .notFound

/-- Writes a file, in place of what it held. -/
def write (disk : Disk) (path : String) (bytes : List UInt8) : Except FileError Disk := do
  match ← disk.locateForWriting path with
  | .directory _ => .error .isADirectory
  | .file names _ => .ok (disk.insert names (.file bytes))
  | .absent names => .ok (disk.insert names (.file bytes))

/-- Removes a file. -/
def remove (disk : Disk) (path : String) : Except FileError Disk := do
  match ← disk.locate path with
  | .directory _ => .error .isADirectory
  | .file names _ => .ok (disk.erase names)
  | .absent _ => .error .notFound

/-- Creates the directory at the end of some steps; what is above it has to be there. -/
def makeDirectory (disk : Disk) (steps : List String) : Except FileError Disk := do
  match ← follow disk [] steps with
  | .directory _ => .ok disk
  | .file _ _ => .error .alreadyExists
  | .absent names => .ok (disk.insert names .directory)

/-- Creates the directories that the steps lead through, the innermost step first in the
list. -/
def makeDirectoriesAbove (disk : Disk) : List String → Except FileError Disk
  | [] => .ok disk
  | last :: above =>
    match disk.makeDirectory (last :: above).reverse with
    | .ok made => .ok made
    | .error .notFound => do
      (← disk.makeDirectoriesAbove above).makeDirectory (last :: above).reverse
    | .error e => .error e

/-- Creates a directory and every directory above it that is not there. -/
def makeDirectories (disk : Disk) (path : String) : Except FileError Disk := do
  checkPath path
  disk.makeDirectoriesAbove (Path.components path).reverse

/-- Creates the directory of a path, then writes the file. Directories stay when the writing
fails. -/
def writeBelow (disk : Disk) (path : String) (bytes : List UInt8) : Disk × Except FileError Unit :=
  match Path.parent? path with
  | none =>
    match disk.write path bytes with
    | .ok written => (written, .ok ())
    | .error e => (disk, .error e)
  | some parent =>
    match disk.makeDirectories parent with
    | .error e => (disk, .error e)
    | .ok made =>
      match made.write path bytes with
      | .ok written => (written, .ok ())
      | .error e => (made, .error e)

/-- A disk with some directories and files, as far as they can be made. -/
def ofFiles (directories : List String) (files : List (String × List UInt8)) : Disk :=
  let start : Disk := OrderedMap.empty
  let disk := directories.foldl
    (fun disk path => (Disk.makeDirectories disk path).toOption.getD disk) start
  files.foldl (fun disk file => (Disk.writeBelow disk file.1 file.2).1) disk

/-- The paths of all files. -/
def files (disk : Disk) : List String :=
  disk.entries.filterMap fun e =>
    match e.2 with
    | .file _ => some (String.intercalate "/" e.1)
    | .directory => none

end Disk

end SurfaceShading
