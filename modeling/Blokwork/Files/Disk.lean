import Blokwork.Failure
import Blokwork.Path

/-!
# Disks

The operations on files and directories that everything else is built on, given in a monad. An
operation that the disk refuses has a fault, and the functions of this library put the context
around it.
-/

namespace Blokwork

/-- An entry of a directory. -/
structure DirectoryItem where
  name : String
  isFile : Bool
  isDirectory : Bool
deriving DecidableEq, Repr

/-- Files and directories by path. -/
structure Disk (m : Type → Type) where
  isFile : (path : String) → m Bool
  isDirectory : (path : String) → m Bool
  /-- The contents of a file. -/
  read : (path : String) → m (Except FileFault ByteArray)
  /-- The entries of a directory, in any order. -/
  items : (path : String) → m (Except FileFault (List DirectoryItem))
  /-- Makes a directory and those that it is in, as far as they are missing. -/
  makeDirectories : (path : String) → m (Except FileFault Unit)
  /-- Replaces the contents of a file, or makes it. -/
  write : (path : String) → (contents : ByteArray) → m (Except FileFault Unit)
  /-- Makes an empty file; refused when something of that name exists. -/
  create : (path : String) → m (Except FileFault Unit)
  remove : (path : String) → m (Except FileFault Unit)

/-- The result of an operation on files, with a context around a fault. -/
def fileResult {α : Type} (context : String) (result : Except FileFault α) : Except Failure α :=
  inContext context (result.mapError Failure.ofFile)

namespace Disk

variable {m : Type → Type} [Monad m] (disk : Disk m)

/-- Something of that path exists. -/
def holds (path : String) : m Bool := do
  return (← disk.isFile path) || (← disk.isDirectory path)

/-- The text of a file. -/
def readText (path : String) : m (Except FileFault String) := do
  match ← disk.read path with
  | .error fault => return .error fault
  | .ok bytes =>
    match String.fromUTF8? bytes with
    | some text => return .ok text
    | none => return .error .invalidData

/-- Writes a file whole, in a directory that is made if it is missing. -/
def writeWhole (path : String) (contents : ByteArray) : m (Except Failure Unit) := do
  let directory := (Path.parent? path).getD ""
  let made ←
    if directory.isEmpty then pure (.ok ())
    else fileResult ("create parent dir for " ++ path) <$> disk.makeDirectories directory
  match made with
  | .error f => return .error f
  | .ok () => return fileResult ("write " ++ path) (← disk.write path contents)

/-- Makes a directory and those that it is in. -/
def makeAll (path : String) : m (Except Failure Unit) := do
  return fileResult ("create_dir_all " ++ path) (← disk.makeDirectories path)

end Disk

end Blokwork
