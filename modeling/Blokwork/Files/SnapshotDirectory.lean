import Blokwork.Files.Disk
import Blokwork.Migration.Environment

/-!
# Snapshots on a disk

A directory as a store of snapshots: its plain files are the snapshots. The directory is made
with the first snapshot. A new file is made empty, and filled at once; when that fails it is
removed again, so that no broken snapshot stands in the way of a later migration.
-/

namespace Blokwork

/-- A directory of snapshots. -/
structure SnapshotDirectory (m : Type → Type) where
  disk : Disk m
  path : String
  /-- Takes note of something. -/
  report : Notice → m Unit

namespace SnapshotDirectory

variable {m : Type → Type} [Monad m] (directory : SnapshotDirectory m)

/-- The path of a snapshot. -/
def pathOf (file : String) : String := Path.join directory.path file

/-- The names of the plain files in order; a directory that is missing has none. -/
def list : m (Except Failure (List String)) := do
  if ← directory.disk.isDirectory directory.path then
    match ← directory.disk.items directory.path with
    | .error fault => return .error (.ofFile fault)
    | .ok items =>
      return .ok (((items.filter (·.isFile)).map (·.name)).mergeSort (· ≤ ·))
  else return .ok []

/-- The contents of a snapshot. -/
def read (file : String) : m (Except Failure ByteArray) := do
  let path := directory.pathOf file
  return fileResult ("read " ++ path) (← directory.disk.read path)

/-- Removes a file that could not be filled. -/
def discard (path : String) : m Unit := do
  match ← directory.disk.remove path with
  | .ok () => return ()
  | .error fault => directory.report (.leftover path fault.text)

/-- Fills a file that was just made. -/
def fill (path : String) (contents : ByteArray) : m (Except Failure Bool) := do
  match ← directory.disk.write path contents with
  | .ok () => return .ok true
  | .error fault =>
    directory.discard path
    return fileResult ("write " ++ path) (.error fault)

/-- Writes a new snapshot; false when there is something of that name. -/
def create (file : String) (contents : ByteArray) : m (Except Failure Bool) := do
  match ← directory.disk.makeAll directory.path with
  | .error f => return .error f
  | .ok () =>
    let path := directory.pathOf file
    match ← directory.disk.create path with
    | .ok () => directory.fill path contents
    | .error .alreadyExists => return .ok false
    | .error fault => return fileResult ("create " ++ path) (.error fault)

/-- There is a snapshot of that name. -/
def has (file : String) : m (Except Failure Bool) := do
  return .ok (← directory.disk.isFile (directory.pathOf file))

/-- Removes a snapshot. -/
def remove (file : String) : m (Except Failure Unit) := do
  let path := directory.pathOf file
  return fileResult ("remove " ++ path) (← directory.disk.remove path)

/-- The directory as a store of snapshots. -/
def store : SnapshotStore m where
  list := directory.list
  read := directory.read
  create := directory.create
  has := directory.has
  remove := directory.remove

end SnapshotDirectory

end Blokwork
