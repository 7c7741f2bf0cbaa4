import Blokwork.Dict
import Blokwork.Migration.Environment

/-!
# A space in memory

A model of everything that a migration works on: a list of entries, of which some refuse to be
replaced, and a set of files. Entries are found by their identifiers; of two with one identifier
the first counts.
-/

namespace Blokwork

/-- Entries and snapshot files in memory. -/
structure Memory where
  entries : List Entry := []
  /-- The identifiers of the entries that cannot be replaced. -/
  refusing : List String := []
  /-- The identifiers of the entries that were replaced, in order. -/
  putLog : List String := []
  files : Dict ByteArray := []
  notices : List Notice := []
  now : Timestamp := ⟨0, 0⟩

/-- The entries with the first one of that identifier replaced; `none` when there is none. -/
def replacing? (id : String) (entry : Entry) : List Entry → Option (List Entry)
  | [] => none
  | e :: rest =>
    if e.id? = some id then some (entry :: rest)
    else (replacing? id entry rest).map (e :: ·)

namespace Memory

/-- Replaces the entry with the identifier of this one. -/
def put (entry : Entry) (world : Memory) : Except Failure Entry × Memory :=
  match entry.id? with
  | none => (.error (.ofMessage "entry has no id"), world)
  | some id =>
    if world.refusing.contains id then
      (.error (.ofMessage ("simulated failure pushing entry " ++ id)), world)
    else
      match replacing? id entry world.entries with
      | none => (.error (.ofMessage ("entry " ++ id ++ " not found")), world)
      | some entries => (.ok entry, { world with entries, putLog := world.putLog ++ [id] })

/-- The entries in memory as remote entries. -/
def api : ContentApi (StateM Memory) where
  credentials := { spaceId := "in-memory", baseUrl := "memory://" }
  entriesWith component := do
    return .ok ((← get).entries.filter (Entry.containsComponent component))
  put entry := modifyGet (put entry)

/-- Why a file that is not there cannot be read or removed. -/
def noSuchFile (file : String) : Failure := .ofMessage ("no such rollback file: " ++ file)

/-- Writes a new file. -/
def create (file : String) (contents : ByteArray) (world : Memory) :
    Except Failure Bool × Memory :=
  if Dict.has world.files file then (.ok false, world)
  else (.ok true, { world with files := Dict.insert world.files file contents })

/-- Removes a file. -/
def remove (file : String) (world : Memory) : Except Failure Unit × Memory :=
  if Dict.has world.files file then
    (.ok (), { world with files := Dict.erase world.files file })
  else (.error (noSuchFile file), world)

/-- The files in memory as a store of snapshots. -/
def store : SnapshotStore (StateM Memory) where
  list := do return .ok ((Dict.keys (← get).files).mergeSort (· ≤ ·))
  read file := do
    match Dict.get? (← get).files file with
    | some contents => return .ok contents
    | none => return .error (noSuchFile file)
  create file contents := modifyGet (create file contents)
  has file := do return .ok (Dict.has (← get).files file)
  remove file := modifyGet (remove file)

/-- A migration in memory. -/
def environment : MigrationEnvironment (StateM Memory) where
  api := api
  store := store
  report notice := modify fun world => { world with notices := world.notices ++ [notice] }
  now := do return (← get).now

end Memory

end Blokwork
