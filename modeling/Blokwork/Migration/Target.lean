import Blokwork.Path

/-!
# Migration targets

A migration is about one field of one component. The pair names the file of the migration's
snapshot and the file of its script.
-/

namespace Blokwork

/-- The component and the field that a migration is about. -/
structure Target where
  component : String
  field : String
deriving DecidableEq, Repr

namespace Target

/-- The target for a reader. -/
def display (t : Target) : String := t.component ++ "." ++ t.field

/-- The file of the snapshot. -/
def snapshotFile (t : Target) : String :=
  "rollback_" ++ t.component ++ "_" ++ t.field ++ ".json"

/-- The file is the snapshot of the target. -/
def isSnapshotFile (t : Target) (file : String) : Bool := file = t.snapshotFile

/-- The file of the script. -/
def scriptFile (t : Target) : String := "change_" ++ t.component ++ "_" ++ t.field ++ ".toml"

/-- The directory of scripts, below the working root. -/
def scriptDirectory : String := "migrations"

/-- Where the script is looked for below a root. -/
def scriptPath (root : String) (t : Target) : String :=
  Path.join (Path.join root scriptDirectory) t.scriptFile

/-- The directory of snapshots, below the working root. -/
def snapshotDirectory : String := "migrations/rollback"

end Target

end Blokwork
