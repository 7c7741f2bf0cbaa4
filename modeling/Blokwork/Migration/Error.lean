import Blokwork.Failure
import Blokwork.Migration.Target

/-!
# Migration errors

Why a migration or a rollback stopped. Two of the errors concern the snapshots themselves, and
whoever runs the migration has to decide about them; these have an exit code of their own.
-/

namespace Blokwork

/-- Which remote call failed. -/
inductive TransportOp where
  | fetch
  | push
deriving DecidableEq, Repr

/-- The name of a remote call. -/
def TransportOp.name : TransportOp → String
  | .fetch => "fetch"
  | .push => "push"

/-- Why a migration or a rollback stopped. -/
inductive MigrationError where
  /-- There is a snapshot already, which must not be overwritten. -/
  | conflict (target : Target) (file : String)
  /-- There is no snapshot to restore. -/
  | notFound (target : Target)
  /-- A remote call failed. -/
  | transport (op : TransportOp) (target : Target) (entryId : Option String) (cause : Failure)
  /-- The store of snapshots failed. -/
  | store (cause : Failure)
  /-- The edit of an entry failed. -/
  | transform (entryId : String) (cause : Failure)
  /-- A file is no snapshot. -/
  | snapshot (file : String) (fault : TextFault)
deriving DecidableEq, Repr

namespace MigrationError

/-- The wording of an error, with `wording` for causes from outside. -/
def messageWith (wording : Cause → String) : MigrationError → String
  | .conflict target file =>
    "rollback conflict: `" ++ file ++ "` already exists for " ++ target.display
  | .notFound target => "no rollback file found for " ++ target.display
  | .transport op target entryId cause =>
    op.name ++ " failed for " ++ target.display ++ " (entry " ++ entryId.getD "-" ++ "): "
      ++ cause.textWith wording
  | .store cause => "rollback store: " ++ cause.textWith wording
  | .transform entryId cause =>
    "transform failed for entry " ++ entryId ++ ": " ++ cause.textWith wording
  | .snapshot file _ => "`" ++ file ++ "` is not a readable rollback snapshot"

/-- The error concerns the snapshots themselves. -/
def isConflict : MigrationError → Bool
  | .conflict .. | .notFound .. => true
  | _ => false

/-- The exit code of a program that stopped with the error. -/
def exitCode (e : MigrationError) : Nat := if e.isConflict then 2 else 1

end MigrationError

end Blokwork
