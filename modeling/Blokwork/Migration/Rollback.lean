import Blokwork.Migration.Batch

/-!
# Rollback

A rollback pushes the entries of a target's snapshot back as they were. The snapshot is removed
only when it is not to be kept, and only after the last entry of it was pushed.
-/

namespace Blokwork

/-- What becomes of a snapshot after its rollback. -/
inductive Retention where
  | keep
  | delete
deriving DecidableEq, Repr

/-- The account of a rollback. -/
structure RollbackReport where
  target : Target
  state : BatchState
  files : List String
  restored : Nat
  removed : Bool
deriving DecidableEq, Repr

variable {m : Type → Type} [Monad m]

/-- Pushes entries back, one after the other. -/
def restoreEntries (api : ContentApi m) (target : Target) :
    List Entry → m (Except MigrationError Unit)
  | [] => return .ok ()
  | e :: rest => do
    match ← api.put e with
    | .error cause => return .error (.transport .push target e.id? cause)
    | .ok _ => restoreEntries api target rest

/-- The snapshot in a file. -/
def readSnapshot (store : SnapshotStore m) (file : String) :
    m (Except MigrationError Snapshot) := do
  match ← store.read file with
  | .error cause => return .error (.store cause)
  | .ok bytes => return (Snapshot.ofBytes bytes).mapError (.snapshot file)

/-- Pushes the entries of some snapshot files back; the result is their number. -/
def restoreFiles (env : MigrationEnvironment m) (target : Target) (restored : Nat) :
    List String → m (Except MigrationError Nat)
  | [] => return .ok restored
  | file :: rest => do
    match ← readSnapshot env.store file with
    | .error e => return .error e
    | .ok snapshot =>
      if snapshot.component ≠ target.component then
        env.report (.foreignSnapshot file snapshot.component)
      match ← restoreEntries env.api target snapshot.entries with
      | .error e => return .error e
      | .ok () => restoreFiles env target (restored + snapshot.entries.length) rest

/-- Removes files, one after the other. -/
def removeFiles (store : SnapshotStore m) : List String → m (Except MigrationError Unit)
  | [] => return .ok ()
  | file :: rest => do
    match ← store.remove file with
    | .error cause => return .error (.store cause)
    | .ok () => removeFiles store rest

/-- Restores what the snapshot of a target holds. -/
def rollback (env : MigrationEnvironment m) (target : Target) (retention : Retention) :
    m (Except MigrationError RollbackReport) := do
  match ← existingSnapshots env.store target with
  | .error e => return .error e
  | .ok [] => return .error (.notFound target)
  | .ok files =>
    match ← restoreFiles env target 0 files with
    | .error e => return .error e
    | .ok restored =>
      let report (removed : Bool) : RollbackReport :=
        { target, state := .rolledBack, files, restored, removed }
      match retention with
      | .keep => return .ok (report false)
      | .delete =>
        match ← removeFiles env.store files with
        | .error e => return .error e
        | .ok () => return .ok (report true)

/-- The file has the name of a snapshot, whatever its target. -/
def isAnySnapshotFile (file : String) : Bool :=
  "rollback_".toList.isPrefixOf file.toList && ".json".toList.isSuffixOf file.toList

/-- The snapshots in a store, in order. -/
def listSnapshots (store : SnapshotStore m) : m (Except Failure (List String)) := do
  match ← store.list with
  | .error cause => return .error (cause.within "list rollback directory")
  | .ok names => return .ok ((names.filter isAnySnapshotFile).mergeSort (· ≤ ·))

end Blokwork
