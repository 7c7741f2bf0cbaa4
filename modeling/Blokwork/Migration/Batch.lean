import Blokwork.Migration.Error
import Blokwork.Migration.Environment
import Blokwork.Migration.Script
import Blokwork.Migration.Snapshot

/-!
# Batches

A batch edits every entry with a blok of the target's component. It runs in single steps: the
check that there is no snapshot, the fetch with the edit of all entries in memory, the save of
a snapshot with the entries that changed, and one push for each of them. A failing push ends the
batch; what was pushed before it stays pushed, and the snapshot stays. `Batch.step` is one step,
`Job.run` a whole run.
-/

namespace Blokwork

/-- How far a batch got. -/
inductive BatchState where
  | pending
  | snapshotted
  | applied
  | rolledBack
deriving DecidableEq, Repr

/-- The name of a state. -/
def BatchState.name : BatchState → String
  | .pending => "pending"
  | .snapshotted => "snapshotted"
  | .applied => "applied"
  | .rolledBack => "rolled_back"

/-- The account of a batch. -/
structure MigrationReport where
  target : Target
  state : BatchState
  fetched : Nat
  /-- The identifiers of the entries that changed, in the order of the fetch. -/
  changed : List String
  snapshotFile : Option String
  pushed : Nat
deriving DecidableEq, Repr

/-- An entry that an edit changes, before and after. -/
structure EntryChange where
  before : Entry
  after : Entry
deriving DecidableEq, Repr

/-- The edits of all entries; the first that fails decides. -/
def changesOf (transform : EntryTransform) : List Entry → Except MigrationError (List EntryChange)
  | [] => .ok []
  | e :: rest =>
    match transform e with
    | .error cause => .error (.transform e.displayId cause)
    | .ok updated =>
      (changesOf transform rest).map fun changes =>
        if updated.same e then changes else ⟨e, updated⟩ :: changes

/-- What a batch has to do. -/
structure Job where
  target : Target
  transform : EntryTransform
  /-- Only report what would change. -/
  dryRun : Bool

/-- A batch between two steps. -/
inductive Batch where
  /-- Next is the check that there is no snapshot. -/
  | checking
  /-- Next is the fetch. -/
  | fetching
  /-- Next is the save of the snapshot. -/
  | saving (fetched : Nat) (changes : List EntryChange)
  /-- Next is the push of the first of the remaining changes. -/
  | pushing (file : String) (fetched : Nat) (changes remaining : List EntryChange)
  /-- Nothing is left to do. -/
  | finished (result : Except MigrationError MigrationReport)

variable {m : Type → Type} [Monad m]

/-- The snapshots of the target in the store, in order. -/
def existingSnapshots (store : SnapshotStore m) (target : Target) :
    m (Except MigrationError (List String)) := do
  match ← store.list with
  | .error cause => return .error (.store cause)
  | .ok names =>
    return .ok ((names.filter target.isSnapshotFile).mergeSort (· ≤ ·))

/-- Saves the snapshot of some entries; a conflict when there is one already. -/
def createSnapshot (env : MigrationEnvironment m) (target : Target) (entries : List Entry) :
    m (Except MigrationError String) := do
  let snapshot := Snapshot.take target (← env.now) entries
  match ← env.store.create target.snapshotFile snapshot.text.toUTF8 with
  | .error cause => return .error (.store cause)
  | .ok false => return .error (.conflict target target.snapshotFile)
  | .ok true => return .ok target.snapshotFile

namespace Job

variable (job : Job) (env : MigrationEnvironment m)

/-- The account of the job after some changes. -/
def reportOf (state : BatchState) (fetched : Nat) (changes : List EntryChange)
    (snapshotFile : Option String) (pushed : Nat) : MigrationReport where
  target := job.target
  state := state
  fetched := fetched
  changed := changes.map fun c => c.after.displayId
  snapshotFile := snapshotFile
  pushed := pushed

/-- The check that there is no snapshot of the target. -/
def check : m Batch := do
  match ← existingSnapshots env.store job.target with
  | .error e => return .finished (.error e)
  | .ok [] => return .fetching
  | .ok (file :: _) => return .finished (.error (.conflict job.target file))

/-- The fetch, and the edit of all fetched entries in memory. -/
def fetch : m Batch := do
  match ← env.api.entriesWith job.target.component with
  | .error cause => return .finished (.error (.transport .fetch job.target none cause))
  | .ok entries =>
    match changesOf job.transform entries with
    | .error e => return .finished (.error e)
    | .ok changes =>
      if job.dryRun then
        return .finished (.ok (job.reportOf .pending entries.length changes none 0))
      else if changes.isEmpty then
        return .finished (.ok (job.reportOf .applied entries.length changes none 0))
      else return .saving entries.length changes

/-- The save of the snapshot. -/
def save (fetched : Nat) (changes : List EntryChange) : m Batch := do
  match ← createSnapshot env job.target (changes.map (·.before)) with
  | .error e => return .finished (.error e)
  | .ok file => return .pushing file fetched changes changes

/-- The push of a change, when one remains. -/
def push (file : String) (fetched : Nat) (changes : List EntryChange) :
    List EntryChange → m Batch
  | [] =>
    return .finished (.ok (job.reportOf .applied fetched changes (some file) changes.length))
  | c :: remaining => do
    match ← env.api.put c.after with
    | .ok _ => return .pushing file fetched changes remaining
    | .error cause =>
      let left := remaining.length + 1
      env.report
        (.pushFailed job.target.display c.after.displayId (changes.length - left) left)
      return .finished (.error (.transport .push job.target c.after.id? cause))

end Job

namespace Batch

/-- Where a job starts. A dry run does not look for snapshots. -/
def start (job : Job) : Batch := if job.dryRun then .fetching else .checking

/-- One step. -/
def step (job : Job) (env : MigrationEnvironment m) : Batch → m Batch
  | .checking => job.check env
  | .fetching => job.fetch env
  | .saving fetched changes => job.save env fetched changes
  | .pushing file fetched changes remaining => job.push env file fetched changes remaining
  | .finished result => return .finished result

/-- Some steps. -/
def steps (job : Job) (env : MigrationEnvironment m) : Nat → Batch → m Batch
  | 0, b => return b
  | n + 1, b => do steps job env n (← step job env b)

/-- The steps that are left once the changes are known. -/
def stepsLeft : Batch → Nat
  | .saving _ changes => changes.length + 2
  | .pushing _ _ _ remaining => remaining.length + 1
  | _ => 0

/-- The result of a batch that has finished. -/
def result (job : Job) : Batch → Except MigrationError MigrationReport
  | .finished result => result
  | _ => .ok (job.reportOf .pending 0 [] none 0)

end Batch

/-- Runs a job: the check and the fetch, and then the steps that are left. -/
def Job.run (job : Job) (env : MigrationEnvironment m) :
    m (Except MigrationError MigrationReport) := do
  let fetched ← Batch.steps job env 2 (Batch.start job)
  let done ← Batch.steps job env fetched.stepsLeft fetched
  return done.result job

end Blokwork
