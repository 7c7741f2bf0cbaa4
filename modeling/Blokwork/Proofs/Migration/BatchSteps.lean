import Blokwork.Migration.Batch
import Blokwork.Proofs.Dict
import Blokwork.Proofs.Migration.Space

/-!
# The steps of a batch in memory

`Batch.Step` lists what a step of a batch can do to the memory, and `Batch.step_sound` says that
the list is complete; every invariant of a batch is a case analysis over it. Along a batch that has
the memory for itself, `Batch.Progress` holds: nothing is written until the snapshot is, and from
then on the snapshot holds what the batch changes as it was before (`Job.progress_run` for a whole
run, `Batch.progress_steps` for one that is interrupted after some steps).
-/

namespace Blokwork

/-! ## The store -/

namespace Memory

/-- The bytes of the file that has the snapshot's name. -/
def snapshot? (world : Memory) (target : Target) : Option ByteArray :=
  Dict.get? world.files target.snapshotFile

/-- The entries that a batch for the target is about. -/
def fetched (world : Memory) (target : Target) : List Entry :=
  world.entries.filter (Entry.containsComponent target.component)

/-- The memory with a snapshot of the entries, taken now. -/
def withSnapshot (world : Memory) (target : Target) (entries : List Entry) : Memory :=
  { world with
    files := Dict.insert world.files target.snapshotFile
      (Snapshot.take target world.now entries).text.toUTF8 }

variable {world : Memory} {target : Target}

theorem has_snapshotFile :
    Dict.has world.files target.snapshotFile = (world.snapshot? target).isSome := rfl

theorem snapshot?_withSnapshot (world : Memory) (target : Target) (entries : List Entry) :
    (world.withSnapshot target entries).snapshot? target =
      some (Snapshot.take target world.now entries).text.toUTF8 :=
  Dict.get?_insert_self _ _ _

end Memory

/-- The snapshots of a target are the files of that one name. -/
theorem existingSnapshots_memory (target : Target) (world : Memory) :
    existingSnapshots Memory.store target world =
      (.ok (List.replicate ((Dict.keys world.files).count target.snapshotFile)
        target.snapshotFile), world) := by
  have hfilter : ((Dict.keys world.files).mergeSort (· ≤ ·)).filter target.isSnapshotFile =
      List.replicate ((Dict.keys world.files).count target.snapshotFile) target.snapshotFile := by
    rw [← (List.mergeSort_perm (Dict.keys world.files) (· ≤ ·)).count_eq]
    exact List.filter_eq target.snapshotFile
  have hsort : (List.replicate ((Dict.keys world.files).count target.snapshotFile)
      target.snapshotFile).mergeSort (· ≤ ·) = _ :=
    List.perm_replicate.1 (List.mergeSort_perm _ _)
  rw [← hfilter] at hsort ⊢
  exact congrArg (fun names => (Except.ok names, world)) hsort

/-- There is a snapshot among them when the store has the file. -/
theorem count_snapshotFile_eq_zero {target : Target} {world : Memory} :
    (Dict.keys world.files).count target.snapshotFile = 0 ↔ world.snapshot? target = none := by
  rw [List.count_eq_zero, ← Dict.has_iff_mem_keys, Memory.has_snapshotFile]
  simp

/-- A snapshot is saved where there is none. -/
theorem createSnapshot_memory (target : Target) (entries : List Entry) (world : Memory) :
    createSnapshot Memory.environment target entries world =
      if world.snapshot? target = none then
        (.ok target.snapshotFile, world.withSnapshot target entries)
      else (.error (.conflict target target.snapshotFile), world) := by
  have hnow : Memory.environment.now world = (world.now, world) := rfl
  have hcreate (bytes : ByteArray) :
      Memory.environment.store.create target.snapshotFile bytes world =
        Memory.create target.snapshotFile bytes world := rfl
  rw [createSnapshot, bind_apply, bind_apply, hnow, hcreate, Memory.create,
    Memory.has_snapshotFile]
  cases h : world.snapshot? target <;> rfl

/-! ## Edits -/

/-- A change is the edit of a fetched entry. -/
theorem mem_of_changesOf {transform : EntryTransform} {entries : List Entry}
    {changes : List EntryChange} (h : changesOf transform entries = .ok changes)
    {c : EntryChange} (hc : c ∈ changes) :
    c.before ∈ entries ∧ transform c.before = .ok c.after ∧ c.after.same c.before = false := by
  induction entries generalizing changes with
  | nil => cases h; cases hc
  | cons e rest ih =>
    rw [changesOf] at h
    cases hedit : transform e with
    | error cause => simp [hedit] at h
    | ok updated =>
      cases hrest : changesOf transform rest with
      | error e => simp [hedit, hrest, Except.map] at h
      | ok tail =>
        simp only [hedit, hrest, Except.map, Except.ok.injEq] at h
        by_cases hsame : updated.same e = true
        · rw [if_pos hsame] at h
          obtain ⟨hmem, hrest⟩ := ih hrest (h ▸ hc)
          exact ⟨List.mem_cons_of_mem e hmem, hrest⟩
        · rw [if_neg hsame] at h
          subst h
          rcases List.mem_cons.1 hc with rfl | hc
          · exact ⟨List.mem_cons_self, hedit, by simpa using hsame⟩
          · obtain ⟨hmem, hrest⟩ := ih hrest hc
            exact ⟨List.mem_cons_of_mem e hmem, hrest⟩

/-- An edit that fails is the one of some entry. -/
theorem changesOf_error {transform : EntryTransform} {entries : List Entry} {e : MigrationError}
    (h : changesOf transform entries = .error e) : ∃ id cause, e = .transform id cause := by
  induction entries with
  | nil => cases h
  | cons entry rest ih =>
    rw [changesOf] at h
    cases hedit : transform entry with
    | error cause =>
      simp only [hedit, Except.error.injEq] at h
      exact ⟨_, _, h.symm⟩
    | ok updated =>
      cases hrest : changesOf transform rest with
      | error e' =>
        simp only [hedit, hrest, Except.map, Except.error.injEq] at h
        exact ih (h ▸ hrest)
      | ok tail => simp [hedit, hrest, Except.map] at h

/-! ## Single steps -/

namespace Batch

/-- What a step of a batch can do. -/
inductive Step (job : Job) : Batch → Memory → Batch → Memory → Prop where
  | blocked {world : Memory} (h : world.snapshot? job.target ≠ none) :
    Step job .checking world
      (.finished (.error (.conflict job.target job.target.snapshotFile))) world
  | clear {world : Memory} (h : world.snapshot? job.target = none) :
    Step job .checking world .fetching world
  | unedited {world : Memory} {e : MigrationError}
      (h : changesOf job.transform (world.fetched job.target) = .error e) :
    Step job .fetching world (.finished (.error e)) world
  | previewed {world : Memory} {changes : List EntryChange}
      (h : changesOf job.transform (world.fetched job.target) = .ok changes)
      (hdry : job.dryRun = true) :
    Step job .fetching world
      (.finished (.ok (job.reportOf .pending (world.fetched job.target).length changes none 0)))
      world
  | settled {world : Memory}
      (h : changesOf job.transform (world.fetched job.target) = .ok [])
      (hdry : job.dryRun = false) :
    Step job .fetching world
      (.finished (.ok (job.reportOf .applied (world.fetched job.target).length [] none 0))) world
  | edited {world : Memory} {changes : List EntryChange}
      (h : changesOf job.transform (world.fetched job.target) = .ok changes)
      (hdry : job.dryRun = false) (hsome : changes ≠ []) :
    Step job .fetching world (.saving (world.fetched job.target).length changes) world
  | refused {world : Memory} (fetched : Nat) (changes : List EntryChange)
      (h : world.snapshot? job.target ≠ none) :
    Step job (.saving fetched changes) world
      (.finished (.error (.conflict job.target job.target.snapshotFile))) world
  | saved {world : Memory} (fetched : Nat) (changes : List EntryChange)
      (h : world.snapshot? job.target = none) :
    Step job (.saving fetched changes) world
      (.pushing job.target.snapshotFile fetched changes changes)
      (world.withSnapshot job.target (changes.map EntryChange.before))
  | pushed {world : Memory} (file : String) (fetched : Nat) (changes : List EntryChange)
      {c : EntryChange} {remaining : List EntryChange} {id : String} {entries : List Entry}
      (hid : c.after.id? = some id) (h : replacing? id c.after world.entries = some entries) :
    Step job (.pushing file fetched changes (c :: remaining)) world
      (.pushing file fetched changes remaining)
      { world with entries, putLog := world.putLog ++ [id] }
  | failed {world : Memory} (file : String) (fetched : Nat) (changes : List EntryChange)
      {c : EntryChange} {remaining : List EntryChange} (cause : Failure) (notices : List Notice) :
    Step job (.pushing file fetched changes (c :: remaining)) world
      (.finished (.error (.transport .push job.target c.after.id? cause))) { world with notices }
  | applied {world : Memory} (file : String) (fetched : Nat) (changes : List EntryChange) :
    Step job (.pushing file fetched changes []) world
      (.finished (.ok (job.reportOf .applied fetched changes (some file) changes.length))) world
  | idle {world : Memory} (result : Except MigrationError MigrationReport) :
    Step job (.finished result) world (.finished result) world

variable {job : Job} {b b' : Batch} {world world' : Memory}

theorem step_check (job : Job) (world : Memory) :
    Step job .checking world (job.check Memory.environment world).1
      (job.check Memory.environment world).2 := by
  rw [Job.check, bind_apply, Memory.environment, existingSnapshots_memory]
  cases hcount : (Dict.keys world.files).count job.target.snapshotFile with
  | zero => exact .clear (count_snapshotFile_eq_zero.1 hcount)
  | succ n =>
    refine .blocked fun hnone => ?_
    rw [count_snapshotFile_eq_zero.2 hnone] at hcount
    cases hcount

theorem step_fetch (job : Job) (world : Memory) :
    Step job .fetching world (job.fetch Memory.environment world).1
      (job.fetch Memory.environment world).2 := by
  have hfetch : Memory.environment.api.entriesWith job.target.component world =
    (.ok (world.fetched job.target), world) := rfl
  rw [Job.fetch, bind_apply, hfetch]
  cases h : changesOf job.transform (world.fetched job.target) with
  | error e =>
    simp only [h]
    exact .unedited h
  | ok changes =>
    by_cases hdry : job.dryRun = true
    · simp only [h, hdry, ↓reduceIte]
      exact .previewed h hdry
    · have hdry : job.dryRun = false := by simpa using hdry
      cases changes with
      | nil =>
        simp only [h, hdry, List.isEmpty_nil, Bool.false_eq_true, ↓reduceIte]
        exact .settled h hdry
      | cons c rest =>
        simp only [h, hdry, List.isEmpty_cons, Bool.false_eq_true, ↓reduceIte]
        exact .edited h hdry (List.cons_ne_nil c rest)

theorem step_save (job : Job) (fetched : Nat) (changes : List EntryChange) (world : Memory) :
    Step job (.saving fetched changes) world
      (job.save Memory.environment fetched changes world).1
      (job.save Memory.environment fetched changes world).2 := by
  rw [Job.save, bind_apply, createSnapshot_memory]
  by_cases h : world.snapshot? job.target = none
  · rw [if_pos h]
    exact .saved fetched changes h
  · rw [if_neg h]
    exact .refused fetched changes h

theorem step_push (job : Job) (file : String) (fetched : Nat)
    (changes remaining : List EntryChange) (world : Memory) :
    Step job (.pushing file fetched changes remaining) world
      (job.push Memory.environment file fetched changes remaining world).1
      (job.push Memory.environment file fetched changes remaining world).2 := by
  cases remaining with
  | nil => exact .applied file fetched changes
  | cons c remaining =>
    rw [Job.push, bind_apply]
    have hput : Memory.environment.api.put c.after world = Memory.put c.after world := rfl
    rw [hput]
    rcases Memory.put_cases c.after world with ⟨cause, hfail⟩ | ⟨id, entries, hid, -, h, hok⟩
    · rw [hfail]
      exact .failed file fetched changes cause _
    · rw [hok]
      exact .pushed file fetched changes hid h

/-- Every step is one of those. -/
theorem step_sound (job : Job) (b : Batch) (world : Memory) :
    Step job b world (Batch.step job Memory.environment b world).1
      (Batch.step job Memory.environment b world).2 := by
  cases b with
  | checking => exact step_check job world
  | fetching => exact step_fetch job world
  | saving fetched changes => exact step_save job fetched changes world
  | pushing file fetched changes remaining =>
    exact step_push job file fetched changes remaining world
  | finished result => exact .idle result

/-- A file that is there is not written again. -/
theorem Step.file_kept (h : Step job b world b' world') {file : String} {bytes : ByteArray}
    (hfile : Dict.get? world.files file = some bytes) :
    Dict.get? world'.files file = some bytes := by
  cases h with
  | saved fetched changes hnew =>
    have hne : job.target.snapshotFile ≠ file := by
      rintro rfl
      rw [Memory.snapshot?, hfile] at hnew
      cases hnew
    exact (Dict.get?_insert_of_ne _ hne).trans hfile
  | _ => exact hfile

/-- How many steps a batch took at least. -/
def age : Batch → Nat
  | .checking => 0
  | .fetching => 1
  | .saving .. => 2
  | _ => 3

theorem Step.age_le (h : Step job b world b' world') : min 3 (b.age + 1) ≤ b'.age := by
  cases h <;> simp [age]

/-! ## Runs of steps -/

theorem steps_succ (job : Job) (n : Nat) (b : Batch) (world : Memory) :
    Batch.steps job Memory.environment (n + 1) b world =
      Batch.steps job Memory.environment n (Batch.step job Memory.environment b world).1
        (Batch.step job Memory.environment b world).2 := rfl

/-- What every step preserves, a run of steps preserves. -/
theorem steps_preserves {P : Batch → Memory → Prop}
    (hstep : ∀ b world b' world', P b world → Step job b world b' world' → P b' world') (n : Nat)
    (h : P b world) :
    P (Batch.steps job Memory.environment n b world).1
      (Batch.steps job Memory.environment n b world).2 := by
  induction n generalizing b world with
  | zero => exact h
  | succ n ih =>
    rw [steps_succ]
    exact ih (hstep _ _ _ _ h (step_sound job b world))

/-- What every step preserves, a whole run preserves. -/
theorem run_preserves {P : Batch → Memory → Prop}
    (hstep : ∀ b world b' world', P b world → Step job b world b' world' → P b' world')
    (h : P (Batch.start job) world) :
    ∃ b, (job.run Memory.environment world).1 = b.result job ∧
      P b (job.run Memory.environment world).2 := by
  have hfetched := steps_preserves hstep 2 h
  exact ⟨_, rfl, steps_preserves hstep _ hfetched⟩

/-! ## A batch that has the memory for itself -/

/-- The changes that are left to be pushed. -/
def remaining : Batch → List EntryChange
  | .pushing _ _ _ remaining => remaining
  | _ => []

/-- Nothing is written yet; a snapshot that is about to be saved is that of the changes. -/
structure Unwritten (job : Job) (before : Memory) (b : Batch) (world : Memory) : Prop where
  entries : world.entries = before.entries
  files : world.files = before.files
  now : world.now = before.now
  remaining : b.remaining = []
  edit : ∀ fetched changes, b = .saving fetched changes →
    changesOf job.transform (before.fetched job.target) = .ok changes

/-- The snapshot is written, and some of the changes may be pushed. -/
structure Written (job : Job) (before : Memory) (changes : List EntryChange) (b : Batch)
    (world : Memory) : Prop where
  edit : changesOf job.transform (before.fetched job.target) = .ok changes
  new : before.snapshot? job.target = none
  files : world.files =
    (before.withSnapshot job.target (changes.map EntryChange.before)).files
  entries : Overwritten (changes.map EntryChange.after) before.entries world.entries
  remaining : b.remaining ⊆ changes

/-- How far a batch got with the memory that it started in. -/
def Progress (job : Job) (before : Memory) (b : Batch) (world : Memory) : Prop :=
  Unwritten job before b world ∨ ∃ changes, Written job before changes b world

variable {before : Memory} {changes : List EntryChange}

theorem Unwritten.fetched (h : Unwritten job before b world) (target : Target) :
    world.fetched target = before.fetched target := by
  rw [Memory.fetched, h.entries, Memory.fetched]

/-- A step that writes nothing and leads to no save. -/
theorem Unwritten.idle (h : Unwritten job before b world) (hremaining : b'.remaining = [])
    (hsaving : ∀ fetched changes, b' ≠ .saving fetched changes) :
    Unwritten job before b' world :=
  { h with
    remaining := hremaining
    edit := fun fetched changes heq => absurd heq (hsaving fetched changes) }

/-- A step that writes nothing after the snapshot. -/
theorem Written.idle (h : Written job before changes b world)
    (hremaining : b'.remaining ⊆ b.remaining) : Written job before changes b' world :=
  { h with remaining := List.Subset.trans hremaining h.remaining }

theorem Written.snapshot? (h : Written job before changes b world) :
    world.snapshot? job.target =
      some (Snapshot.take job.target before.now (changes.map EntryChange.before)).text.toUTF8 := by
  rw [Memory.snapshot?, h.files]
  exact Memory.snapshot?_withSnapshot before job.target _

/-- The first write of a batch is its snapshot. -/
theorem Unwritten.step (h : Unwritten job before b world) (hstep : Step job b world b' world') :
    Progress job before b' world' := by
  cases hstep with
  | blocked | clear | unedited | previewed | settled | refused | applied | idle =>
    exact .inl (h.idle rfl (by nofun))
  | edited hedit =>
    refine .inl { h with remaining := rfl, edit := ?_ }
    rintro _ _ ⟨⟩
    rwa [← h.fetched]
  | saved fetched changes hnew =>
    refine .inr ⟨changes, ⟨h.edit fetched changes rfl, ?_, ?_, ?_, List.Subset.refl changes⟩⟩
    · rwa [Memory.snapshot?, ← h.files]
    · simp only [Memory.withSnapshot, h.files, h.now]
    · have hentries : (world.withSnapshot job.target (changes.map EntryChange.before)).entries =
          before.entries := h.entries
      rw [hentries]
      exact Overwritten.refl _ _
  | pushed | failed => cases h.remaining

/-- After the snapshot, only changes of it are pushed. -/
theorem Written.step (h : Written job before changes b world)
    (hstep : Step job b world b' world') : Written job before changes b' world' := by
  cases hstep with
  | blocked | clear | unedited | previewed | settled | edited | refused | applied | idle =>
    exact h.idle (List.nil_subset _)
  | saved _ _ hnew =>
    rw [h.snapshot?] at hnew
    cases hnew
  | @pushed _ _ _ _ c remaining id entries hid hput =>
    have hc : c.after ∈ changes.map EntryChange.after :=
      List.mem_map_of_mem (h.remaining List.mem_cons_self)
    exact { h with
      entries := h.entries.push hc hid hput
      remaining := List.Subset.trans (List.subset_cons_self c remaining) h.remaining }
  | failed => exact { h with remaining := List.nil_subset _ }

theorem Progress.step (h : Progress job before b world) (hstep : Step job b world b' world') :
    Progress job before b' world' := by
  rcases h with h | ⟨changes, h⟩
  · exact h.step hstep
  · exact .inr ⟨changes, h.step hstep⟩

theorem Progress.start (job : Job) (world : Memory) :
    Progress job world (Batch.start job) world := by
  refine .inl ⟨rfl, rfl, rfl, ?_, ?_⟩
  all_goals
    unfold Batch.start
    split <;> first | rfl | nofun

/-- Where a batch stands after some steps. -/
theorem progress_steps (job : Job) (world : Memory) (n : Nat) :
    Progress job world (Batch.steps job Memory.environment n (Batch.start job) world).1
      (Batch.steps job Memory.environment n (Batch.start job) world).2 :=
  steps_preserves (fun _ _ _ _ => Progress.step) n (Progress.start job world)

/-! ## Steps that are known -/

/-- A step is known when all that it can do is the same. -/
theorem step_eq {r : Batch × Memory}
    (h : ∀ b' world', Step job b world b' world' → (b', world') = r) :
    Batch.step job Memory.environment b world = r :=
  h _ _ (step_sound job b world)

theorem step_blocked (h : world.snapshot? job.target ≠ none) :
    Batch.step job Memory.environment .checking world =
      (.finished (.error (.conflict job.target job.target.snapshotFile)), world) := by
  refine step_eq fun b' world' hstep => ?_
  cases hstep with
  | blocked => rfl
  | clear hnone => exact absurd hnone h

theorem step_clear (h : world.snapshot? job.target = none) :
    Batch.step job Memory.environment .checking world = (.fetching, world) := by
  refine step_eq fun b' world' hstep => ?_
  cases hstep with
  | blocked hsome => exact absurd h hsome
  | clear => rfl

theorem step_edited (h : changesOf job.transform (world.fetched job.target) = .ok changes)
    (hdry : job.dryRun = false) (hsome : changes ≠ []) :
    Batch.step job Memory.environment .fetching world =
      (.saving (world.fetched job.target).length changes, world) := by
  refine step_eq fun b' world' hstep => ?_
  cases hstep with
  | unedited hedit => cases h.symm.trans hedit
  | previewed _ hdry' => cases hdry.symm.trans hdry'
  | settled hedit =>
    cases h.symm.trans hedit
    cases hsome rfl
  | edited hedit =>
    cases h.symm.trans hedit
    rfl

theorem step_saved (fetched : Nat) (changes : List EntryChange)
    (h : world.snapshot? job.target = none) :
    Batch.step job Memory.environment (.saving fetched changes) world =
      (.pushing job.target.snapshotFile fetched changes changes,
        world.withSnapshot job.target (changes.map EntryChange.before)) := by
  refine step_eq fun b' world' hstep => ?_
  cases hstep with
  | refused _ _ hsome => exact absurd h hsome
  | saved => rfl

/-- A push that is not refused replaces the entry of its identifier. -/
theorem step_pushed (file : String) (fetched : Nat) (changes : List EntryChange) {c : EntryChange}
    {rest : List EntryChange} {id : String} {entries : List Entry} (hid : c.after.id? = some id)
    (hrefusing : id ∉ world.refusing) (h : replacing? id c.after world.entries = some entries) :
    Batch.step job Memory.environment (.pushing file fetched changes (c :: rest)) world =
      (.pushing file fetched changes rest,
        { world with entries, putLog := world.putLog ++ [id] }) := by
  have hput : Memory.environment.api.put c.after world = Memory.put c.after world := rfl
  rw [step, Job.push, bind_apply, hput, Memory.put_of_replacing? hid hrefusing h]
  rfl

/-- A batch that reports a conflict found a snapshot. -/
structure ConflictFounded (job : Job) (before : Memory) (b : Batch) (world : Memory) : Prop where
  early : b.age < 3 → world.files = before.files
  founded : ∀ target file, b = .finished (.error (.conflict target file)) →
    before.snapshot? job.target ≠ none

theorem ConflictFounded.step (h : ConflictFounded job before b world)
    (hstep : Step job b world b' world') : ConflictFounded job before b' world' := by
  cases hstep with
  | blocked hsome | refused _ _ hsome =>
    refine ⟨nofun, fun _ _ _ => ?_⟩
    rwa [Memory.snapshot?, ← h.early (by simp [age])]
  | clear | edited => exact ⟨fun _ => h.early (by simp [age]), nofun⟩
  | unedited hedit =>
    obtain ⟨id, cause, rfl⟩ := changesOf_error hedit
    exact ⟨nofun, nofun⟩
  | previewed | settled | saved | pushed | failed | applied => exact ⟨nofun, nofun⟩
  | idle => exact h

theorem ConflictFounded.start (job : Job) (world : Memory) :
    ConflictFounded job world (Batch.start job) world := by
  refine ⟨fun _ => rfl, fun target file hconflict => ?_⟩
  unfold Batch.start at hconflict
  split at hconflict <;> cases hconflict

end Batch

/-- Where a batch stands after its run. -/
theorem Job.progress_run (job : Job) (world : Memory) :
    ∃ b, (job.run Memory.environment world).1 = b.result job ∧
      Batch.Progress job world b (job.run Memory.environment world).2 :=
  Batch.run_preserves (fun _ _ _ _ => Batch.Progress.step) (Batch.Progress.start job world)

namespace Job

variable (job : Job) {world : Memory} {changes : List EntryChange}

/-- A run is stopped by a snapshot that is there. -/
theorem run_blocked (hdry : job.dryRun = false) (h : world.snapshot? job.target ≠ none) :
    job.run Memory.environment world =
      (.error (.conflict job.target job.target.snapshotFile), world) := by
  have hsteps : Batch.steps job Memory.environment 2 (Batch.start job) world =
      (.finished (.error (.conflict job.target job.target.snapshotFile)), world) := by
    rw [Batch.start, hdry, if_neg Bool.false_ne_true, Batch.steps_succ, Batch.step_blocked h]
    rfl
  rw [run, bind_apply, hsteps]
  rfl

/-- A run that has something to change writes its snapshot, and goes on with the pushes. -/
theorem run_saved (hdry : job.dryRun = false) (hnew : world.snapshot? job.target = none)
    (hedit : changesOf job.transform (world.fetched job.target) = .ok changes)
    (hsome : changes ≠ []) :
    (job.run Memory.environment world).2 =
      (Batch.steps job Memory.environment (changes.length + 1)
        (.pushing job.target.snapshotFile (world.fetched job.target).length changes changes)
        (world.withSnapshot job.target (changes.map EntryChange.before))).2 := by
  have hsteps : Batch.steps job Memory.environment 2 (Batch.start job) world =
      (.saving (world.fetched job.target).length changes, world) := by
    rw [Batch.start, hdry, if_neg Bool.false_ne_true, Batch.steps_succ, Batch.step_clear hnew,
      Batch.steps_succ, Batch.step_edited hedit hdry hsome]
    rfl
  rw [run, bind_apply, hsteps]
  dsimp only [Batch.stepsLeft]
  rw [bind_apply, Batch.steps_succ, Batch.step_saved _ _ hnew]
  rfl

/-- From the snapshot on, only what is saved is pushed. -/
theorem run_written (hdry : job.dryRun = false) (hnew : world.snapshot? job.target = none)
    (hedit : changesOf job.transform (world.fetched job.target) = .ok changes)
    (hsome : changes ≠ []) :
    ∃ b, Batch.Written job world changes b (job.run Memory.environment world).2 := by
  have hsaved : Batch.Written job world changes
      (.pushing job.target.snapshotFile (world.fetched job.target).length changes changes)
      (world.withSnapshot job.target (changes.map EntryChange.before)) :=
    ⟨hedit, hnew, rfl, Overwritten.refl _ _, List.Subset.refl changes⟩
  have hpushed := Batch.steps_preserves (fun _ _ _ _ => Batch.Written.step) (changes.length + 1)
    hsaved
  rw [run_saved job hdry hnew hedit hsome]
  exact ⟨_, hpushed⟩

end Job

end Blokwork
