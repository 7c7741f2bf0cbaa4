import Blokwork.Proofs.Migration.Journal

/-!
# The exits of a batch

What a batch that is no dry run has done when it ends, for every way in which it can end. The
memory is one that also notes every push (`Journal`), and the fetch of the entries may fail.

`Job.Exit` lists the exits with the exact condition of each and the exact state it leaves;
`exit_run` says that every run ends in one of them. The exits before the snapshot leave everything
as it was. From the snapshot on there is exactly one new file, whose document has the changed
entries as they were (`Snapshot.Holds`), and the pushes are those of the changed entries in the
order of the fetch, up to the first that fails.
-/

namespace Blokwork

/-! ## The changed entries -/

/-- The entries that a transform changes, in order. -/
def changedBy (transform : EntryTransform) (entries : List Entry) : List EntryChange :=
  entries.filterMap fun e =>
    match transform e with
    | .ok u => if u.same e then none else some ⟨e, u⟩
    | .error _ => none

section Changes

variable {transform : EntryTransform} {entries : List Entry}

theorem mem_changedBy {c : EntryChange} :
    c ∈ changedBy transform entries ↔
      c.before ∈ entries ∧ transform c.before = .ok c.after ∧ c.after.same c.before = false := by
  simp only [changedBy, List.mem_filterMap]
  constructor
  · rintro ⟨e, he, hc⟩
    cases hedit : transform e with
    | error cause => simp [hedit] at hc
    | ok u =>
      cases hsame : u.same e with
      | true => simp [hedit, hsame] at hc
      | false =>
        simp only [hedit, hsame, Bool.false_eq_true, ↓reduceIte, Option.some.injEq] at hc
        subst hc
        exact ⟨he, hedit, hsame⟩
  · rintro ⟨hbefore, hedit, hsame⟩
    exact ⟨c.before, hbefore, by simp [hedit, hsame]⟩

/-- When every edit succeeds, the changes are those of the entries that are changed. -/
theorem changesOf_eq_ok {changes : List EntryChange}
    (h : changesOf transform entries = .ok changes) :
    (∀ e ∈ entries, ∃ u, transform e = .ok u) ∧ changes = changedBy transform entries := by
  induction entries generalizing changes with
  | nil =>
    cases h
    exact ⟨nofun, rfl⟩
  | cons e rest ih =>
    rw [changesOf] at h
    cases hedit : transform e with
    | error cause => simp [hedit] at h
    | ok u =>
      cases hrest : changesOf transform rest with
      | error e' => simp [hedit, hrest, Except.map] at h
      | ok tail =>
        obtain ⟨hall, rfl⟩ := ih hrest
        simp only [hedit, hrest, Except.map, Except.ok.injEq] at h
        refine ⟨List.forall_mem_cons.2 ⟨⟨u, hedit⟩, hall⟩, ?_⟩
        subst h
        by_cases hsame : u.same e = true <;> simp [changedBy, hedit, hsame]

/-- An edit that fails is the first one that does. -/
theorem changesOf_eq_error {failure : MigrationError}
    (h : changesOf transform entries = .error failure) :
    ∃ earlier e later cause, entries = earlier ++ e :: later ∧
      (∀ d ∈ earlier, ∃ u, transform d = .ok u) ∧ transform e = .error cause ∧
      failure = .transform e.displayId cause := by
  induction entries with
  | nil => cases h
  | cons e rest ih =>
    rw [changesOf] at h
    cases hedit : transform e with
    | error cause =>
      simp only [hedit, Except.error.injEq] at h
      exact ⟨[], e, rest, cause, rfl, List.forall_mem_nil _, hedit, h.symm⟩
    | ok u =>
      cases hrest : changesOf transform rest with
      | ok tail => simp [hedit, hrest, Except.map] at h
      | error e' =>
        simp only [hedit, hrest, Except.map, Except.error.injEq] at h
        obtain ⟨earlier, d, later, cause, rfl, hearlier, hd⟩ := ih (h ▸ hrest)
        exact ⟨e :: earlier, d, later, cause, rfl,
          List.forall_mem_cons.2 ⟨⟨u, hedit⟩, hearlier⟩, hd⟩

theorem changesOf_of_ok (h : ∀ e ∈ entries, ∃ u, transform e = .ok u) :
    changesOf transform entries = .ok (changedBy transform entries) := by
  cases hedit : changesOf transform entries with
  | ok changes => rw [(changesOf_eq_ok hedit).2]
  | error failure =>
    obtain ⟨earlier, e, later, cause, rfl, -, he, -⟩ := changesOf_eq_error hedit
    obtain ⟨u, hu⟩ := h e (List.mem_append_right earlier List.mem_cons_self)
    cases he.symm.trans hu

theorem changesOf_of_error {earlier later : List Entry} {e : Entry} {cause : Failure}
    (hearlier : ∀ d ∈ earlier, ∃ u, transform d = .ok u) (h : transform e = .error cause) :
    changesOf transform (earlier ++ e :: later) = .error (.transform e.displayId cause) := by
  induction earlier with
  | nil => rw [List.nil_append, changesOf, h]
  | cons d rest ih =>
    obtain ⟨⟨u, hu⟩, hrest⟩ := List.forall_mem_cons.1 hearlier
    rw [List.cons_append, changesOf, hu, ih hrest]
    rfl

end Changes

/-! ## Exits -/

/-- The entries are pushed one after the other, and no push fails. -/
inductive Pushed : List Entry → Memory → Memory → Prop where
  | nil (world : Memory) : Pushed [] world world
  | cons {e : Entry} {rest : List Entry} {world next after : Memory}
      (h : Memory.put e world = (.ok e, next)) (hrest : Pushed rest next after) :
    Pushed (e :: rest) world after

/-- Pushes write no files. -/
theorem Pushed.files {entries : List Entry} {world after : Memory}
    (h : Pushed entries world after) :
    after.files = world.files := by
  induction h with
  | nil => rfl
  | @cons e _ world _ _ hput _ ih =>
    rcases Memory.put_cases e world with ⟨cause, hfail⟩ | ⟨id, entries, -, -, -, hok⟩
    · cases hput.symm.trans hfail
    · cases hput.symm.trans hok
      exact ih

/-- Pushes that succeed change no identifier, and are logged in order. -/
theorem Pushed.frame {entries : List Entry} {world after : Memory}
    (h : Pushed entries world after) :
    after.refusing = world.refusing ∧
      after.entries.map Entry.id? = world.entries.map Entry.id? ∧
      after.putLog = world.putLog ++ entries.map Entry.displayId := by
  induction h with
  | nil => simp
  | cons hput _ ih =>
    obtain ⟨hrefusing, hids, hlog⟩ := Memory.frame_of_put hput
    refine ⟨ih.1.trans hrefusing, ih.2.1.trans hids, ?_⟩
    rw [ih.2.2, hlog, List.append_assoc, List.map_cons, List.singleton_append]

/-- A snapshot that is new stands behind the files that were there, and holds the entries. -/
theorem Memory.files_withSnapshot {world : Memory} {target : Target}
    (hnew : world.snapshot? target = none) (entries : List Entry) :
    ∃ bytes, (world.withSnapshot target entries).files =
        world.files ++ [(target.snapshotFile, bytes)] ∧
      Snapshot.Holds target world.now entries bytes := by
  refine ⟨_, Dict.insert_of_not_mem _ ?_, Snapshot.holds_take target world.now entries⟩
  rw [← Dict.has_iff_mem_keys, Bool.not_eq_true, Dict.has_eq_false]
  exact hnew

namespace Job

/-- The way in which a run ends: its result, and the memory and the pushes it leaves. An outage is
the reason for which the fetch fails. -/
inductive Exit (job : Job) (outage : Option Failure) (world : Memory) :
    Except MigrationError MigrationReport → Journal → Prop where
  /-- There is a snapshot already. -/
  | conflict (h : world.snapshot? job.target ≠ none) :
    Exit job outage world (.error (.conflict job.target job.target.snapshotFile)) ⟨world, []⟩
  /-- The entries cannot be fetched. -/
  | unfetched (hnew : world.snapshot? job.target = none) {cause : Failure}
      (h : outage = some cause) :
    Exit job outage world (.error (.transport .fetch job.target none cause)) ⟨world, []⟩
  /-- The edit of an entry fails, and no edit before it does. -/
  | unedited (hnew : world.snapshot? job.target = none) (hfetch : outage = none)
      {earlier later : List Entry} {e : Entry} {cause : Failure}
      (hfetched : world.fetched job.target = earlier ++ e :: later)
      (hearlier : ∀ d ∈ earlier, ∃ u, job.transform d = .ok u)
      (h : job.transform e = .error cause) :
    Exit job outage world (.error (.transform e.displayId cause)) ⟨world, []⟩
  /-- No entry is changed. -/
  | unchanged (hnew : world.snapshot? job.target = none) (hfetch : outage = none)
      (hedit : ∀ e ∈ world.fetched job.target, ∃ u, job.transform e = .ok u)
      (h : changedBy job.transform (world.fetched job.target) = []) :
    Exit job outage world (.ok
      { target := job.target, state := .applied, fetched := (world.fetched job.target).length,
        changed := [], snapshotFile := none, pushed := 0 }) ⟨world, []⟩
  /-- A push fails. The one new file holds all changed entries as they were. The changes before the
  push are pushed and those behind it are not; the push itself does nothing, but is noted. -/
  | unpushed (hnew : world.snapshot? job.target = none) (hfetch : outage = none)
      (hedit : ∀ e ∈ world.fetched job.target, ∃ u, job.transform e = .ok u)
      {changes pushed left : List EntryChange} {c : EntryChange}
      (hchanges : changes = changedBy job.transform (world.fetched job.target))
      (hsplit : changes = pushed ++ c :: left) {stopped : Memory} {cause : Failure}
      (hpushed : Pushed (pushed.map EntryChange.after)
        (world.withSnapshot job.target (changes.map EntryChange.before)) stopped)
      (h : Memory.put c.after stopped = (.error cause, stopped)) {bytes : ByteArray}
      (hfiles : stopped.files = world.files ++ [(job.target.snapshotFile, bytes)])
      (hholds : Snapshot.Holds job.target world.now (changes.map EntryChange.before) bytes) :
    Exit job outage world (.error (.transport .push job.target c.after.id? cause))
      ⟨{ stopped with notices := stopped.notices ++
          [.pushFailed job.target.display c.after.displayId pushed.length (left.length + 1)] },
        (pushed ++ [c]).map EntryChange.after⟩
  /-- All changes are pushed, and reported under their identifiers. The one new file holds all
  changed entries as they were. -/
  | applied (hnew : world.snapshot? job.target = none) (hfetch : outage = none)
      (hedit : ∀ e ∈ world.fetched job.target, ∃ u, job.transform e = .ok u)
      {changes : List EntryChange}
      (hchanges : changes = changedBy job.transform (world.fetched job.target))
      (hsome : changes ≠ []) {after : Memory}
      (hpushed : Pushed (changes.map EntryChange.after)
        (world.withSnapshot job.target (changes.map EntryChange.before)) after)
      {bytes : ByteArray}
      (hfiles : after.files = world.files ++ [(job.target.snapshotFile, bytes)])
      (hholds : Snapshot.Holds job.target world.now (changes.map EntryChange.before) bytes)
      {report : MigrationReport}
      (hreport : report =
        { target := job.target, state := .applied, fetched := (world.fetched job.target).length,
          changed := changes.map fun c => c.after.displayId,
          snapshotFile := some job.target.snapshotFile, pushed := changes.length })
      (hcount : report.pushed = report.changed.length) :
    Exit job outage world (.ok report) ⟨after, changes.map EntryChange.after⟩

end Job

/-! ## The run -/

namespace Journal

/-- A migration in memory, with its pushes noted; with an outage the entries cannot be fetched. -/
def environmentWith (outage : Option Failure) : MigrationEnvironment (StateM Journal) where
  api := { api with
    entriesWith := fun component =>
      match outage with
      | some cause => return .error cause
      | none => api.entriesWith component }
  store := store
  report := environment.report
  now := environment.now

end Journal

section Run

variable (job : Job) (outage : Option Failure) {world : Memory} {pushed : List Entry}

theorem check_journal (world : Memory) (pushed : List Entry) :
    job.check (Journal.environmentWith outage) ⟨world, pushed⟩ =
      (if world.snapshot? job.target = none then .fetching
        else .finished (.error (.conflict job.target job.target.snapshotFile)),
          ⟨world, pushed⟩) := by
  have hstore : (Journal.environmentWith outage).store = Journal.store := rfl
  rw [Job.check, bind_apply, hstore, Journal.existingSnapshots_journal, existingSnapshots_memory]
  dsimp only
  cases hcount : (Dict.keys world.files).count job.target.snapshotFile with
  | zero => rw [if_pos (count_snapshotFile_eq_zero.1 hcount)]; rfl
  | succ n =>
    have hsome : world.snapshot? job.target ≠ none := fun hnone => by
      rw [count_snapshotFile_eq_zero.2 hnone] at hcount
      cases hcount
    rw [if_neg hsome]
    rfl

/-- The entries are fetched and edited without a trace. -/
theorem fetch_journal (hdry : job.dryRun = false) (j : Journal) :
    job.fetch (Journal.environmentWith none) j =
      (match changesOf job.transform (j.world.fetched job.target) with
        | .error e => .finished (.error e)
        | .ok [] =>
          .finished (.ok (job.reportOf .applied (j.world.fetched job.target).length [] none 0))
        | .ok (c :: rest) => .saving (j.world.fetched job.target).length (c :: rest), j) := by
  have hfetch : (Journal.environmentWith none).api.entriesWith job.target.component j =
    (.ok (j.world.fetched job.target), j) := rfl
  rw [Job.fetch, bind_apply, hfetch]
  rcases h : changesOf job.transform (j.world.fetched job.target) with e | _ | ⟨c, rest⟩ <;>
    simp only [h, hdry] <;> rfl

theorem save_journal (hnew : world.snapshot? job.target = none) (fetched : Nat)
    (changes : List EntryChange) :
    job.save (Journal.environmentWith outage) fetched changes ⟨world, pushed⟩ =
      (.pushing job.target.snapshotFile fetched changes changes,
        ⟨world.withSnapshot job.target (changes.map EntryChange.before), pushed⟩) := by
  have hnow : (Journal.environmentWith outage).now ⟨world, pushed⟩ =
    (world.now, ⟨world, pushed⟩) := rfl
  have hcreate (bytes : ByteArray) :
      (Journal.environmentWith outage).store.create job.target.snapshotFile bytes ⟨world, pushed⟩ =
        ((Memory.create job.target.snapshotFile bytes world).1,
          ⟨(Memory.create job.target.snapshotFile bytes world).2, pushed⟩) := rfl
  rw [Job.save, bind_apply, createSnapshot, bind_apply, bind_apply, hnow, hcreate, Memory.create,
    Memory.has_snapshotFile, hnew]
  rfl

/-- How the pushes of the remaining changes end. -/
inductive PushEnd (file : String) (fetched : Nat) (changes remaining : List EntryChange)
    (world : Memory) (pushed : List Entry) : Batch → Journal → Prop where
  | failed {done left : List EntryChange} {c : EntryChange}
      (hsplit : remaining = done ++ c :: left)
      {stopped : Memory} (hpushed : Pushed (done.map EntryChange.after) world stopped)
      {cause : Failure} (h : Memory.put c.after stopped = (.error cause, stopped)) :
    PushEnd file fetched changes remaining world pushed
      (.finished (.error (.transport .push job.target c.after.id? cause)))
      ⟨{ stopped with notices := stopped.notices ++ [.pushFailed job.target.display
          c.after.displayId (changes.length - (left.length + 1)) (left.length + 1)] },
        pushed ++ (done ++ [c]).map EntryChange.after⟩
  | complete {after : Memory} (hpushed : Pushed (remaining.map EntryChange.after) world after) :
    PushEnd file fetched changes remaining world pushed
      (.finished (.ok (job.reportOf .applied fetched changes (some file) changes.length)))
      ⟨after, pushed ++ remaining.map EntryChange.after⟩

theorem steps_finished (result : Except MigrationError MigrationReport) (n : Nat) (j : Journal) :
    Batch.steps job (Journal.environmentWith outage) n (.finished result) j =
      (.finished result, j) := by
  induction n with
  | zero => rfl
  | succ n ih => exact ih

theorem steps_succ_journal (n : Nat) (b : Batch) (j : Journal) :
    Batch.steps job (Journal.environmentWith outage) (n + 1) b j =
      Batch.steps job (Journal.environmentWith outage) n
        (Batch.step job (Journal.environmentWith outage) b j).1
        (Batch.step job (Journal.environmentWith outage) b j).2 := rfl

/-- One more push in front. -/
theorem PushEnd.cons {file : String} {fetched : Nat} {changes rest : List EntryChange}
    {c : EntryChange} {next : Memory} {b : Batch} {j : Journal}
    (hput : Memory.put c.after world = (.ok c.after, next))
    (h : PushEnd job file fetched changes rest next (pushed ++ [c.after]) b j) :
    PushEnd job file fetched changes (c :: rest) world pushed b j := by
  cases h with
  | @failed done left d hsplit stopped hpushed cause hfail =>
    have hsplit' : c :: rest = (c :: done) ++ d :: left := congrArg (c :: ·) hsplit
    have hend : PushEnd job file fetched changes (c :: rest) world pushed _ _ :=
      .failed hsplit' (.cons hput hpushed) hfail
    simpa using hend
  | complete hpushed =>
    have hend : PushEnd job file fetched changes (c :: rest) world pushed _ _ :=
      .complete (.cons hput hpushed)
    simpa using hend

/-- The remaining changes are pushed in order, up to the first push that fails. -/
theorem steps_pushing (file : String) (fetched : Nat) (changes remaining : List EntryChange)
    (world : Memory) (pushed : List Entry) :
    PushEnd job file fetched changes remaining world pushed
      (Batch.steps job (Journal.environmentWith outage) (remaining.length + 1)
        (.pushing file fetched changes remaining) ⟨world, pushed⟩).1
      (Batch.steps job (Journal.environmentWith outage) (remaining.length + 1)
        (.pushing file fetched changes remaining) ⟨world, pushed⟩).2 := by
  induction remaining generalizing world pushed with
  | nil =>
    have hend : PushEnd job file fetched changes [] world pushed _ _ :=
      .complete (Pushed.nil world)
    rwa [List.map_nil, List.append_nil] at hend
  | cons c rest ih =>
    have hput : (Journal.environmentWith outage).api.put c.after ⟨world, pushed⟩ =
        ((Memory.put c.after world).1, ⟨(Memory.put c.after world).2, pushed ++ [c.after]⟩) := rfl
    rw [List.length_cons, steps_succ_journal, Batch.step, Job.push, bind_apply, hput]
    rcases Memory.put_cases c.after world with ⟨cause, hfail⟩ | ⟨id, entries, -, -, -, hok⟩
    · have hsplit : c :: rest = [] ++ c :: rest := rfl
      have hend : PushEnd job file fetched changes (c :: rest) world pushed _ _ :=
        .failed hsplit (Pushed.nil world) hfail
      rw [hfail]
      exact steps_finished job outage _ (rest.length + 1) _ ▸ hend
    · rw [hok]
      exact (ih _ _).cons job hok

/-- A step does in the memory what it does in the memory alone. -/
theorem step_world (b : Batch) (j : Journal) :
    Batch.step job Memory.environment b j.world =
      ((Batch.step job (Journal.environmentWith none) b j).1,
        (Batch.step job (Journal.environmentWith none) b j).2.world) := by
  cases b with
  | checking =>
    obtain ⟨world, pushed⟩ := j
    by_cases hnew : world.snapshot? job.target = none
    · rw [Batch.step_clear hnew, Batch.step, check_journal, if_pos hnew]
    · rw [Batch.step_blocked hnew, Batch.step, check_journal, if_neg hnew]
  | fetching =>
    have h : Memory.environment.api.entriesWith job.target.component j.world =
      (.ok (j.world.fetched job.target), j.world) := rfl
    have h' : (Journal.environmentWith none).api.entriesWith job.target.component j =
      (.ok (j.world.fetched job.target), j) := rfl
    rw [Batch.step, Batch.step, Job.fetch, bind_apply, h, Job.fetch, bind_apply, h']
    dsimp only
    cases changesOf job.transform (j.world.fetched job.target) with
    | error e => rfl
    | ok changes =>
      dsimp only
      split
      · rfl
      · split <;> rfl
  | saving fetched changes =>
    have h (bytes : ByteArray) : Memory.environment.store.create job.target.snapshotFile bytes
        j.world = Memory.create job.target.snapshotFile bytes j.world := rfl
    have h' (bytes : ByteArray) : (Journal.environmentWith none).store.create
        job.target.snapshotFile bytes j =
          ((Memory.create job.target.snapshotFile bytes j.world).1,
            ⟨(Memory.create job.target.snapshotFile bytes j.world).2, j.pushed⟩) := rfl
    have hnow : Memory.environment.now j.world = (j.world.now, j.world) := rfl
    have hnow' : (Journal.environmentWith none).now j = (j.world.now, j) := rfl
    rw [Batch.step, Batch.step, Job.save, Job.save, bind_apply, bind_apply, createSnapshot,
      createSnapshot, bind_apply, bind_apply, bind_apply, bind_apply, hnow, hnow', h, h']
    generalize Memory.create job.target.snapshotFile _ j.world = r
    obtain ⟨_ | _ | _, after⟩ := r <;> rfl
  | pushing file fetched changes remaining =>
    cases remaining with
    | nil => rfl
    | cons c rest =>
      have h : Memory.environment.api.put c.after j.world = Memory.put c.after j.world := rfl
      have h' : (Journal.environmentWith none).api.put c.after j =
        ((Memory.put c.after j.world).1,
          ⟨(Memory.put c.after j.world).2, j.pushed ++ [c.after]⟩) := rfl
      rw [Batch.step, Batch.step, Job.push, bind_apply, h, Job.push, bind_apply, h']
      generalize Memory.put c.after j.world = r
      obtain ⟨_ | _, after⟩ := r <;> rfl
  | finished result => rfl

theorem steps_world (n : Nat) (b : Batch) (j : Journal) :
    Batch.steps job Memory.environment n b j.world =
      ((Batch.steps job (Journal.environmentWith none) n b j).1,
        (Batch.steps job (Journal.environmentWith none) n b j).2.world) := by
  induction n generalizing b j with
  | zero => rfl
  | succ n ih => rw [Batch.steps_succ, step_world, steps_succ_journal, ih]

/-- A run does in the memory what it does in the memory alone. -/
theorem run_world (j : Journal) :
    job.run Memory.environment j.world =
      ((job.run (Journal.environmentWith none) j).1,
        (job.run (Journal.environmentWith none) j).2.world) := by
  rw [Job.run, bind_apply, steps_world, bind_apply, steps_world, Job.run, bind_apply, bind_apply]
  rfl

end Run

/-! ## All exits -/

namespace Job

variable (job : Job) {world : Memory}

/-- A run in its two halves, the edits and what is done with them. -/
theorem run_journal (hdry : job.dryRun = false) (outage : Option Failure) (j : Journal) :
    job.run (Journal.environmentWith outage) j =
      (let (fetched, j) := Batch.steps job (Journal.environmentWith outage) 2 .checking j
       let (done, j) :=
         Batch.steps job (Journal.environmentWith outage) fetched.stepsLeft fetched j
       (done.result job, j)) := by
  rw [run, Batch.start, hdry]
  rfl

/-- A run that has a snapshot in front of it, or cannot fetch or edit, or changes nothing. -/
theorem run_early (hdry : job.dryRun = false) {outage : Option Failure} {j : Journal}
    {result : Except MigrationError MigrationReport}
    (h : Batch.steps job (Journal.environmentWith outage) 2 .checking j = (.finished result, j)) :
    job.run (Journal.environmentWith outage) j = (result, j) := by
  rw [run_journal job hdry, h]
  rfl

theorem exit_new (hdry : job.dryRun = false) (hnew : world.snapshot? job.target = none) :
    job.Exit none world (job.run (Journal.environmentWith none) ⟨world, []⟩).1
      (job.run (Journal.environmentWith none) ⟨world, []⟩).2 := by
  have hsteps : Batch.steps job (Journal.environmentWith none) 2 .checking ⟨world, []⟩ =
      job.fetch (Journal.environmentWith none) ⟨world, []⟩ := by
    rw [steps_succ_journal, Batch.step, check_journal, if_pos hnew]
    rfl
  rw [fetch_journal job hdry] at hsteps
  dsimp only at hsteps
  rcases hedit : changesOf job.transform (world.fetched job.target) with e | _ | ⟨c, rest⟩
  · rw [hedit] at hsteps
    obtain ⟨earlier, d, later, cause, hfetched, hearlier, hd, rfl⟩ := changesOf_eq_error hedit
    rw [run_early job hdry hsteps]
    exact .unedited hnew rfl hfetched hearlier hd
  · rw [hedit] at hsteps
    obtain ⟨hall, hchanges⟩ := changesOf_eq_ok hedit
    rw [run_early job hdry hsteps]
    exact .unchanged hnew rfl hall hchanges.symm
  · rw [hedit] at hsteps
    obtain ⟨hall, hchanges⟩ := changesOf_eq_ok hedit
    obtain ⟨bytes, hfiles, hholds⟩ :=
      Memory.files_withSnapshot hnew ((c :: rest).map EntryChange.before)
    have hpushing := steps_pushing job none job.target.snapshotFile
      (world.fetched job.target).length (c :: rest) (c :: rest)
      (world.withSnapshot job.target ((c :: rest).map EntryChange.before)) []
    have hleft : Batch.steps job (Journal.environmentWith none)
        (Batch.saving (world.fetched job.target).length (c :: rest)).stepsLeft
        (.saving (world.fetched job.target).length (c :: rest)) ⟨world, []⟩ =
        Batch.steps job (Journal.environmentWith none) ((c :: rest).length + 1)
          (.pushing job.target.snapshotFile (world.fetched job.target).length (c :: rest)
            (c :: rest))
          ⟨world.withSnapshot job.target ((c :: rest).map EntryChange.before), []⟩ := by
      rw [Batch.stepsLeft, steps_succ_journal, Batch.step, save_journal job none hnew]
    rw [run_journal job hdry, hsteps]
    dsimp only
    rw [hleft]
    revert hpushing
    generalize Batch.steps job (Journal.environmentWith none) ((c :: rest).length + 1)
      (.pushing job.target.snapshotFile (world.fetched job.target).length (c :: rest) (c :: rest))
      ⟨world.withSnapshot job.target ((c :: rest).map EntryChange.before), []⟩ = final
    obtain ⟨b, j⟩ := final
    intro hpushing
    cases hpushing with
    | @failed done left d hsplit stopped hpushed cause hfail =>
      have hcount : (c :: rest).length - (left.length + 1) = done.length := by
        rw [hsplit, List.length_append, List.length_cons, Nat.add_sub_cancel]
      rw [hcount, List.nil_append]
      exact .unpushed hnew rfl hall hchanges hsplit hpushed hfail (hpushed.files.trans hfiles)
        hholds
    | complete hpushed =>
      rw [List.nil_append]
      exact .applied hnew rfl hall hchanges (List.cons_ne_nil c rest) hpushed
        (hpushed.files.trans hfiles) hholds rfl (by simp [reportOf])

theorem exits (hdry : job.dryRun = false) (outage : Option Failure) (world : Memory) :
    job.Exit outage world (job.run (Journal.environmentWith outage) ⟨world, []⟩).1
      (job.run (Journal.environmentWith outage) ⟨world, []⟩).2 := by
  have hsteps : Batch.steps job (Journal.environmentWith outage) 2 .checking ⟨world, []⟩ =
      Batch.steps job (Journal.environmentWith outage) 1
        (job.check (Journal.environmentWith outage) ⟨world, []⟩).1
        (job.check (Journal.environmentWith outage) ⟨world, []⟩).2 := rfl
  rw [check_journal] at hsteps
  by_cases hnew : world.snapshot? job.target = none
  · cases outage with
    | none => exact job.exit_new hdry hnew
    | some cause =>
      rw [if_pos hnew] at hsteps
      rw [run_early job hdry hsteps]
      exact .unfetched hnew rfl
  · rw [if_neg hnew] at hsteps
    rw [run_early job hdry hsteps]
    exact .conflict hnew

end Job

/-- What is pushed are changed entries as they are after the edit. -/
theorem Job.Exit.of_pushed {job : Job} {outage : Option Failure} {world : Memory}
    {result : Except MigrationError MigrationReport} {j : Journal}
    (h : job.Exit outage world result j) {u : Entry} (hu : u ∈ j.pushed) :
    ∃ e ∈ world.fetched job.target, job.transform e = .ok u ∧ u.same e = false := by
  obtain ⟨c, hc, rfl⟩ : ∃ c ∈ changedBy job.transform (world.fetched job.target), c.after = u := by
    cases h with
    | conflict | unfetched | unedited | unchanged => cases hu
    | @unpushed _ _ _ changes pushed left c hchanges hsplit =>
      obtain ⟨d, hd, rfl⟩ := List.mem_map.1 hu
      have hmem : d ∈ pushed ++ c :: left := by
        simp only [List.mem_append, List.mem_cons, List.not_mem_nil, or_false] at hd ⊢
        exact hd.imp_right .inl
      exact ⟨d, hchanges ▸ hsplit ▸ hmem, rfl⟩
    | applied _ _ _ hchanges =>
      obtain ⟨c, hc, rfl⟩ := List.mem_map.1 hu
      exact ⟨c, hchanges ▸ hc, rfl⟩
  exact ⟨c.before, mem_changedBy.1 hc⟩

/-- The files are those of before, or those and one new one that holds the changed entries as they
were. -/
theorem Job.Exit.files {job : Job} {outage : Option Failure} {world : Memory}
    {result : Except MigrationError MigrationReport} {j : Journal}
    (h : job.Exit outage world result j) :
    j.world.files = world.files ∨
      ∃ saved bytes, j.world.files = world.files ++ [(job.target.snapshotFile, bytes)] ∧
        Snapshot.Holds job.target world.now saved bytes ∧
        saved = (changedBy job.transform (world.fetched job.target)).map EntryChange.before ∧
        ∀ e ∈ saved, e ∈ world.fetched job.target ∧
          ∃ u, job.transform e = .ok u ∧ u.same e = false := by
  have hsaved : ∀ e ∈ (changedBy job.transform (world.fetched job.target)).map EntryChange.before,
      e ∈ world.fetched job.target ∧ ∃ u, job.transform e = .ok u ∧ u.same e = false := by
    intro e he
    obtain ⟨c, hc, rfl⟩ := List.mem_map.1 he
    obtain ⟨hbefore, hedit⟩ := mem_changedBy.1 hc
    exact ⟨hbefore, c.after, hedit⟩
  cases h with
  | conflict | unfetched | unedited | unchanged => exact .inl rfl
  | unpushed _ _ _ hchanges _ _ _ hfiles hholds | applied _ _ _ hchanges _ _ hfiles hholds =>
    rw [← hchanges] at hsaved ⊢
    exact .inr ⟨_, _, hfiles, hholds, rfl, hsaved⟩

/-- **Every exit of a batch.** A batch that is no dry run ends in one of its exits, whatever the
memory, the entries that refuse to be replaced, the target and the transform are. It pushes nothing
but entries that the transform changes, and the one file that it leaves, if any, holds all of these
as they were, in the order of the fetch, and nothing else. The notes make no difference: in the
memory alone the run has the same result and leaves the same behind. -/
theorem exit_run (target : Target) (transform : EntryTransform) (outage : Option Failure)
    (world : Memory) :
    let job : Job := ⟨target, transform, false⟩
    let run := job.run (Journal.environmentWith outage) ⟨world, []⟩
    job.Exit outage world run.1 run.2 ∧
      (∀ u ∈ run.2.pushed, ∃ e ∈ world.fetched target,
        transform e = .ok u ∧ u.same e = false) ∧
      (run.2.world.files = world.files ∨
        ∃ saved bytes, run.2.world.files = world.files ++ [(target.snapshotFile, bytes)] ∧
          Snapshot.Holds target world.now saved bytes ∧
          saved = (changedBy transform (world.fetched target)).map EntryChange.before ∧
          ∀ e ∈ saved, e ∈ world.fetched target ∧
            ∃ u, transform e = .ok u ∧ u.same e = false) ∧
      (outage = none → job.run Memory.environment world = (run.1, run.2.world)) := by
  have hexit := Job.exits ⟨target, transform, false⟩ rfl outage world
  refine ⟨hexit, fun _ hu => hexit.of_pushed hu, hexit.files, ?_⟩
  rintro rfl
  exact run_world ⟨target, transform, false⟩ ⟨world, []⟩

end Blokwork
