import Blokwork.Proofs.Migration.Attempts

/-!
# The pushes of a rollback

A memory that also notes every push, whether it succeeds or not. A rollback does there what it does
in the memory alone, and all it pushes are entries of the snapshots it reads (`rollback_journal`).
-/

namespace Blokwork

/-- A memory, and the entries that were pushed. -/
structure Journal where
  world : Memory
  pushed : List Entry := []

namespace Journal

/-- What is done in the memory alone. -/
def inWorld {α : Type} (x : StateM Memory α) : StateM Journal α :=
  fun j => ((x j.world).1, { j with world := (x j.world).2 })

/-- The entries in memory; each push is noted. -/
def api : ContentApi (StateM Journal) where
  credentials := Memory.api.credentials
  entriesWith component := inWorld (Memory.api.entriesWith component)
  put entry := fun j =>
    ((Memory.put entry j.world).1,
      { world := (Memory.put entry j.world).2, pushed := j.pushed ++ [entry] })

/-- The files in memory. -/
def store : SnapshotStore (StateM Journal) where
  list := inWorld Memory.store.list
  read file := inWorld (Memory.store.read file)
  create file contents := inWorld (Memory.store.create file contents)
  has file := inWorld (Memory.store.has file)
  remove file := inWorld (Memory.store.remove file)

/-- A migration in memory, with its pushes noted. -/
def environment : MigrationEnvironment (StateM Journal) where
  api := api
  store := store
  report notice := inWorld (Memory.environment.report notice)
  now := inWorld Memory.environment.now

/-- The journal after more pushes, with the memory as it is then. -/
def after (j : Journal) (world : Memory) (pushed : List Entry) : Journal where
  world := world
  pushed := j.pushed ++ pushed

theorem after_after (j : Journal) (world world' : Memory) (pushed more : List Entry) :
    (j.after world pushed).after world' more = j.after world' (pushed ++ more) := by
  simp only [after, List.append_assoc]

variable (target : Target)

/-! ## The parts of a rollback -/

theorem existingSnapshots_journal (j : Journal) :
    existingSnapshots store target j =
      ((existingSnapshots Memory.store target j.world).1, j) := rfl

theorem readSnapshot_journal (file : String) (j : Journal) :
    readSnapshot store file j = ((readSnapshot Memory.store file j.world).1, j) := by
  have hread : store.read file j = ((Memory.store.read file j.world).1, j) := by
    simp only [store, inWorld, Memory.store_read]
  rw [readSnapshot, bind_apply, hread, readSnapshot, bind_apply, Memory.store_read]
  cases Dict.get? j.world.files file <;> rfl

/-- The entries that are pushed back are noted; the first one is always pushed. -/
theorem restoreEntries_journal (entries : List Entry) (j : Journal) :
    ∃ pushed, pushed ⊆ entries ∧ (∀ e ∈ entries.head?, e ∈ pushed) ∧
      restoreEntries api target entries j =
        ((restoreEntries Memory.api target entries j.world).1,
          j.after (restoreEntries Memory.api target entries j.world).2 pushed) := by
  induction entries generalizing j with
  | nil => exact ⟨[], List.Subset.refl _, by simp, by simp [after]; rfl⟩
  | cons e rest ih =>
    have hput : api.put e j =
        ((Memory.put e j.world).1, j.after (Memory.put e j.world).2 [e]) := rfl
    rw [restoreEntries, bind_apply, hput, restoreEntries_cons]
    rcases Memory.put_cases e j.world with ⟨cause, h⟩ | ⟨id, entries, -, -, -, h⟩
    · rw [h]
      exact ⟨[e], by simp, by simp, rfl⟩
    · rw [h]
      obtain ⟨pushed, hpushed, -, hrest⟩ :=
        ih (j.after { j.world with entries, putLog := j.world.putLog ++ [id] } [e])
      refine ⟨e :: pushed, List.cons_subset_cons e hpushed, by simp, ?_⟩
      dsimp only
      rw [hrest, after_after]
      rfl

theorem removeFiles_journal (files : List String) (j : Journal) :
    removeFiles store files j =
      ((removeFiles Memory.store files j.world).1,
        j.after (removeFiles Memory.store files j.world).2 []) := by
  induction files generalizing j with
  | nil => simp [removeFiles, after]; rfl
  | cons file rest ih =>
    have hremove : Memory.store.remove file j.world = Memory.remove file j.world := rfl
    have hstep : store.remove file j =
        ((Memory.remove file j.world).1, j.after (Memory.remove file j.world).2 []) := by
      simp [after]; rfl
    rw [removeFiles, bind_apply, hstep, removeFiles, bind_apply, hremove, Memory.remove]
    by_cases hfile : Dict.has j.world.files file = true
    · rw [if_pos hfile]
      dsimp only
      rw [ih, after_after]
      rfl
    · rw [if_neg hfile]
      rfl

/-- What is read of the files is pushed. -/
theorem restoreFiles_cons_journal {file : String} {j : Journal} {bytes : ByteArray}
    {snapshot : Snapshot} (h : Dict.get? j.world.files file = some bytes)
    (hbytes : Snapshot.ofBytes bytes = .ok snapshot) (restored : Nat) (rest : List String) :
    restoreFiles environment target restored (file :: rest) j =
      match restoreEntries api target snapshot.entries
        (j.after (j.world.noticing target file snapshot) []) with
      | (.error e, j) => (.error e, j)
      | (.ok (), j) =>
        restoreFiles environment target (restored + snapshot.entries.length) rest j := by
  have hstore : environment.store = store := rfl
  have hapi : environment.api = api := rfl
  have hreport : (environment.report (.foreignSnapshot file snapshot.component) j).2 =
      j.after { j.world with
        notices := j.world.notices ++ [.foreignSnapshot file snapshot.component] } [] := by
    simp [after]; rfl
  have hj : j.after j.world [] = j := by simp [after]
  rw [restoreFiles, bind_apply, hstore, readSnapshot_journal, readSnapshot_memory h, hbytes]
  unfold Memory.noticing
  by_cases hforeign : snapshot.component = target.component
  · simp only [Except.mapError, hapi, hforeign, ne_eq, not_true_eq_false, ↓reduceIte, bind_apply,
      hj]
    generalize restoreEntries api target snapshot.entries j = r
    obtain ⟨result, after⟩ := r
    cases result <;> rfl
  · simp only [Except.mapError, hapi, hforeign, ne_eq, not_false_eq_true, ↓reduceIte, bind_apply,
      hreport]
    generalize restoreEntries api target snapshot.entries _ = r
    obtain ⟨result, after⟩ := r
    cases result <;> rfl

/-- The pushes are of entries that are found in the files, and the first one of the first file is
among them. -/
structure FromFiles (files : List String) (world : Memory) (pushed : List Entry) : Prop where
  found : ∀ e ∈ pushed, ∃ file ∈ files, ∃ bytes snapshot,
    Dict.get? world.files file = some bytes ∧ Snapshot.ofBytes bytes = .ok snapshot ∧
      e ∈ snapshot.entries
  first : ∀ file ∈ files.head?, ∀ bytes snapshot, Dict.get? world.files file = some bytes →
    Snapshot.ofBytes bytes = .ok snapshot → ∀ e ∈ snapshot.entries.head?, e ∈ pushed

namespace FromFiles

variable {file : String} {rest : List String} {world : Memory} {bytes : ByteArray}
  {pushed more : List Entry}

/-- A file that cannot be read gives nothing to push. -/
theorem unread {fault : TextFault} (hget : Dict.get? world.files file = some bytes)
    (hbytes : Snapshot.ofBytes bytes = .error fault) : FromFiles (file :: rest) world [] := by
  refine ⟨by simp, ?_⟩
  rintro _ ⟨⟩ bytes' snapshot hget' hbytes'
  cases hget.symm.trans hget'
  cases hbytes.symm.trans hbytes'

/-- The pushes of the first file. -/
theorem entries {snapshot : Snapshot} (hget : Dict.get? world.files file = some bytes)
    (hbytes : Snapshot.ofBytes bytes = .ok snapshot) (hpushed : pushed ⊆ snapshot.entries)
    (hfirst : ∀ e ∈ snapshot.entries.head?, e ∈ pushed) :
    FromFiles (file :: rest) world pushed := by
  refine ⟨fun e he => ⟨file, List.mem_cons_self, bytes, snapshot, hget, hbytes, hpushed he⟩, ?_⟩
  rintro _ ⟨⟩ bytes' snapshot' hget' hbytes'
  cases hget.symm.trans hget'
  cases hbytes.symm.trans hbytes'
  exact hfirst

/-- The pushes of the further files. -/
theorem append {world' : Memory} (h : FromFiles (file :: rest) world pushed)
    (hmore : FromFiles rest world' more) (hkept : world'.files = world.files) :
    FromFiles (file :: rest) world (pushed ++ more) := by
  refine ⟨fun e he => ?_, fun f hf bytes snapshot hget hbytes e he => ?_⟩
  · rcases List.mem_append.1 he with he | he
    · exact h.found e he
    · obtain ⟨f, hf, bytes, snapshot, hget, hrest⟩ := hmore.found e he
      exact ⟨f, List.mem_cons_of_mem file hf, bytes, snapshot, hkept ▸ hget, hrest⟩
  · exact List.mem_append_left more (h.first f hf bytes snapshot hget hbytes e he)

end FromFiles

/-- Files are restored as in the memory alone, and what is pushed is found in them. -/
theorem restoreFiles_journal (restored : Nat) (files : List String) (j : Journal)
    (hfiles : ∀ file ∈ files, Dict.has j.world.files file = true) :
    ∃ pushed, FromFiles files j.world pushed ∧
      restoreFiles environment target restored files j =
        ((restoreFiles Memory.environment target restored files j.world).1,
          j.after (restoreFiles Memory.environment target restored files j.world).2 pushed) := by
  induction files generalizing restored j with
  | nil => exact ⟨[], ⟨by simp, by simp⟩, by simp [after, restoreFiles]; rfl⟩
  | cons file rest ih =>
    obtain ⟨bytes, hget⟩ : ∃ bytes, Dict.get? j.world.files file = some bytes :=
      Option.isSome_iff_exists.1 (hfiles file List.mem_cons_self)
    rw [restoreFiles_cons target hget]
    cases hbytes : Snapshot.ofBytes bytes with
    | error fault =>
      have hstore : environment.store = store := rfl
      refine ⟨[], .unread hget hbytes, ?_⟩
      rw [restoreFiles, bind_apply, hstore, readSnapshot_journal, readSnapshot_memory hget, hbytes]
      simp [Except.mapError, after]
      rfl
    | ok snapshot =>
      obtain ⟨pushed, hpushed, hfirst, hrun⟩ := restoreEntries_journal target snapshot.entries
        (j.after (j.world.noticing target file snapshot) [])
      have hentries : FromFiles (file :: rest) j.world pushed :=
        .entries hget hbytes hpushed hfirst
      have hworld : (j.after (j.world.noticing target file snapshot) []).world =
          j.world.noticing target file snapshot := rfl
      rw [restoreFiles_cons_journal target hget hbytes, hrun, hworld, after_after, List.nil_append]
      dsimp only
      rcases hend : restoreEntries Memory.api target snapshot.entries
        (j.world.noticing target file snapshot) with ⟨_ | ⟨⟩, world⟩
      · exact ⟨pushed, hentries, rfl⟩
      · have hkept : (j.after world pushed).world.files = j.world.files :=
          (restoreEntries_noticing hend).1
        obtain ⟨more, hmore, hrest⟩ := ih (restored + snapshot.entries.length)
          (j.after world pushed)
          (fun f hf => hkept ▸ hfiles f (List.mem_cons_of_mem file hf))
        refine ⟨pushed ++ more, hentries.append hmore hkept, ?_⟩
        dsimp only
        rw [hrest, after_after]
        rfl

/-- A rollback does what it does in the memory alone; all that it pushes are entries of the
snapshot of its target, and the first entry of that is pushed. -/
theorem rollback_journal (retention : Retention) (j : Journal) :
    ∃ pushed, (∀ e ∈ pushed, ∃ bytes snapshot, j.world.snapshot? target = some bytes ∧
        Snapshot.ofBytes bytes = .ok snapshot ∧ e ∈ snapshot.entries) ∧
      (∀ bytes snapshot, j.world.snapshot? target = some bytes →
        Snapshot.ofBytes bytes = .ok snapshot → ∀ e ∈ snapshot.entries.head?, e ∈ pushed) ∧
      rollback environment target retention j =
        ((rollback Memory.environment target retention j.world).1,
          j.after (rollback Memory.environment target retention j.world).2 pushed) := by
  have hstore : environment.store = store := rfl
  have hstore' : Memory.environment.store = Memory.store := rfl
  rw [rollback, bind_apply, hstore, existingSnapshots_journal, rollback, bind_apply, hstore',
    existingSnapshots_memory]
  cases hcount : (Dict.keys j.world.files).count target.snapshotFile with
  | zero =>
    have hnone : j.world.snapshot? target = none := count_snapshotFile_eq_zero.1 hcount
    exact ⟨[], by simp, by simp [hnone], by simp [after]; rfl⟩
  | succ n =>
    have hfiles : ∀ file ∈ List.replicate (n + 1) target.snapshotFile,
        Dict.has j.world.files file = true := by
      intro file hfile
      rw [(List.mem_replicate.1 hfile).2, Dict.has_iff_mem_keys]
      exact List.count_pos_iff.1 (by omega)
    obtain ⟨pushed, hpushed, hrun⟩ := restoreFiles_journal target 0 _ j hfiles
    refine ⟨pushed, fun e he => ?_, hpushed.first target.snapshotFile rfl, ?_⟩
    · obtain ⟨file, hfile, bytes, snapshot, hget, hrest⟩ := hpushed.found e he
      rw [(List.mem_replicate.1 hfile).2] at hget
      exact ⟨bytes, snapshot, hget, hrest⟩
    · rw [List.replicate_succ] at hrun ⊢
      dsimp only
      rw [bind_apply, hrun, bind_apply]
      generalize restoreFiles Memory.environment target 0
        (target.snapshotFile :: List.replicate n target.snapshotFile) j.world = r
      obtain ⟨result, world⟩ := r
      cases result with
      | error e => rfl
      | ok restored =>
        cases retention with
        | keep => rfl
        | delete =>
          dsimp only
          rw [bind_apply, removeFiles_journal, bind_apply]
          have hworld : (j.after world pushed).world = world := rfl
          rw [hworld, after_after, List.append_nil]
          generalize removeFiles Memory.store _ world = r
          obtain ⟨result, world⟩ := r
          cases result <;> rfl

end Journal

end Blokwork
