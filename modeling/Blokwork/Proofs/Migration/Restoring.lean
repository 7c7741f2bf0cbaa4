import Blokwork.Migration.Rollback
import Blokwork.Proofs.Migration.BatchSteps
import Blokwork.Proofs.Migration.SnapshotText
import Blokwork.Proofs.Migration.Transforms

/-!
# Restoring a snapshot in memory

`RollbackEnd` lists how a rollback can end, and `rollback_sound` says that the list is complete. A
rollback undoes a batch: when the snapshot is enough to restore the entries of before (`BackedUp`),
a rollback that succeeds leaves exactly those (`BackedUp.rollback_restores`), and it succeeds where
the snapshot can be read and no push is refused (`BackedUp.rollback_succeeds`).
-/

namespace Blokwork

/-- Where changes were pushed that kept the identifiers, each stands in the place of the entry that
it is a change of. -/
theorem Overwritten.changed {changes : List EntryChange} {before now : List Entry}
    (h : Overwritten (changes.map EntryChange.after) before now) (hids : DistinctIds before)
    (hbefore : ∀ c ∈ changes, c.before ∈ before)
    (hkeeps : ∀ c ∈ changes, c.after.id? = c.before.id? ∨ c.after.id? = none) :
    List.Forall₂ (fun a b => b.id? = a.id? ∧ (b = a ∨ ∃ c ∈ changes, c.before = a ∧ c.after = b))
      before now := by
  have hmem : List.Forall₂ (fun a b => a ∈ before ∧
      (b = a ∨ (b ∈ changes.map EntryChange.after ∧ b.id? = a.id? ∧ a.id? ≠ none))) before now :=
    (List.forall₂_and_left _ _).2 ⟨fun _ ha => ha, h⟩
  refine hmem.imp ?_
  rintro a b ⟨ha, rfl | ⟨hb, hid, hsome⟩⟩
  · exact ⟨rfl, .inl rfl⟩
  · obtain ⟨c, hc, rfl⟩ := List.mem_map.1 hb
    have hsame : c.before.id? = a.id? := by
      rcases hkeeps c hc with hkept | hlost
      · exact hkept.symm.trans hid
      · exact absurd (hid.symm.trans hlost) hsome
    exact ⟨hid, .inr ⟨c, hc, (hids.eq_of_id? ha (hbefore c hc) hsame.symm hsome).symm, rfl⟩⟩

/-- What a batch wrote can be restored from its snapshot, when no edit gave an entry another
identifier. -/
theorem Batch.Written.restorable {job : Job} {before world : Memory} {changes : List EntryChange}
    {b : Batch} (h : Batch.Written job before changes b world)
    (hids : DistinctIds before.entries)
    (hkeeps : ∀ c ∈ changes, c.after.id? = c.before.id? ∨ c.after.id? = none) :
    Restorable (changes.map EntryChange.before) before.entries world.entries := by
  have hbefore : ∀ c ∈ changes, c.before ∈ before.entries := fun c hc =>
    List.mem_of_mem_filter (mem_of_changesOf h.edit hc).1
  refine (h.entries.changed hids hbefore hkeeps).imp ?_
  rintro a b ⟨hid, hab | ⟨c, hc, rfl, -⟩⟩
  · exact ⟨hid, .inl hab⟩
  · exact ⟨hid, .inr (List.mem_map_of_mem hc)⟩

/-- What a batch saves is among the entries. -/
theorem Batch.Written.saved_subset {job : Job} {before world : Memory}
    {changes : List EntryChange} {b : Batch} (h : Batch.Written job before changes b world) :
    changes.map EntryChange.before ⊆ before.entries := by
  intro e he
  obtain ⟨c, hc, rfl⟩ := List.mem_map.1 he
  exact List.mem_of_mem_filter (mem_of_changesOf h.edit hc).1

/-! ## Pushing entries back -/

section Pushes

variable (target : Target) {before : List Entry}

/-- Entries are pushed back one after the other, until a push fails. -/
theorem restoreEntries_cons (e : Entry) (rest : List Entry) (world : Memory) :
    restoreEntries Memory.api target (e :: rest) world =
      match Memory.put e world with
      | (.error cause, world) => (.error (.transport .push target e.id? cause), world)
      | (.ok _, world) => restoreEntries Memory.api target rest world := by
  have hput : Memory.api.put e world = Memory.put e world := rfl
  rw [restoreEntries, bind_apply, hput]
  rcases Memory.put_cases e world with ⟨cause, h⟩ | ⟨id, entries, -, -, -, h⟩
  · rw [h]
    rfl
  · rw [h]

/-- Pushes write no files. -/
theorem restoreEntries_files (saved : List Entry) (world : Memory) :
    (restoreEntries Memory.api target saved world).2.files = world.files := by
  induction saved generalizing world with
  | nil => rfl
  | cons e rest ih =>
    rw [restoreEntries_cons]
    rcases Memory.put_cases e world with ⟨cause, h⟩ | ⟨id, entries, -, -, -, h⟩
    · rw [h]
    · rw [h]
      exact ih _

/-- Pushes bring in no entries but the pushed ones. -/
theorem mem_of_restoreEntries {saved : List Entry} {world : Memory} {e : Entry}
    (he : e ∈ (restoreEntries Memory.api target saved world).2.entries) :
    e ∈ world.entries ∨ e ∈ saved := by
  induction saved generalizing world with
  | nil => exact .inl he
  | cons x rest ih =>
    rw [restoreEntries_cons] at he
    rcases Memory.put_cases x world with ⟨cause, h⟩ | ⟨id, entries, -, -, hput, h⟩
    · rw [h] at he
      exact .inl he
    · rw [h] at he
      rcases ih he with he | he
      · rcases mem_of_replacing? hput he with rfl | he
        · exact .inr List.mem_cons_self
        · exact .inl he
      · exact .inr (List.mem_cons_of_mem x he)

/-- Pushing back all that was saved restores the entries of before. -/
theorem restoreEntries_restores (hids : DistinctIds before) {saved : List Entry} {world : Memory}
    (hsaved : saved ⊆ before) (h : Restorable saved before world.entries)
    (hok : (restoreEntries Memory.api target saved world).1 = .ok ()) :
    (restoreEntries Memory.api target saved world).2.entries = before := by
  induction saved generalizing world with
  | nil => exact h.eq_of_nil
  | cons e rest ih =>
    have he : e ∈ before := hsaved List.mem_cons_self
    rw [restoreEntries_cons] at hok ⊢
    rcases Memory.put_cases e world with ⟨cause, hput⟩ | ⟨id, entries, hid, -, hentries, hput⟩
    · rw [hput] at hok
      cases hok
    · rw [hput] at hok ⊢
      refine ih (fun x hx => hsaved (List.mem_cons_of_mem e hx)) ?_ hok
      have heq : entries = world.entries.map e.standIn :=
        eq_map_of_replacing? (h.distinctIds hids) hid hentries
      rw [heq]
      exact h.standIn hids he (by rw [hid]; nofun)

/-- Pushing back succeeds when every entry can be pushed: that does not change on the way. -/
theorem restoreEntries_of_takes {saved : List Entry} {world : Memory}
    (h : ∀ e ∈ saved, world.Takes e) :
    (restoreEntries Memory.api target saved world).1 = .ok () := by
  induction saved generalizing world with
  | nil => rfl
  | cons e rest ih =>
    obtain ⟨he, hrest⟩ := List.forall_mem_cons.1 h
    have hput : Memory.put e world = (.ok e, (Memory.put e world).2) :=
      Prod.ext ((Memory.put_eq_ok_iff e world).2 he) rfl
    obtain ⟨hrefusing, hids, -⟩ := Memory.frame_of_put hput
    rw [restoreEntries_cons, hput]
    exact ih fun d hd => (Memory.takes_congr hrefusing hids d).2 (hrest d hd)

/-- Pushing back succeeds for entries that have identifiers and are not refused. -/
theorem restoreEntries_succeeds {saved : List Entry} {world : Memory} (hsaved : saved ⊆ before)
    (h : Restorable saved before world.entries)
    (hpush : ∀ e ∈ saved, ∃ id, e.id? = some id ∧ id ∉ world.refusing) :
    (restoreEntries Memory.api target saved world).1 = .ok () := by
  refine restoreEntries_of_takes target fun e he => ?_
  obtain ⟨id, hid, hrefusing⟩ := hpush e he
  refine ⟨id, hid, hrefusing, ?_⟩
  rw [h.ids, ← hid]
  exact List.mem_map_of_mem (hsaved he)

end Pushes

/-! ## Rollbacks -/

/-- The memory of a rollback that found a snapshot. A snapshot of another component is
noticed. -/
def Memory.noticing (world : Memory) (target : Target) (file : String) (snapshot : Snapshot) :
    Memory :=
  if snapshot.component = target.component then world
  else { world with notices := world.notices ++ [.foreignSnapshot file snapshot.component] }

theorem Memory.entries_noticing (world : Memory) (target : Target) (file : String)
    (snapshot : Snapshot) : (world.noticing target file snapshot).entries = world.entries := by
  unfold Memory.noticing
  split <;> rfl

theorem Memory.files_noticing (world : Memory) (target : Target) (file : String)
    (snapshot : Snapshot) : (world.noticing target file snapshot).files = world.files := by
  unfold Memory.noticing
  split <;> rfl

theorem Memory.refusing_noticing (world : Memory) (target : Target) (file : String)
    (snapshot : Snapshot) : (world.noticing target file snapshot).refusing = world.refusing := by
  unfold Memory.noticing
  split <;> rfl

/-- The memory after the rollback of a target, with or without the snapshot. -/
def Memory.retaining (world : Memory) (target : Target) : Retention → Memory
  | .keep => world
  | .delete => { world with files := Dict.erase world.files target.snapshotFile }

theorem Memory.distinct_retaining {world : Memory} (h : Dict.Distinct world.files)
    {target : Target} {retention : Retention} :
    Dict.Distinct (world.retaining target retention).files := by
  cases retention with
  | keep => exact h
  | delete => exact h.erase _

/-- A rollback leaves the snapshots of other targets alone. -/
theorem Memory.snapshot?_retaining (world : Memory) {target other : Target} {retention : Retention}
    (h : other.snapshotFile ≠ target.snapshotFile) :
    Dict.get? (world.retaining target retention).files other.snapshotFile =
      world.snapshot? other := by
  cases retention with
  | keep => rfl
  | delete => exact Dict.get?_erase_of_ne h.symm

theorem Memory.entries_retaining (world : Memory) (target : Target) (retention : Retention) :
    (world.retaining target retention).entries = world.entries := by
  cases retention <;> rfl

/-- Pushing back what a snapshot holds writes no files, and brings in no other entries. -/
theorem restoreEntries_noticing {world after : Memory} {target : Target} {file : String}
    {snapshot : Snapshot} {saved : List Entry} {result : Except MigrationError Unit}
    (h : restoreEntries Memory.api target saved (world.noticing target file snapshot) =
      (result, after)) :
    after.files = world.files ∧ ∀ e ∈ after.entries, e ∈ world.entries ∨ e ∈ saved := by
  have hfiles := restoreEntries_files target saved (world.noticing target file snapshot)
  rw [h, Memory.files_noticing] at hfiles
  refine ⟨hfiles, fun e he => ?_⟩
  rw [← Memory.entries_noticing world target file snapshot]
  refine mem_of_restoreEntries target ?_
  rwa [h]

/-- The account of a rollback from the snapshot of the target. -/
def rolledBack (target : Target) (retention : Retention) (restored : Nat) : RollbackReport where
  target := target
  state := .rolledBack
  files := [target.snapshotFile]
  restored := restored
  removed := retention = .delete

section Rollbacks

variable (target : Target) (retention : Retention) {world : Memory}

/-- Without a snapshot nothing is rolled back. -/
theorem rollback_of_none (h : world.snapshot? target = none) :
    rollback Memory.environment target retention world = (.error (.notFound target), world) := by
  have hstore : Memory.environment.store = Memory.store := rfl
  rw [rollback, bind_apply, hstore, existingSnapshots_memory, count_snapshotFile_eq_zero.2 h]
  rfl

/-- Reading a snapshot that is there. -/
theorem readSnapshot_memory {file : String} {bytes : ByteArray}
    (h : Dict.get? world.files file = some bytes) :
    readSnapshot Memory.store file world =
      ((Snapshot.ofBytes bytes).mapError (.snapshot file), world) := by
  rw [readSnapshot, bind_apply, Memory.store_read, h]
  rfl

/-- Restoring goes from file to file, until something fails. -/
theorem restoreFiles_cons {file : String} {bytes : ByteArray}
    (h : Dict.get? world.files file = some bytes) (restored : Nat) (rest : List String) :
    restoreFiles Memory.environment target restored (file :: rest) world =
      match Snapshot.ofBytes bytes with
      | .error fault => (.error (.snapshot file fault), world)
      | .ok snapshot =>
        match restoreEntries Memory.api target snapshot.entries
          (world.noticing target file snapshot) with
        | (.error e, world) => (.error e, world)
        | (.ok (), world) =>
          restoreFiles Memory.environment target (restored + snapshot.entries.length) rest
            world := by
  have hstore : Memory.environment.store = Memory.store := rfl
  rw [restoreFiles, bind_apply, hstore, readSnapshot_memory h]
  cases Snapshot.ofBytes bytes with
  | error fault => rfl
  | ok snapshot =>
    have hapi : Memory.environment.api = Memory.api := rfl
    have hreport : (Memory.environment.report (.foreignSnapshot file snapshot.component) world).2 =
      { world with notices := world.notices ++ [.foreignSnapshot file snapshot.component] } := rfl
    unfold Memory.noticing
    by_cases hforeign : snapshot.component = target.component
    · simp only [Except.mapError, hapi, hforeign, ne_eq, not_true_eq_false, ↓reduceIte, bind_apply]
      generalize restoreEntries Memory.api target snapshot.entries world = r
      obtain ⟨result, after⟩ := r
      cases result <;> rfl
    · simp only [Except.mapError, hapi, hforeign, ne_eq, not_false_eq_true, ↓reduceIte, bind_apply,
        hreport]
      generalize restoreEntries Memory.api target snapshot.entries _ = r
      obtain ⟨result, after⟩ := r
      cases result <;> rfl

/-- A file that is there is removed. -/
theorem removeFiles_memory (h : Dict.has world.files target.snapshotFile = true) :
    removeFiles Memory.store [target.snapshotFile] world =
      (.ok (), world.retaining target .delete) := by
  have hremove : Memory.store.remove target.snapshotFile world =
      Memory.remove target.snapshotFile world := rfl
  rw [removeFiles, bind_apply, hremove, Memory.remove, h]
  rfl

/-- A rollback pushes back what the snapshot holds, and does not go on behind a failure. -/
theorem rollback_of_some (hfiles : Dict.Distinct world.files) {bytes : ByteArray}
    (h : world.snapshot? target = some bytes) :
    rollback Memory.environment target retention world =
      match Snapshot.ofBytes bytes with
      | .error fault => (.error (.snapshot target.snapshotFile fault), world)
      | .ok snapshot =>
        match restoreEntries Memory.api target snapshot.entries
          (world.noticing target target.snapshotFile snapshot) with
        | (.error e, world) => (.error e, world)
        | (.ok (), world) =>
          (.ok (rolledBack target retention snapshot.entries.length),
            world.retaining target retention) := by
  have hstore : Memory.environment.store = Memory.store := rfl
  have hcount : (Dict.keys world.files).count target.snapshotFile = 1 :=
    List.count_eq_one_of_mem hfiles (Dict.has_iff_mem_keys.1 (Dict.has_of_get? h))
  rw [rollback, bind_apply, hstore, existingSnapshots_memory, hcount]
  simp only [List.replicate]
  rw [bind_apply, restoreFiles_cons target h]
  cases Snapshot.ofBytes bytes with
  | error fault => rfl
  | ok snapshot =>
    have hkept := restoreEntries_files target snapshot.entries
      (world.noticing target target.snapshotFile snapshot)
    dsimp only
    generalize restoreEntries Memory.api target snapshot.entries
      (world.noticing target target.snapshotFile snapshot) = r at hkept ⊢
    obtain ⟨result, after⟩ := r
    cases result with
    | error e => rfl
    | ok _ =>
      have hlast : restoreFiles Memory.environment target (0 + snapshot.entries.length) [] after =
          (.ok snapshot.entries.length, after) := by
        rw [Nat.zero_add]
        rfl
      dsimp only
      rw [hlast]
      cases retention with
      | keep => rfl
      | delete =>
        have hfile : Dict.has after.files target.snapshotFile = true := by
          rw [hkept, Memory.files_noticing]
          exact Dict.has_of_get? h
        dsimp only
        rw [bind_apply, removeFiles_memory target hfile]
        rfl

/-- How a rollback can end: it finds nothing that it can read, a push fails, or all is restored. -/
inductive RollbackEnd (target : Target) (retention : Retention) (world : Memory) :
    Except MigrationError RollbackReport × Memory → Prop where
  | unread (e : MigrationError) : RollbackEnd target retention world (.error e, world)
  | stopped {bytes : ByteArray} {snapshot : Snapshot}
      (hbytes : world.snapshot? target = some bytes)
      (hread : Snapshot.ofBytes bytes = .ok snapshot) {e : MigrationError} {after : Memory}
      (h : restoreEntries Memory.api target snapshot.entries
        (world.noticing target target.snapshotFile snapshot) = (.error e, after)) :
    RollbackEnd target retention world (.error e, after)
  | restored {bytes : ByteArray} {snapshot : Snapshot}
      (hbytes : world.snapshot? target = some bytes)
      (hread : Snapshot.ofBytes bytes = .ok snapshot)
      {after : Memory} (h : restoreEntries Memory.api target snapshot.entries
        (world.noticing target target.snapshotFile snapshot) = (.ok (), after)) :
    RollbackEnd target retention world
      (.ok (rolledBack target retention snapshot.entries.length), after.retaining target retention)

/-- Every rollback ends in one of those ways. -/
theorem rollback_sound (hfiles : Dict.Distinct world.files) :
    RollbackEnd target retention world (rollback Memory.environment target retention world) := by
  cases hbytes : world.snapshot? target with
  | none =>
    rw [rollback_of_none target retention hbytes]
    exact .unread _
  | some bytes =>
    rw [rollback_of_some target retention hfiles hbytes]
    cases hread : Snapshot.ofBytes bytes with
    | error fault => exact .unread _
    | ok snapshot =>
      dsimp only
      rcases hrun : restoreEntries Memory.api target snapshot.entries
        (world.noticing target target.snapshotFile snapshot) with ⟨_ | ⟨⟩, after⟩
      · exact .stopped hbytes hread hrun
      · exact .restored hbytes hread hrun

/-- A rollback brings in no entries but those of the snapshot. -/
theorem mem_of_rollback (hfiles : Dict.Distinct world.files) {e : Entry}
    (he : e ∈ (rollback Memory.environment target retention world).2.entries) :
    e ∈ world.entries ∨ ∃ bytes snapshot, world.snapshot? target = some bytes ∧
      Snapshot.ofBytes bytes = .ok snapshot ∧ e ∈ snapshot.entries := by
  have hend := rollback_sound target retention hfiles
  generalize rollback Memory.environment target retention world = r at he hend
  cases hend with
  | unread => exact .inl he
  | stopped hbytes hread h =>
    exact ((restoreEntries_noticing h).2 e he).imp_right fun he => ⟨_, _, hbytes, hread, he⟩
  | restored hbytes hread h =>
    rw [Memory.entries_retaining] at he
    exact ((restoreEntries_noticing h).2 e he).imp_right fun he => ⟨_, _, hbytes, hread, he⟩

/-- A rollback leaves the files alone, or removes its snapshot. -/
theorem rollback_files (hfiles : Dict.Distinct world.files) :
    (rollback Memory.environment target retention world).2.files = world.files ∨
      (rollback Memory.environment target retention world).2.files =
        Dict.erase world.files target.snapshotFile := by
  have hend := rollback_sound target retention hfiles
  generalize rollback Memory.environment target retention world = r at hend ⊢
  cases hend with
  | unread => exact .inl rfl
  | stopped _ _ h => exact .inl (restoreEntries_noticing h).1
  | restored _ _ h =>
    have hkept := (restoreEntries_noticing h).1
    cases retention with
    | keep => exact .inl hkept
    | delete => exact .inr (congrArg (Dict.erase · target.snapshotFile) hkept)

end Rollbacks

/-! ## From a snapshot back to the entries of before -/

/-- The snapshot of the target, taken at the time `now`, holds the entries `saved`, and these are
enough to restore the entries `before`. -/
structure BackedUp (world : Memory) (target : Target) (now : Timestamp)
    (saved before : List Entry) : Prop where
  ids : DistinctIds before
  legible : ∀ e ∈ before, e.doc.Legible
  files : Dict.Distinct world.files
  subset : saved ⊆ before
  snapshot : world.snapshot? target = some (Snapshot.take target now saved).text.toUTF8
  restorable : Restorable saved before world.entries

namespace BackedUp

variable {world : Memory} {target : Target} {now : Timestamp} {saved before : List Entry}

/-- A rollback that succeeds leaves the entries of before. -/
theorem rollback_restores (h : BackedUp world target now saved before) {retention : Retention}
    {report : RollbackReport}
    (hok : (rollback Memory.environment target retention world).1 = .ok report) :
    (rollback Memory.environment target retention world).2.entries = before ∧
      (rollback Memory.environment target retention world).2.files =
        (world.retaining target retention).files := by
  have hend := rollback_sound target retention h.files
  generalize rollback Memory.environment target retention world = r at hok hend ⊢
  cases hend with
  | unread => cases hok
  | stopped => cases hok
  | @restored bytes snapshot hbytes hread after hrun =>
    obtain rfl : _ = bytes := Option.some.inj (h.snapshot.symm.trans hbytes)
    have hsaved := (Snapshot.eq_of_ofBytes_take (fun e he => h.legible e (h.subset he)) hread).2
    have hkept := (restoreEntries_noticing hrun).1
    rw [hsaved] at hrun
    have hrestores := restoreEntries_restores target h.ids h.subset
      ((world.entries_noticing target target.snapshotFile snapshot).symm ▸ h.restorable)
    rw [hrun] at hrestores
    refine ⟨(after.entries_retaining target retention).trans (hrestores rfl), ?_⟩
    cases retention with
    | keep => exact hkept
    | delete => exact congrArg (Dict.erase · target.snapshotFile) hkept

/-- A rollback succeeds when its snapshot can be read and none of its pushes is refused. -/
theorem rollback_succeeds (h : BackedUp world target now saved before) (hnow : now.InCalendar)
    (hdepth : ∀ e ∈ saved, e.doc.depth ≤ 125)
    (hpush : ∀ e ∈ saved, ∃ id, e.id? = some id ∧ id ∉ world.refusing) (retention : Retention) :
    (rollback Memory.environment target retention world).1 =
      .ok (rolledBack target retention saved.length) := by
  have hread := Snapshot.ofBytes_take target hnow (fun e he => h.legible e (h.subset he))
  rw [if_pos hdepth] at hread
  rw [rollback_of_some target retention h.files h.snapshot, hread]
  dsimp only
  have hentries : (Snapshot.take target now saved).entries = saved := rfl
  have hsucceeds := restoreEntries_succeeds target h.subset
    ((world.entries_noticing target target.snapshotFile (Snapshot.take target now saved)).symm ▸
      h.restorable)
    (by rwa [Memory.refusing_noticing])
  rw [hentries]
  generalize restoreEntries Memory.api target saved
    (world.noticing target target.snapshotFile (Snapshot.take target now saved)) = r at hsucceeds ⊢
  obtain ⟨result, after⟩ := r
  cases hsucceeds
  rfl

end BackedUp

end Blokwork
