import Blokwork.Proofs.Migration.Restoring

/-!
# Attempts at migrations, and rollbacks

An attempt runs a batch, or interrupts it after some of its steps, while some entries refuse to be
replaced. `Attempt.perform_effect` is what it can do to the memory: nothing, or its snapshot is
written and some of the saved entries are changed. The lemmas behind it say what every attempt
keeps.
-/

namespace Blokwork

/-- An attempt at a migration. -/
structure Attempt where
  job : Job
  /-- The number of steps before the process is interrupted; `none` when it is not. -/
  cut : Option Nat
  /-- The identifiers of the entries that cannot be replaced meanwhile. -/
  refusing : List String
  now : Timestamp

namespace Attempt

/-- What the attempt works on. -/
def circumstances (a : Attempt) (world : Memory) : Memory :=
  { world with refusing := a.refusing, now := a.now }

/-- The memory after the attempt. -/
def perform (a : Attempt) (world : Memory) : Memory :=
  match a.cut with
  | none => (a.job.run Memory.environment (a.circumstances world)).2
  | some n =>
    (Batch.steps a.job Memory.environment n (Batch.start a.job) (a.circumstances world)).2

variable {a : Attempt} {world : Memory}

/-- How far an attempt got. -/
theorem perform_progress (a : Attempt) (world : Memory) :
    ∃ b, Batch.Progress a.job (a.circumstances world) b (a.perform world) := by
  unfold perform
  cases a.cut with
  | none =>
    obtain ⟨b, -, hb⟩ := a.job.progress_run (a.circumstances world)
    exact ⟨b, hb⟩
  | some n => exact ⟨_, Batch.progress_steps a.job (a.circumstances world) n⟩

/-- An attempt leaves entries and files alone, or it wrote its snapshot. -/
theorem perform_effect (a : Attempt) (world : Memory) :
    ((a.perform world).entries = world.entries ∧ (a.perform world).files = world.files) ∨
      ∃ changes b, Batch.Written a.job (a.circumstances world) changes b (a.perform world) := by
  obtain ⟨b, hb | ⟨changes, hb⟩⟩ := perform_progress a world
  · exact .inl ⟨hb.entries, hb.files⟩
  · exact .inr ⟨changes, b, hb⟩

/-- An attempt keeps the names of the files distinct. -/
theorem perform_distinct (h : Dict.Distinct world.files) :
    Dict.Distinct (a.perform world).files := by
  rcases a.perform_effect world with ⟨-, hfiles⟩ | ⟨changes, b, hb⟩
  · rwa [hfiles]
  · rw [hb.files]
    exact Dict.Distinct.insert h _ _

/-- An attempt leaves the identifiers at their places. -/
theorem perform_ids (a : Attempt) (world : Memory) :
    (a.perform world).entries.map Entry.id? = world.entries.map Entry.id? := by
  rcases a.perform_effect world with ⟨hentries, -⟩ | ⟨changes, b, hb⟩
  · rw [hentries]
  · exact hb.entries.ids

/-- An attempt whose edit writes what can be read back keeps all entries so. -/
theorem perform_legible (hkeeps : a.job.transform.KeepsLegible)
    (h : ∀ e ∈ world.entries, e.doc.Legible) : ∀ e ∈ (a.perform world).entries, e.doc.Legible := by
  intro e he
  rcases a.perform_effect world with ⟨hentries, -⟩ | ⟨changes, b, hb⟩
  · exact h e (hentries ▸ he)
  · rcases hb.entries.mem he with he | he
    · exact h e he
    · obtain ⟨c, hc, rfl⟩ := List.mem_map.1 he
      obtain ⟨hfetched, hedit, -⟩ := mem_of_changesOf hb.edit hc
      exact hkeeps _ _ (h _ (List.mem_of_mem_filter hfetched)) hedit

/-- An attempt writes no snapshot but its own. -/
theorem perform_snapshot?_of_ne {target : Target}
    (hne : target.snapshotFile ≠ a.job.target.snapshotFile) :
    (a.perform world).snapshot? target = world.snapshot? target := by
  rcases a.perform_effect world with ⟨-, hfiles⟩ | ⟨changes, b, hb⟩
  · rw [Memory.snapshot?, hfiles, Memory.snapshot?]
  · rw [Memory.snapshot?, hb.files]
    exact Dict.get?_insert_of_ne _ hne.symm

end Attempt

/-- A rollback that is asked for. -/
structure Recovery where
  target : Target
  retention : Retention
  /-- The identifiers of the entries that cannot be replaced meanwhile. -/
  refusing : List String

namespace Recovery

/-- What the rollback works on. -/
def circumstances (r : Recovery) (world : Memory) : Memory := { world with refusing := r.refusing }

/-- The memory after the rollback. -/
def perform (r : Recovery) (world : Memory) : Memory :=
  (rollback Memory.environment r.target r.retention (r.circumstances world)).2

variable {r : Recovery} {world : Memory}

/-- A rollback keeps the names of the files distinct. -/
theorem perform_distinct (h : Dict.Distinct world.files) :
    Dict.Distinct (r.perform world).files := by
  have hfiles : Dict.Distinct (r.circumstances world).files := h
  rcases rollback_files r.target r.retention hfiles with heq | heq
  · rw [perform, heq]
    exact h
  · rw [perform, heq]
    exact h.erase _

/-- A snapshot that is there after a rollback was there before. -/
theorem snapshot?_of_perform (h : Dict.Distinct world.files) {target : Target} {bytes : ByteArray}
    (hbytes : (r.perform world).snapshot? target = some bytes) :
    world.snapshot? target = some bytes := by
  have hfiles : Dict.Distinct (r.circumstances world).files := h
  rw [perform, Memory.snapshot?] at hbytes
  rcases rollback_files r.target r.retention hfiles with heq | heq
  · rw [heq] at hbytes
    exact hbytes
  · rw [heq] at hbytes
    by_cases hfile : r.target.snapshotFile = target.snapshotFile
    · rw [hfile, Dict.get?_erase_self hfiles] at hbytes
      cases hbytes
    · rwa [Dict.get?_erase_of_ne hfile] at hbytes

end Recovery

end Blokwork
