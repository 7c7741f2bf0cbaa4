import Blokwork.Migration.Rollback
import Blokwork.Proofs.Files.SnapshotDirectory
import Blokwork.Proofs.Migration.BatchSteps

/-!
# Migrations with their snapshots on a disk

A batch whose snapshots lie in a directory of a workspace, next to a world of remote entries that
leaves the files alone (`OnDisk`). A snapshot that was saved is listed again if and only if its
file lies in the directory itself, which it does unless the component or the field has a slash, or
the path of the directory is empty (`created_listed_iff`). Files stay as they are after that
(`Batch.FoundAgain`, kept by every step), so that the same decides whether a rollback finds the
snapshot (`Job.snapshot_found_iff`).
-/

namespace Blokwork

open Workspace (snapshots)
open FileTree (WellNamed PlainFile)

variable {ρ : Type}

/-! ## A workspace with a world beside it -/

/-- What is done in the workspace alone. -/
def Workspace.beside {α : Type} (x : StateM Workspace α) : StateM (Workspace × ρ) α :=
  fun s => ((x s.1).1, ((x s.1).2, s.2))

/-- The same store with a world beside the workspace. -/
def SnapshotStore.beside (store : SnapshotStore (StateM Workspace)) :
    SnapshotStore (StateM (Workspace × ρ)) where
  list := Workspace.beside store.list
  read file := Workspace.beside (store.read file)
  create file contents := Workspace.beside (store.create file contents)
  has file := Workspace.beside (store.has file)
  remove file := Workspace.beside (store.remove file)

/-- The snapshots lie in a directory, and nothing else in the environment works on the files. -/
structure OnDisk (path : String) (env : MigrationEnvironment (StateM (Workspace × ρ))) : Prop where
  store : env.store = (snapshots path).store.beside
  entriesWith : ∀ component s, (env.api.entriesWith component s).2.1.files = s.1.files
  put : ∀ entry s, (env.api.put entry s).2.1.files = s.1.files
  report : ∀ notice s, (env.report notice s).2.1.files = s.1.files
  now : ∀ s, (env.now s).2.1.files = s.1.files

/-! ## The file of a snapshot -/

namespace Target

/-- The file of the target's snapshot lies in the directory itself. -/
def LiesIn (path : String) (target : Target) : Prop :=
  path ≠ "" ∧ '/' ∉ target.component.toList ∧ '/' ∉ target.field.toList

theorem toList_snapshotFile (target : Target) :
    target.snapshotFile.toList = "rollback_".toList ++ target.component.toList ++ "_".toList ++
      target.field.toList ++ ".json".toList := by
  rw [snapshotFile, String.toList_append, String.toList_append, String.toList_append,
    String.toList_append]

/-- The name of the file has the slashes of the component and the field. -/
theorem slash_mem_snapshotFile (target : Target) :
    '/' ∈ target.snapshotFile.toList ↔
      '/' ∈ target.component.toList ∨ '/' ∈ target.field.toList := by
  have hrollback : '/' ∉ "rollback_".toList := by decide
  have hline : '/' ∉ "_".toList := by decide
  have hjson : '/' ∉ ".json".toList := by decide
  rw [toList_snapshotFile]
  simp only [List.mem_append, hrollback, hline, hjson, false_or, or_false]

theorem snapshotFile_ne_empty (target : Target) : target.snapshotFile ≠ "" := by
  intro h
  have htext := toList_snapshotFile target
  rw [h] at htext
  have hlength := congrArg List.length htext
  simp only [List.length_append] at hlength
  have hjson : ".json".toList.length = 5 := by decide
  have hempty : "".toList.length = 0 := by decide
  omega

end Target

/-! ## The listing after a creation -/

/-- A file is listed in the directory of a path if and only if something holds. -/
def ListedIff (path file : String) (files : FileTree) (p : Prop) : Prop :=
  ∀ w : Workspace, w.files = files →
    ∃ names, (snapshots path).list w = (.ok names, w) ∧ (file ∈ names ↔ p)

variable {path file : String} {files : FileTree} {entries : Dict FileTree} {contents : ByteArray}

theorem listedIff_of_node? {p : Prop} (h : files.node? path = .ok (.directory entries))
    (hp : file ∈ SnapshotDirectory.plainNames entries ↔ p) : ListedIff path file files p := by
  rintro w rfl
  exact ⟨_, SnapshotDirectory.list_of_node? h, List.mem_mergeSort.trans hp⟩

theorem ListedIff.of_not {p : Prop} (h : ListedIff path file files False) (hp : ¬ p) :
    ListedIff path file files p := by
  intro w hw
  obtain ⟨names, hlist, hmem⟩ := h w hw
  exact ⟨names, hlist, hmem.trans (iff_of_false id hp)⟩

/-- Only names without a slash are listed. -/
theorem not_listed_of_wellNamed (hnamed : WellNamed files) (hslash : '/' ∈ file.toList) :
    ListedIff path file files False := by
  cases hdirectory : Workspace.nodeIs FileTree.isDirectoryNode path files with
  | false =>
    rintro w rfl
    exact ⟨[], SnapshotDirectory.list_of_missing hdirectory, iff_false_intro List.not_mem_nil⟩
  | true =>
    obtain ⟨entries, hnode⟩ := Workspace.isDirectory_eq_true.1 hdirectory
    refine listedIff_of_node? hnode (iff_false_intro fun hmem => ?_)
    obtain ⟨-, goal, -, hget⟩ := FileTree.node?_eq_directory.1 hnode
    obtain ⟨e, he, rfl⟩ := List.mem_map.1 hmem
    exact hnamed goal entries hget e.1 (List.mem_map_of_mem (List.mem_filter.1 he).1) hslash

theorem not_listed_of_empty : ListedIff "" file files False := by
  rintro w rfl
  have hmissing : Workspace.nodeIs FileTree.isDirectoryNode "" w.files = false := rfl
  exact ⟨[], SnapshotDirectory.list_of_missing hmissing, iff_false_intro List.not_mem_nil⟩

theorem mem_plainNames_insert (entries : Dict FileTree) (file : String) (contents : ByteArray) :
    file ∈ SnapshotDirectory.plainNames (Dict.insert entries file (.file contents)) :=
  List.mem_map.2 ⟨(file, .file contents), List.mem_filter.2
    ⟨Dict.mem_of_get? (Dict.get?_insert_self entries file _), rfl⟩, rfl⟩

/-- A file that was created is listed again if and only if it lies in the directory itself. -/
theorem created_listed_iff {w : Workspace} (hnamed : WellNamed w.files) (hne : file ≠ "")
    (h : ((snapshots path).create file contents w).1 = .ok true) :
    ListedIff path file ((snapshots path).create file contents w).2.files
      (path ≠ "" ∧ '/' ∉ file.toList) := by
  obtain ⟨made, created, written, hmade, hcreated, hwritten, hstate⟩ :=
    SnapshotDirectory.exists_of_create_eq_true h
  by_cases hpath : path = ""
  · subst hpath
    exact not_listed_of_empty.of_not fun hlies => hlies.1 rfl
  · by_cases hslash : '/' ∈ file.toList
    · have hwell : WellNamed written :=
        ((hnamed.makeDirectories hmade).create hcreated).write hwritten
      rw [hstate]
      exact (not_listed_of_wellNamed hwell hslash).of_not fun hlies => hlies.2 hslash
    · -- the name is a plain one, since the file could be created
      have hfile : PlainFile path file := FileTree.plainFile_of_create hne hslash hcreated
      obtain ⟨entries, hnode⟩ := FileTree.node?_of_makeDirectories hpath hmade
      have hentry : Dict.get? entries file = none := by
        rw [← Dict.has_eq_false, ← Bool.not_eq_true]
        intro htaken
        rw [SnapshotDirectory.create_taken hmade hnode hfile htaken contents] at h
        cases h
      obtain ⟨filled, hcreate, hfilled⟩ :=
        SnapshotDirectory.create_new hmade hnode hfile hentry contents
      rw [hcreate]
      exact listedIff_of_node? hfilled
        (iff_of_true (mem_plainNames_insert entries file contents) ⟨hpath, hslash⟩)

theorem list_snd (path : String) (w : Workspace) : ((snapshots path).list w).2 = w := by
  cases hdirectory : Workspace.nodeIs FileTree.isDirectoryNode path w.files with
  | false => rw [SnapshotDirectory.list_of_missing hdirectory]
  | true =>
    obtain ⟨entries, hnode⟩ := Workspace.isDirectory_eq_true.1 hdirectory
    rw [SnapshotDirectory.list_of_node? hnode]

/-! ## The steps of a batch -/

/-- The snapshot that is left behind: the one that was reported, or that of a failed push. -/
def snapshotLeft? : Except MigrationError MigrationReport → Option String
  | .ok report => report.snapshotFile
  | .error (.transport .push target _ _) => some target.snapshotFile
  | .error _ => none

/-- The snapshot of a target is listed if and only if it lies in the directory itself. -/
def Target.FoundAgain (path : String) (target : Target) (files : FileTree) : Prop :=
  ListedIff path target.snapshotFile files (target.LiesIn path)

/-- Once a snapshot was saved it is that of the target, and it can be told whether it is found
again. -/
def Batch.FoundAgain (path : String) (target : Target) (files : FileTree) : Batch → Prop
  | .pushing file _ _ _ => file = target.snapshotFile ∧ target.FoundAgain path files
  | .finished result => ∀ file, snapshotLeft? result = some file →
      file = target.snapshotFile ∧ target.FoundAgain path files
  | _ => WellNamed files

section
variable {env : MigrationEnvironment (StateM (Workspace × ρ))} {job : Job} {s : Workspace × ρ}

theorem existingSnapshots_beside (henv : OnDisk path env) (target : Target) (s : Workspace × ρ) :
    existingSnapshots env.store target s =
      (((snapshots path).list s.1).1.mapError .store |>.map fun names =>
        (names.filter target.isSnapshotFile).mergeSort (· ≤ ·), s) := by
  have hlist : env.store.list s = (((snapshots path).list s.1).1, s) := by
    rw [henv.store]
    exact congrArg (fun w => (((snapshots path).list s.1).1, (w, s.2))) (list_snd path s.1)
  rw [existingSnapshots, bind_apply, hlist]
  cases ((snapshots path).list s.1).1 <;> rfl

/-- A saved snapshot is that of the target, and it can be told whether it is found again. -/
theorem createSnapshot_foundAgain (henv : OnDisk path env) (target : Target)
    (entries : List Entry) (hnamed : WellNamed s.1.files) :
    (∃ e, (createSnapshot env target entries s).1 = .error e ∧
        snapshotLeft? (.error e) = none) ∨
      ((createSnapshot env target entries s).1 = .ok target.snapshotFile ∧
        target.FoundAgain path (createSnapshot env target entries s).2.1.files) := by
  rw [createSnapshot, bind_apply, bind_apply, henv.store]
  have hnow := henv.now s
  generalize env.now s = timed at hnow
  obtain ⟨time, s'⟩ := timed
  rw [← hnow] at hnamed
  generalize (Snapshot.take target time entries).text.toUTF8 = contents
  have hcreate : (snapshots path).store.beside.create target.snapshotFile contents s' =
      (((snapshots path).create target.snapshotFile contents s'.1).1,
        (((snapshots path).create target.snapshotFile contents s'.1).2, s'.2)) := rfl
  rw [hcreate]
  cases hresult : ((snapshots path).create target.snapshotFile contents s'.1).1 with
  | error cause => exact .inl ⟨.store cause, rfl, rfl⟩
  | ok fresh =>
    cases fresh with
    | false => exact .inl ⟨.conflict target target.snapshotFile, rfl, rfl⟩
    | true =>
      have hlisted := created_listed_iff hnamed target.snapshotFile_ne_empty hresult
      rw [target.slash_mem_snapshotFile, not_or] at hlisted
      exact .inr ⟨rfl, hlisted⟩

theorem check_foundAgain (henv : OnDisk path env) (job : Job) (h : WellNamed s.1.files) :
    (job.check env s).1.FoundAgain path job.target (job.check env s).2.1.files := by
  rw [Job.check, bind_apply, existingSnapshots_beside henv]
  cases ((snapshots path).list s.1).1 with
  | error cause =>
    intro file hfile
    cases hfile
  | ok names =>
    simp only [Except.mapError, Except.map]
    cases (names.filter job.target.isSnapshotFile).mergeSort (· ≤ ·) with
    | nil => exact h
    | cons file rest =>
      intro file hfile
      cases hfile

theorem fetch_foundAgain (henv : OnDisk path env) (job : Job) (h : WellNamed s.1.files) :
    (job.fetch env s).1.FoundAgain path job.target (job.fetch env s).2.1.files := by
  rw [Job.fetch, bind_apply]
  have hfetch := henv.entriesWith job.target.component s
  generalize env.api.entriesWith job.target.component s = fetched at hfetch
  obtain ⟨result, s'⟩ := fetched
  rw [← hfetch] at h
  cases result with
  | error cause =>
    intro file hfile
    cases hfile
  | ok entries =>
    simp only
    cases hchanges : changesOf job.transform entries with
    | error e =>
      obtain ⟨id, cause, rfl⟩ := changesOf_error hchanges
      intro file hfile
      cases hfile
    | ok changes =>
      simp only
      split
      · intro file hfile
        cases hfile
      · split
        · intro file hfile
          cases hfile
        · exact h

theorem save_foundAgain (henv : OnDisk path env) (job : Job) (fetched : Nat)
    (changes : List EntryChange) (h : WellNamed s.1.files) :
    (job.save env fetched changes s).1.FoundAgain path job.target
      (job.save env fetched changes s).2.1.files := by
  rw [Job.save, bind_apply]
  have hsaved := createSnapshot_foundAgain henv job.target (changes.map (·.before)) h
  generalize createSnapshot env job.target (changes.map (·.before)) s = saved at hsaved
  obtain ⟨result, s'⟩ := saved
  rcases hsaved with ⟨e, rfl, hnone⟩ | ⟨rfl, hfound⟩
  · intro file hfile
    rw [hnone] at hfile
    cases hfile
  · exact ⟨rfl, hfound⟩

theorem push_foundAgain (henv : OnDisk path env) (job : Job) {file : String} (fetched : Nat)
    (changes remaining : List EntryChange) (hfile : file = job.target.snapshotFile)
    (h : job.target.FoundAgain path s.1.files) :
    (job.push env file fetched changes remaining s).1.FoundAgain path job.target
      (job.push env file fetched changes remaining s).2.1.files := by
  cases remaining with
  | nil =>
    rintro left ⟨⟩
    exact ⟨hfile, h⟩
  | cons c remaining =>
    rw [Job.push, bind_apply]
    have hput := henv.put c.after s
    generalize env.api.put c.after s = pushed at hput
    obtain ⟨result, s'⟩ := pushed
    rw [← hput] at h
    cases result with
    | ok entry => exact ⟨hfile, h⟩
    | error cause =>
      simp only
      rw [bind_apply]
      rintro left ⟨⟩
      refine ⟨rfl, ?_⟩
      change job.target.FoundAgain path (env.report _ s').2.1.files
      rw [henv.report]
      exact h

/-- Every step keeps it. -/
theorem step_foundAgain (henv : OnDisk path env) (job : Job) (b : Batch) (s : Workspace × ρ)
    (h : b.FoundAgain path job.target s.1.files) :
    (Batch.step job env b s).1.FoundAgain path job.target (Batch.step job env b s).2.1.files := by
  cases b with
  | checking => exact check_foundAgain henv job h
  | fetching => exact fetch_foundAgain henv job h
  | saving fetched changes => exact save_foundAgain henv job fetched changes h
  | pushing file fetched changes remaining =>
    exact push_foundAgain henv job fetched changes remaining h.1 h.2
  | finished result => exact h

/-- Any number of steps keep it. -/
theorem steps_foundAgain (henv : OnDisk path env) (job : Job) (n : Nat) {b : Batch}
    {s : Workspace × ρ} (h : b.FoundAgain path job.target s.1.files) :
    (Batch.steps job env n b s).1.FoundAgain path job.target
      (Batch.steps job env n b s).2.1.files := by
  induction n generalizing b s with
  | zero => exact h
  | succ n ih =>
    rw [Batch.steps, bind_apply]
    exact ih (step_foundAgain henv job b s h)

/-- Whether the snapshot that a run leaves behind is found again. -/
theorem run_foundAgain (henv : OnDisk path env) (job : Job) (hnamed : WellNamed s.1.files)
    {file : String} (h : snapshotLeft? (job.run env s).1 = some file) :
    file = job.target.snapshotFile ∧
      job.target.FoundAgain path (job.run env s).2.1.files := by
  have hstart : (Batch.start job).FoundAgain path job.target s.1.files := by
    rw [Batch.start]
    split <;> exact hnamed
  have hfetched := steps_foundAgain henv job 2 hstart
  rw [Job.run, bind_apply] at h ⊢
  generalize Batch.steps job env 2 (Batch.start job) s = fetched at h hfetched ⊢
  have hdone := steps_foundAgain henv job fetched.1.stepsLeft hfetched
  rw [bind_apply] at h ⊢
  generalize Batch.steps job env fetched.1.stepsLeft fetched.1 fetched.2 = done at h hdone ⊢
  obtain ⟨b, s'⟩ := done
  cases b with
  | finished result => exact hdone file h
  | _ => cases h

end

/-! ## The rollback after a run -/

section
variable {σ : Type} {env : MigrationEnvironment (StateM σ)}

theorem readSnapshot_ne_notFound (store : SnapshotStore (StateM σ)) (file : String) (s : σ)
    (target : Target) : (readSnapshot store file s).1 ≠ .error (.notFound target) := by
  rw [readSnapshot, bind_apply]
  cases (store.read file s).1 with
  | error cause => exact nofun
  | ok bytes =>
    change (Snapshot.ofBytes bytes).mapError (MigrationError.snapshot file) ≠ _
    cases Snapshot.ofBytes bytes <;> exact nofun

theorem restoreEntries_ne_notFound (api : ContentApi (StateM σ)) (target : Target)
    (entries : List Entry) (s : σ) (other : Target) :
    (restoreEntries api target entries s).1 ≠ .error (.notFound other) := by
  induction entries generalizing s with
  | nil => exact nofun
  | cons e rest ih =>
    rw [restoreEntries, bind_apply]
    cases (api.put e s).1 with
    | error cause => exact nofun
    | ok entry => exact ih _

/-- What goes on after entries were restored fails with them, or on its own. -/
theorem restoreEntries_bind_ne_notFound {api : ContentApi (StateM σ)} {target other : Target}
    {entries : List Entry}
    {next : Except MigrationError Unit → StateM σ (Except MigrationError Nat)}
    (herror : ∀ e s, (next (.error e) s).1 = .error e)
    (hok : ∀ s, (next (.ok ()) s).1 ≠ .error (.notFound other)) (s : σ) :
    ((restoreEntries api target entries >>= next) s).1 ≠ .error (.notFound other) := by
  rw [bind_apply]
  have hentries := restoreEntries_ne_notFound api target entries s other
  generalize restoreEntries api target entries s = done at hentries
  obtain ⟨result, s'⟩ := done
  cases result with
  | ok _ => exact hok s'
  | error e =>
    rw [herror]
    intro h
    cases h
    exact hentries rfl

theorem restoreFiles_ne_notFound (env : MigrationEnvironment (StateM σ)) (target : Target)
    (restored : Nat) (files : List String) (s : σ) (other : Target) :
    (restoreFiles env target restored files s).1 ≠ .error (.notFound other) := by
  induction files generalizing restored s with
  | nil => exact nofun
  | cons file rest ih =>
    rw [restoreFiles, bind_apply]
    have hread := readSnapshot_ne_notFound env.store file s other
    generalize readSnapshot env.store file s = read at hread
    obtain ⟨result, s'⟩ := read
    cases result with
    | error e =>
      intro h
      cases h
      exact hread rfl
    | ok snapshot =>
      simp only
      -- a foreign snapshot is reported, and restored all the same
      split
      · rw [bind_apply]
        refine restoreEntries_bind_ne_notFound ?_ ?_ _
        · exact fun e s => rfl
        · exact fun s => ih _ s
      · refine restoreEntries_bind_ne_notFound ?_ ?_ _
        · exact fun e s => rfl
        · exact fun s => ih _ s

theorem removeFiles_ne_notFound (store : SnapshotStore (StateM σ)) (files : List String) (s : σ)
    (target : Target) : (removeFiles store files s).1 ≠ .error (.notFound target) := by
  induction files generalizing s with
  | nil => exact nofun
  | cons file rest ih =>
    rw [removeFiles, bind_apply]
    cases (store.remove file s).1 with
    | error cause => exact nofun
    | ok _ => exact ih _

/-- A rollback finds nothing exactly when there are no snapshots of the target. -/
theorem rollback_eq_notFound_iff (env : MigrationEnvironment (StateM σ)) (target : Target)
    (retention : Retention) (s : σ) {names : List String}
    (h : (existingSnapshots env.store target s).1 = .ok names) :
    (rollback env target retention s).1 = .error (.notFound target) ↔ names = [] := by
  rw [rollback, bind_apply, h]
  cases names with
  | nil => exact iff_of_true rfl rfl
  | cons file rest =>
    refine iff_of_false ?_ (List.cons_ne_nil file rest)
    simp only
    rw [bind_apply]
    generalize (existingSnapshots env.store target s).2 = s'
    have hrestored := restoreFiles_ne_notFound env target 0 (file :: rest) s' target
    generalize restoreFiles env target 0 (file :: rest) s' = done at hrestored
    obtain ⟨result, s'⟩ := done
    cases result with
    | error e =>
      intro h
      cases h
      exact hrestored rfl
    | ok restored =>
      cases retention with
      | keep => exact nofun
      | delete =>
        simp only
        rw [bind_apply]
        have hremoved := removeFiles_ne_notFound env.store (file :: rest) s' target
        generalize removeFiles env.store (file :: rest) s' = removed at hremoved
        obtain ⟨result, s'⟩ := removed
        cases result with
        | error e =>
          intro h
          cases h
          exact hremoved rfl
        | ok _ => exact nofun

end

/-- A run leaves a snapshot behind that is listed for its target, and that a rollback finds, if and
only if the file lies in the directory of snapshots itself: the path of the directory is not empty,
and neither the component nor the field has a slash. -/
theorem Job.snapshot_found_iff {env : MigrationEnvironment (StateM (Workspace × ρ))}
    (henv : OnDisk path env) (job : Job) (retention : Retention) {s : Workspace × ρ}
    (hnamed : WellNamed s.1.files) (h : snapshotLeft? (job.run env s).1 = some file) :
    (∃ names, (existingSnapshots env.store job.target (job.run env s).2).1 = .ok names ∧
        (file ∈ names ↔ job.target.LiesIn path)) ∧
      ((rollback env job.target retention (job.run env s).2).1 = .error (.notFound job.target) ↔
        ¬ job.target.LiesIn path) := by
  obtain ⟨rfl, hfound⟩ := run_foundAgain henv job hnamed h
  generalize (job.run env s).2 = s' at hfound
  obtain ⟨names, hlist, hmem⟩ := hfound s'.1 rfl
  have hexisting : (existingSnapshots env.store job.target s').1 =
      .ok ((names.filter job.target.isSnapshotFile).mergeSort (· ≤ ·)) := by
    rw [existingSnapshots_beside henv, hlist]
    rfl
  have hmem' : job.target.snapshotFile ∈
      (names.filter job.target.isSnapshotFile).mergeSort (· ≤ ·) ↔ job.target.LiesIn path := by
    rw [List.mem_mergeSort, List.mem_filter, hmem]
    exact and_iff_left (decide_eq_true rfl)
  refine ⟨⟨_, hexisting, hmem'⟩, ?_⟩
  rw [rollback_eq_notFound_iff env job.target retention s' hexisting, ← hmem']
  constructor
  · intro hnil
    rw [hnil]
    exact List.not_mem_nil
  · intro hnone
    rw [List.eq_nil_iff_forall_not_mem]
    intro name hname
    -- all that is kept by the filter is the file itself
    have hkept := (List.mem_filter.1 (List.mem_mergeSort.1 hname)).2
    rw [Target.isSnapshotFile, decide_eq_true_eq] at hkept
    exact hnone (hkept ▸ hname)

namespace Nested

/-- What is done in the memory beside a workspace. -/
def remotely {α : Type} (x : StateM Memory α) : StateM (Workspace × Memory) α :=
  fun s => ((x s.2).1, (s.1, (x s.2).2))

/-- Entries in memory, with the snapshots in a directory of a workspace. -/
def environment (path : String) : MigrationEnvironment (StateM (Workspace × Memory)) where
  api :=
    { credentials := Memory.api.credentials
      entriesWith := fun component => remotely (Memory.api.entriesWith component)
      put := fun entry => remotely (Memory.api.put entry) }
  store := (snapshots path).store.beside
  report notice := Workspace.beside (Workspace.report notice)
  now := Workspace.beside fun w => (w.now, w)

theorem onDisk (path : String) : OnDisk path (environment path) where
  store := rfl
  entriesWith _ _ := rfl
  put _ _ := rfl
  report _ _ := rfl
  now _ := rfl

/-- An empty directory in the directory of snapshots. -/
def tree : FileTree :=
  .directory [("rollback", .directory [("rollback_a", .directory [])])]

/-- An entry with a blok of the target's component. -/
def page (t : Target) : Entry where
  doc := .obj [("id", .str "7"), ("content", .obj [("component", .str t.component)])]

/-- The edit of the entry clears its content. -/
def job (t : Target) : Job where
  target := t
  transform := fun e => .ok (e.withContent .null)
  dryRun := false

/-- The directory, and the entry in a space that refuses some entries. -/
def start (t : Target) (refusing : List String) : Workspace × Memory :=
  ({ files := tree }, { entries := [page t], refusing := refusing })

/-- The world after a run for a target. -/
def after (t : Target) (refusing : List String) : Workspace × Memory :=
  ((job t).run (environment "rollback") (start t refusing)).2

/-- The snapshot of `a/b.c` is saved in a subdirectory, where neither the list nor the rollback of
the same target finds it. -/
theorem slash_not_found :
    snapshotLeft? ((job ⟨"a/b", "c"⟩).run (environment "rollback") (start ⟨"a/b", "c"⟩ [])).1 =
        some "rollback_a/b_c.json" ∧
      (existingSnapshots (environment "rollback").store ⟨"a/b", "c"⟩ (after ⟨"a/b", "c"⟩ [])).1 =
        .ok [] ∧
      (rollback (environment "rollback") ⟨"a/b", "c"⟩ .keep (after ⟨"a/b", "c"⟩ [])).1 =
        .error (.notFound ⟨"a/b", "c"⟩) := by
  refine ⟨?_, ?_, ?_⟩ <;> decide +kernel

theorem wellNamed_tree : WellNamed tree :=
  have hinner : WellNamed (.directory (Dict.insert [] "rollback_a" (.directory []))) :=
    FileTree.wellNamed_empty.insert FileTree.wellNamed_empty (by decide)
  FileTree.wellNamed_empty.insert hinner (by decide)

theorem liesIn_page : Target.LiesIn "rollback" ⟨"page", "title"⟩ := by
  refine ⟨?_, ?_, ?_⟩ <;> decide

/-- The theorem at a run that fails in its only push: the snapshot of `page.title` lies in the
directory, beside the subdirectory, and is found. -/
theorem snapshot_found_page :
    OnDisk "rollback" (environment "rollback") ∧
      WellNamed (start ⟨"page", "title"⟩ ["7"]).1.files ∧
      snapshotLeft? ((job ⟨"page", "title"⟩).run (environment "rollback")
        (start ⟨"page", "title"⟩ ["7"])).1 = some "rollback_page_title.json" ∧
      (∃ names, (existingSnapshots (environment "rollback").store ⟨"page", "title"⟩
          (after ⟨"page", "title"⟩ ["7"])).1 = .ok names ∧ "rollback_page_title.json" ∈ names) ∧
      (rollback (environment "rollback") ⟨"page", "title"⟩ .keep
          (after ⟨"page", "title"⟩ ["7"])).1 ≠ .error (.notFound ⟨"page", "title"⟩) := by
  have hleft : snapshotLeft? ((job ⟨"page", "title"⟩).run (environment "rollback")
      (start ⟨"page", "title"⟩ ["7"])).1 = some "rollback_page_title.json" := by decide +kernel
  obtain ⟨⟨names, hnames, hmem⟩, hrollback⟩ :=
    Job.snapshot_found_iff (onDisk "rollback") (job ⟨"page", "title"⟩) .keep wellNamed_tree hleft
  refine ⟨onDisk "rollback", wellNamed_tree, hleft, ⟨names, hnames, hmem.2 liesIn_page⟩, ?_⟩
  exact fun h => hrollback.1 h liesIn_page

end Nested

end Blokwork
