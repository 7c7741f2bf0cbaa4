import Blokwork.Proofs.Migration.Journal
import Mathlib.Data.Set.Function
import Mathlib.Data.List.Induction

/-!
# Whose snapshot is restored

A snapshot is found by the name of its file, and the name is the component and the field with a low
line between them: two targets share a file when their names run together in the same way
(`Target.snapshotFile_eq_iff`). Along every run of attempts and rollbacks, a rollback pushes only
entries that an attempt for the same target captured, and an attempt is stopped only by a snapshot
of its own target, exactly when no two of the targets share a file (`own_snapshots_iff`).
-/

namespace Blokwork

/-! ## Names of snapshots -/

/-- Targets share a file when component and field run together in the same way. -/
theorem Target.snapshotFile_eq_iff (t u : Target) :
    t.snapshotFile = u.snapshotFile ↔
      t.component ++ "_" ++ t.field = u.component ++ "_" ++ u.field := by
  have hname (t : Target) :
      t.snapshotFile = "rollback_" ++ (t.component ++ "_" ++ t.field) ++ ".json" := by
    simp only [snapshotFile, String.append_assoc]
  rw [hname, hname, String.append_left_inj, String.append_right_inj]

/-- Targets whose components have no low line never share a file. -/
theorem Target.snapshotFile_injOn :
    Set.InjOn Target.snapshotFile {t | '_' ∉ t.component.toList} := by
  have hfirst {cs : List Char} (hcs : '_' ∉ cs) (rest : List Char) :
      (cs ++ '_' :: rest).takeWhile (· ≠ '_') = cs := by
    have hall : ∀ c ∈ cs, decide (c ≠ '_') = true := fun c hc =>
      decide_eq_true (ne_of_mem_of_not_mem hc hcs)
    rw [List.takeWhile_append_of_pos hall, List.takeWhile_cons_of_neg (by simp), List.append_nil]
  intro t ht u hu hfile
  have htext := congrArg String.toList ((snapshotFile_eq_iff t u).1 hfile)
  have hline : "_".toList = ['_'] := rfl
  simp only [String.toList_append, hline, List.append_assoc, List.singleton_append] at htext
  have hcomponent : t.component.toList = u.component.toList := by
    rw [← hfirst ht t.field.toList, htext, hfirst hu]
  rw [hcomponent, List.append_cancel_left_eq, List.cons.injEq] at htext
  obtain ⟨component, field⟩ := t
  rw [Target.mk.injEq]
  exact ⟨String.toList_inj.1 hcomponent, String.toList_inj.1 htext.2⟩

/-! ## Calls -/

/-- A call of the program: an attempt at a migration, or a rollback. -/
inductive Call where
  | apply (attempt : Attempt)
  | rollback (recovery : Recovery)

namespace Call

/-- The target that the call names. -/
def target : Call → Target
  | .apply a => a.job.target
  | .rollback r => r.target

/-- The memory after the call. -/
def perform : Call → Memory → Memory
  | .apply a => a.perform
  | .rollback r => r.perform

/-- The memory after some calls, one after the other. -/
def performAll (calls : List Call) (world : Memory) : Memory :=
  calls.foldl (fun world call => call.perform world) world

theorem performAll_concat (calls : List Call) (call : Call) (world : Memory) :
    performAll (calls ++ [call]) world = call.perform (performAll calls world) := by
  rw [performAll, List.foldl_concat, performAll]

end Call

/-- What an attempt reports; one that is interrupted reports only what it ended with before. -/
def Attempt.Reports (a : Attempt) (world : Memory)
    (result : Except MigrationError MigrationReport) : Prop :=
  match a.cut with
  | none => (a.job.run Memory.environment (a.circumstances world)).1 = result
  | some n => (Batch.steps a.job Memory.environment n (Batch.start a.job)
      (a.circumstances world)).1 = .finished result

/-- What a rollback pushes, whether the pushes succeed or not. -/
def Recovery.pushes (r : Recovery) (world : Memory) : List Entry :=
  (Blokwork.rollback Journal.environment r.target r.retention
    { world := r.circumstances world }).2.pushed

/-- Among the calls there is an attempt for that very target which found no snapshot, and wrote one
with those bytes: the snapshot of the entries `saved`, which are the entries it changes, as it
found them. -/
def Captured (world : Memory) (calls : List Call) (target : Target) (bytes : ByteArray)
    (saved : List Entry) : Prop :=
  ∃ earlier a later changes, calls = earlier ++ .apply a :: later ∧ a.job.target = target ∧
    (Call.performAll earlier world).snapshot? target = none ∧
    (a.perform (Call.performAll earlier world)).snapshot? target = some bytes ∧
    changesOf a.job.transform ((Call.performAll earlier world).fetched target) = .ok changes ∧
    saved = changes.map EntryChange.before ∧
    bytes = (Snapshot.take target a.now saved).text.toUTF8

/-- Every entry that a rollback pushes was captured for its target by an earlier attempt. -/
def RestoresOwn (world : Memory) (calls : List Call) : Prop :=
  ∀ earlier r later, calls = earlier ++ .rollback r :: later →
    ∀ e ∈ r.pushes (Call.performAll earlier world),
      ∃ bytes saved, Captured world earlier r.target bytes saved ∧ e ∈ saved

/-- An attempt that reports a conflict has a snapshot in the store that was captured for its target
by an earlier attempt. -/
def ConflictsOwn (world : Memory) (calls : List Call) : Prop :=
  ∀ earlier a later, calls = earlier ++ .apply a :: later →
    ∀ target file, a.Reports (Call.performAll earlier world) (.error (.conflict target file)) →
      ∃ bytes saved, Captured world earlier a.job.target bytes saved ∧
        (Call.performAll earlier world).snapshot? a.job.target = some bytes

/-- A run for some of the targets, from an empty store. All that is in the memory and all that the
attempts write are documents, so they can be read back. -/
structure Admissible (targets : Set Target) (world : Memory) (calls : List Call) : Prop where
  empty : world.files = []
  legible : ∀ e ∈ world.entries, e.doc.Legible
  named : ∀ call ∈ calls, call.target ∈ targets
  keeps : ∀ a, Call.apply a ∈ calls → a.job.transform.KeepsLegible

/-! ## Distinct names suffice -/

/-- A conflict is reported only where there is a snapshot. -/
theorem Attempt.snapshot?_of_conflict {a : Attempt} {world : Memory} {target : Target}
    {file : String} (h : a.Reports world (.error (.conflict target file))) :
    world.snapshot? a.job.target ≠ none := by
  have hstart := Batch.ConflictFounded.start a.job (a.circumstances world)
  unfold Attempt.Reports at h
  cases hcut : a.cut with
  | none =>
    obtain ⟨b, hresult, hb⟩ :=
      Batch.run_preserves (fun _ _ _ _ => Batch.ConflictFounded.step) hstart
    rw [hcut] at h
    dsimp only at h
    rw [hresult] at h
    cases b with
    | finished result =>
      cases h
      exact hb.founded target file rfl
    | checking | fetching | saving | pushing => cases h
  | some n =>
    rw [hcut] at h
    have hb := Batch.steps_preserves (fun _ _ _ _ => Batch.ConflictFounded.step) n hstart
    exact hb.founded target file h

theorem Captured.concat {world : Memory} {calls : List Call} {target : Target} {bytes : ByteArray}
    {saved : List Entry} (h : Captured world calls target bytes saved) (call : Call) :
    Captured world (calls ++ [call]) target bytes saved := by
  obtain ⟨earlier, a, later, changes, rfl, hrest⟩ := h
  exact ⟨earlier, a, later ++ [call], changes, by simp, hrest⟩

/-- What holds along a run: entries and captured entries can be read back, and each snapshot of a
target was captured for it. -/
structure Owned (targets : Set Target) (world : Memory) (calls : List Call) : Prop where
  files : Dict.Distinct (Call.performAll calls world).files
  legible : ∀ e ∈ (Call.performAll calls world).entries, e.doc.Legible
  origin : ∀ target ∈ targets, ∀ bytes,
    (Call.performAll calls world).snapshot? target = some bytes →
    ∃ saved, Captured world calls target bytes saved ∧ ∀ e ∈ saved, e.doc.Legible

theorem Owned.start {targets : Set Target} {world : Memory} {calls : List Call}
    (h : Admissible targets world calls) : Owned targets world [] where
  files := by
    rw [Call.performAll, List.foldl_nil, h.empty]
    exact List.nodup_nil
  legible := h.legible
  origin target _ bytes hbytes := by
    rw [Call.performAll, List.foldl_nil, Memory.snapshot?, h.empty] at hbytes
    cases hbytes

/-- What was captured stays captured. -/
theorem Owned.origin_concat {targets : Set Target} {world : Memory} {calls : List Call}
    (h : Owned targets world calls) (call : Call) {target : Target} (hmem : target ∈ targets)
    {bytes : ByteArray} (hget : (Call.performAll calls world).snapshot? target = some bytes) :
    ∃ saved, Captured world (calls ++ [call]) target bytes saved ∧
      ∀ e ∈ saved, e.doc.Legible := by
  obtain ⟨saved, hsaved, hlegible⟩ := h.origin target hmem bytes hget
  exact ⟨saved, hsaved.concat call, hlegible⟩

/-- An attempt writes a snapshot of its own target, or none. -/
theorem Owned.attempt {targets : Set Target} {world : Memory} {calls : List Call} {a : Attempt}
    (h : Owned targets world calls) (hinj : Set.InjOn Target.snapshotFile targets)
    (htarget : a.job.target ∈ targets) (hkeeps : a.job.transform.KeepsLegible) :
    Owned targets world (calls ++ [.apply a]) := by
  have hrun : Call.performAll (calls ++ [.apply a]) world =
      a.perform (Call.performAll calls world) := Call.performAll_concat calls _ world
  refine ⟨?_, ?_, fun target hmem bytes hbytes => ?_⟩
  · rw [hrun]
    exact Attempt.perform_distinct h.files
  · rw [hrun]
    exact Attempt.perform_legible hkeeps h.legible
  rw [hrun] at hbytes
  by_cases hfile : target.snapshotFile = a.job.target.snapshotFile
  · obtain rfl : target = a.job.target := hinj hmem htarget hfile
    rcases a.perform_effect (Call.performAll calls world) with ⟨-, hfiles⟩ | ⟨changes, b, hb⟩
    · rw [Memory.snapshot?, hfiles] at hbytes
      exact h.origin_concat _ hmem hbytes
    · refine ⟨changes.map EntryChange.before, ⟨calls, a, [], changes, rfl, rfl, hb.new, hbytes,
        hb.edit, rfl, ?_⟩, fun e he => h.legible e (hb.saved_subset he)⟩
      exact Option.some.inj (hbytes.symm.trans hb.snapshot?)
  · rw [Attempt.perform_snapshot?_of_ne hfile] at hbytes
    exact h.origin_concat _ hmem hbytes

/-- A rollback writes no snapshot, and pushes what was captured for its target. -/
theorem Owned.recovery {targets : Set Target} {world : Memory} {calls : List Call} {r : Recovery}
    (h : Owned targets world calls) (htarget : r.target ∈ targets) :
    Owned targets world (calls ++ [.rollback r]) := by
  have hrun : Call.performAll (calls ++ [.rollback r]) world =
      r.perform (Call.performAll calls world) := Call.performAll_concat calls _ world
  refine ⟨?_, fun e he => ?_, fun target hmem bytes hbytes => ?_⟩
  · rw [hrun]
    exact Recovery.perform_distinct h.files
  · rw [hrun] at he
    have hfiles : Dict.Distinct (r.circumstances (Call.performAll calls world)).files := h.files
    rcases mem_of_rollback r.target r.retention hfiles he with
      he | ⟨bytes, snapshot, hget, hbytes, he⟩
    · exact h.legible e he
    · obtain ⟨saved, ⟨_, a, _, _, _, _, _, _, _, _, rfl⟩, hlegible⟩ :=
        h.origin r.target htarget bytes hget
      rw [(Snapshot.eq_of_ofBytes_take hlegible hbytes).2] at he
      exact hlegible e he
  · rw [hrun] at hbytes
    exact h.origin_concat _ hmem (Recovery.snapshot?_of_perform h.files hbytes)

theorem Owned.concat {targets : Set Target} {world : Memory} {calls : List Call} {call : Call}
    (h : Owned targets world calls) (hinj : Set.InjOn Target.snapshotFile targets)
    (htarget : call.target ∈ targets)
    (hkeeps : ∀ a, call = .apply a → a.job.transform.KeepsLegible) :
    Owned targets world (calls ++ [call]) := by
  cases call with
  | apply a => exact h.attempt hinj htarget (hkeeps a rfl)
  | rollback r => exact h.recovery htarget

theorem Admissible.earlier {targets : Set Target} {world : Memory} {earlier later : List Call}
    (h : Admissible targets world (earlier ++ later)) : Admissible targets world earlier :=
  { h with
    named := fun c hc => h.named c (List.mem_append_left _ hc)
    keeps := fun a ha => h.keeps a (List.mem_append_left _ ha) }

theorem Admissible.owned {targets : Set Target} {world : Memory} {calls : List Call}
    (h : Admissible targets world calls) (hinj : Set.InjOn Target.snapshotFile targets) :
    Owned targets world calls := by
  induction calls using List.reverseRecOn with
  | nil => exact Owned.start h
  | append_singleton calls call ih =>
    have hcall : call ∈ calls ++ [call] :=
      List.mem_append_right calls (List.mem_singleton_self call)
    exact (ih h.earlier).concat hinj (h.named call hcall) fun a ha => h.keeps a (ha ▸ hcall)

theorem Admissible.restoresOwn {targets : Set Target} {world : Memory} {calls : List Call}
    (h : Admissible targets world calls) (hinj : Set.InjOn Target.snapshotFile targets) :
    RestoresOwn world calls := by
  rintro earlier r later rfl e he
  have howned := h.earlier.owned hinj
  obtain ⟨pushed, hpushed, -, hrun⟩ := Journal.rollback_journal r.target r.retention
    { world := r.circumstances (Call.performAll earlier world) }
  rw [Recovery.pushes, hrun] at he
  obtain ⟨bytes, snapshot, hget, hbytes, he⟩ := hpushed e he
  have hmem : r.target ∈ targets := h.named (.rollback r) (by simp)
  obtain ⟨saved, hcaptured, hlegible⟩ := howned.origin r.target hmem bytes hget
  refine ⟨bytes, saved, hcaptured, ?_⟩
  obtain ⟨_, a, _, _, _, _, _, _, _, _, rfl⟩ := hcaptured
  rwa [(Snapshot.eq_of_ofBytes_take hlegible hbytes).2] at he

theorem Admissible.conflictsOwn {targets : Set Target} {world : Memory} {calls : List Call}
    (h : Admissible targets world calls) (hinj : Set.InjOn Target.snapshotFile targets) :
    ConflictsOwn world calls := by
  rintro earlier a later rfl target file hreports
  have hmem : a.job.target ∈ targets := h.named (.apply a) (by simp)
  obtain ⟨bytes, hget⟩ := Option.ne_none_iff_exists'.1 (Attempt.snapshot?_of_conflict hreports)
  obtain ⟨saved, hcaptured, -⟩ := (h.earlier.owned hinj).origin a.job.target hmem bytes hget
  exact ⟨bytes, saved, hcaptured, hget⟩

/-! ## Distinct names are needed -/

namespace Clash

/-- An entry with a blok of the target's component. -/
def page (t : Target) : Entry where
  doc := .obj [("id", .str "1"), ("content", .obj [("component", .str t.component)])]

/-- A space with one entry. -/
def world (t : Target) : Memory := { entries := [page t] }

/-- An attempt that clears the content. -/
def attempt (t : Target) : Attempt where
  job := { target := t, transform := fun e => .ok (e.withContent .null), dryRun := false }
  cut := none
  refusing := []
  now := ⟨0, 0⟩

theorem page_legible (t : Target) : (page t).doc.Legible := by
  simp [page, Dict.Distinct, Dict.keys]

/-- The attempt changes the entry. -/
theorem changesOf_world (t : Target) :
    changesOf (attempt t).job.transform ((world t).fetched t) =
      .ok [⟨page t, (page t).withContent .null⟩] := by
  have hfetched : (world t).fetched t = [page t] := by
    simp [Memory.fetched, world, page, Entry.containsComponent, Entry.content?, Json.member?,
      Json.members?, Json.hasBlok, isBlokOf]
  have hsame : ((page t).withContent .null).same (page t) = false := by
    simp [page, Entry.withContent, Entry.same, Json.same, Json.sameMembers, Dict.insert]
  rw [hfetched]
  simp [changesOf, attempt, hsame, Except.map]

/-- The attempt writes the snapshot of the entry. -/
theorem snapshot?_attempt (t : Target) :
    ((attempt t).perform (world t)).snapshot? t =
      some (Snapshot.take t ⟨0, 0⟩ [page t]).text.toUTF8 := by
  have hnew : ((attempt t).circumstances (world t)).snapshot? t = none := rfl
  obtain ⟨b, hb⟩ := Job.run_written (attempt t).job rfl hnew (changesOf_world t)
    (List.cons_ne_nil _ _)
  exact hb.snapshot?

theorem keepsLegible (t : Target) : (attempt t).job.transform.KeepsLegible := by
  intro e u he h
  cases h
  exact Entry.withContent_legible Json.Legible_null he

/-- A rollback of the one target behind the attempt for the other. -/
def rolledBack (t u : Target) : List Call := [.apply (attempt t), .rollback ⟨u, .keep, []⟩]

/-- Attempts for one target and for the other. -/
def attempted (t u : Target) : List Call := [.apply (attempt t), .apply (attempt u)]

theorem rolledBack_admissible {targets : Set Target} {t u : Target} (ht : t ∈ targets)
    (hu : u ∈ targets) : Admissible targets (world t) (rolledBack t u) where
  empty := rfl
  legible := by simpa [world] using page_legible t
  named := by simp [rolledBack, Call.target, attempt, ht, hu]
  keeps := by simpa [rolledBack] using keepsLegible t

theorem attempted_admissible {targets : Set Target} {t u : Target} (ht : t ∈ targets)
    (hu : u ∈ targets) : Admissible targets (world t) (attempted t u) where
  empty := rfl
  legible := by simpa [world] using page_legible t
  named := by simp [attempted, Call.target, attempt, ht, hu]
  keeps := by
    intro a ha
    simp only [attempted, List.mem_cons, Call.apply.injEq, List.not_mem_nil, or_false] at ha
    rcases ha with rfl | rfl
    · exact keepsLegible t
    · exact keepsLegible u

/-- What was captured behind one attempt was captured for its target. -/
theorem eq_of_captured {t u : Target} {bytes : ByteArray} {saved : List Entry}
    (h : Captured (world t) [.apply (attempt t)] u bytes saved) : t = u := by
  obtain ⟨earlier, a, later, _, hcalls, htarget, -⟩ := h
  have ha : Call.apply a ∈ [Call.apply (attempt t)] := hcalls ▸ by simp
  cases List.mem_singleton.1 ha
  exact htarget

variable {t u : Target} (hne : t ≠ u) (hfile : t.snapshotFile = u.snapshotFile)
include hne hfile

/-- The rollback pushes what was captured for the other target. -/
theorem not_restoresOwn : ¬ RestoresOwn (world t) (rolledBack t u) := by
  intro h
  have hown := h [.apply (attempt t)] ⟨u, .keep, []⟩ [] rfl
  have hget : ((attempt t).perform (world t)).snapshot? u =
      some (Snapshot.take t ⟨0, 0⟩ [page t]).text.toUTF8 := by
    rw [← snapshot?_attempt t, Memory.snapshot?, ← hfile, Memory.snapshot?]
  have hread : Snapshot.ofBytes (Snapshot.take t ⟨0, 0⟩ [page t]).text.toUTF8 =
      .ok (Snapshot.take t ⟨0, 0⟩ [page t]) := by
    have hdepth : ∀ e ∈ [page t], e.doc.depth ≤ 125 := by
      simp [page, Json.depth, Json.depthMembers]
    rw [Snapshot.ofBytes_take t (by decide) (by simpa using page_legible t), if_pos hdepth]
  obtain ⟨pushed, -, hfirst, hrun⟩ := Journal.rollback_journal u .keep
    { world := Recovery.circumstances ⟨u, .keep, []⟩ ((attempt t).perform (world t)) }
  have hpushed : page t ∈
      Recovery.pushes ⟨u, .keep, []⟩ (Call.performAll [.apply (attempt t)] (world t)) := by
    have hpushes :
        Recovery.pushes ⟨u, .keep, []⟩ (Call.performAll [.apply (attempt t)] (world t)) =
        pushed := congrArg (fun run => run.2.pushed) hrun
    rw [hpushes]
    exact hfirst _ _ hget hread _ rfl
  obtain ⟨bytes, saved, hcaptured, -⟩ := hown _ hpushed
  exact hne (eq_of_captured hcaptured)

/-- The second attempt is stopped by what was captured for the other target. -/
theorem not_conflictsOwn : ¬ ConflictsOwn (world t) (attempted t u) := by
  intro h
  have hsome : ((attempt u).circumstances ((attempt t).perform (world t))).snapshot? u ≠ none := by
    have hget := snapshot?_attempt t
    rw [Memory.snapshot?, hfile] at hget
    rw [Memory.snapshot?]
    exact fun hnone => by cases hnone.symm.trans hget
  have hreports : (attempt u).Reports (Call.performAll [.apply (attempt t)] (world t))
      (.error (.conflict u u.snapshotFile)) :=
    congrArg Prod.fst (Job.run_blocked (attempt u).job rfl hsome)
  obtain ⟨bytes, saved, hcaptured, -⟩ :=
    h [.apply (attempt t)] (attempt u) [] rfl _ _ hreports
  exact hne (eq_of_captured hcaptured)

end Clash

/-- **Snapshots are a target's own exactly when no two targets share a file.** For a set of
targets, along every run for some of them from an empty store: rollbacks push only what was
captured for their target, if and only if the names of the snapshots are distinct; and attempts are
stopped only by snapshots that were captured for their target, under the same condition. -/
theorem own_snapshots_iff (targets : Set Target) :
    ((∀ world calls, Admissible targets world calls → RestoresOwn world calls) ↔
      Set.InjOn Target.snapshotFile targets) ∧
    ((∀ world calls, Admissible targets world calls → ConflictsOwn world calls) ↔
      Set.InjOn Target.snapshotFile targets) := by
  refine ⟨⟨fun h t ht u hu hfile => ?_, fun hinj _ _ h => h.restoresOwn hinj⟩,
    ⟨fun h t ht u hu hfile => ?_, fun hinj _ _ h => h.conflictsOwn hinj⟩⟩
  · by_contra hne
    exact Clash.not_restoresOwn hne hfile (h _ _ (Clash.rolledBack_admissible ht hu))
  · by_contra hne
    exact Clash.not_conflictsOwn hne hfile (h _ _ (Clash.attempted_admissible ht hu))

/-- A low line in a component makes a clash: what was captured for the field `c` of `a_b` is pushed
by a rollback of the field `b_c` of `a`. -/
theorem Clash.low_line_not_restoresOwn :
    ¬ RestoresOwn (Clash.world ⟨"a_b", "c"⟩) (Clash.rolledBack ⟨"a_b", "c"⟩ ⟨"a", "b_c"⟩) :=
  Clash.not_restoresOwn (by decide) (by decide)

end Blokwork
