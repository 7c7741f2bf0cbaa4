import Blokwork.Proofs.Migration.Attempts
import Mathlib.Data.List.Induction
import Mathlib.Data.List.Infix

/-!
# Interrupted migrations are undone

Attempts at migrations are stacked on one another, each for a target of its own. An attempt may be
interrupted after any of its steps, and pushes may be refused. Afterwards the targets that have a
snapshot are rolled back, the last one first. `rollbacks_undo_attempts` says that every entry is
then what it was before the first attempt.

`Attempt.perform_cases` is the effect of one attempt: it leaves entries and files alone, or its
snapshot backs up the entries that it found (`BackedUp`). A rollback takes that one attempt back
and touches no file but its own, so the attempts below are backed up as before (`Agree`).
-/

namespace Blokwork

namespace Attempt

/-- The memory after some attempts, one after the other. -/
def performAll (attempts : List Attempt) (world : Memory) : Memory :=
  attempts.foldl (fun world a => a.perform world) world

theorem performAll_cons (a : Attempt) (rest : List Attempt) (world : Memory) :
    performAll (a :: rest) world = performAll rest (a.perform world) := rfl

theorem performAll_concat (attempts : List Attempt) (a : Attempt) (world : Memory) :
    performAll (attempts ++ [a]) world = a.perform (performAll attempts world) := by
  rw [performAll, List.foldl_concat, performAll]

end Attempt

namespace Recovery

/-- Rolls back the targets that have a snapshot, one after the other; the first failure ends it. -/
def restoreEach : List Recovery → Memory → Except MigrationError Memory
  | [], world => .ok world
  | r :: rest, world =>
    if (world.snapshot? r.target).isSome then
      match rollback Memory.environment r.target r.retention (r.circumstances world) with
      | (.error e, _) => .error e
      | (.ok _, world) => restoreEach rest world
    else restoreEach rest world

end Recovery

/-- A transform that a migration may use: a script, or any edit that keeps identifiers. All that a
transform writes are documents, so they can be read back. -/
def EntryTransform.Admissible (transform : EntryTransform) : Prop :=
  (transform.KeepsIds ∧ transform.KeepsLegible) ∨
    ∃ script : Script, script.Legible ∧ transform = script.transform

theorem EntryTransform.Admissible.keeps {transform : EntryTransform} (h : transform.Admissible) :
    transform.KeepsIds ∧ transform.KeepsLegible := by
  rcases h with h | ⟨script, hscript, rfl⟩
  · exact h
  · exact ⟨script.keepsIds, Script.keepsLegible hscript⟩

/-- A memory whose entries can be told apart and read back, and whose files have distinct names. -/
structure Memory.Sound (world : Memory) : Prop where
  ids : DistinctIds world.entries
  legible : ∀ e ∈ world.entries, e.doc.Legible
  files : Dict.Distinct world.files

/-! ## One attempt -/

/-- What the snapshot backs up, it still backs up where entries and snapshot are the same. -/
theorem BackedUp.congr {world world' : Memory} {target : Target} {now : Timestamp}
    {saved before : List Entry} (h : BackedUp world target now saved before)
    (hentries : world'.entries = world.entries) (hfiles : Dict.Distinct world'.files)
    (hsnapshot : world'.snapshot? target = world.snapshot? target) :
    BackedUp world' target now saved before :=
  { h with
    files := hfiles
    snapshot := hsnapshot.trans h.snapshot
    restorable := hentries ▸ h.restorable }

namespace Attempt

variable {a : Attempt} {world : Memory}

/-- An attempt leaves entries and files alone, or its snapshot backs up the entries it found. -/
theorem perform_cases (h : world.Sound) (hkeeps : a.job.transform.Admissible) :
    ((a.perform world).entries = world.entries ∧ (a.perform world).files = world.files) ∨
      ∃ saved, BackedUp (a.perform world) a.job.target a.now saved world.entries := by
  rcases a.perform_effect world with hunwritten | ⟨changes, b, hb⟩
  · exact .inl hunwritten
  · have hids : DistinctIds (a.circumstances world).entries := h.ids
    refine .inr ⟨changes.map EntryChange.before, h.ids, h.legible, perform_distinct h.files,
      hb.saved_subset, hb.snapshot?, hb.restorable hids fun c hc => .inl ?_⟩
    exact hkeeps.keeps.1 _ _ (mem_of_changesOf hb.edit hc).2.1

/-- An attempt keeps the memory sound. -/
theorem perform_sound (h : world.Sound) (hkeeps : a.job.transform.Admissible) :
    (a.perform world).Sound where
  ids := by
    rw [DistinctIds, perform_ids]
    exact h.ids
  legible := perform_legible hkeeps.keeps.2 h.legible
  files := perform_distinct h.files

/-! ## Stacked attempts -/

/-- Attempts keep the memory sound and the identifiers in place, and touch the snapshots of no
other target. -/
theorem performAll_frame {attempts : List Attempt} (h : world.Sound)
    (hkeeps : ∀ a ∈ attempts, a.job.transform.Admissible) :
    (performAll attempts world).Sound ∧
      (performAll attempts world).entries.map Entry.id? = world.entries.map Entry.id? ∧
      ∀ target : Target, (∀ a ∈ attempts, target.snapshotFile ≠ a.job.target.snapshotFile) →
        (performAll attempts world).snapshot? target = world.snapshot? target := by
  induction attempts generalizing world with
  | nil => exact ⟨h, rfl, fun _ _ => rfl⟩
  | cons a rest ih =>
    have hsound := perform_sound h (hkeeps a List.mem_cons_self)
    obtain ⟨hall, hids, hframe⟩ := ih hsound fun b hb => hkeeps b (List.mem_cons_of_mem a hb)
    refine ⟨hall, hids.trans (a.perform_ids world), fun target hne => ?_⟩
    rw [performAll_cons, hframe target fun b hb => hne b (List.mem_cons_of_mem a hb)]
    exact perform_snapshot?_of_ne (hne a List.mem_cons_self)

end Attempt

/-- Two memories agree on the entries and on the snapshots of the attempts. -/
structure Agree (attempts : List Attempt) (world world' : Memory) : Prop where
  files : Dict.Distinct world.files
  entries : world.entries = world'.entries
  snapshots : ∀ a ∈ attempts, world.snapshot? a.job.target = world'.snapshot? a.job.target

/-- What a rollback needs to succeed after an attempt that found the memory `world`: the time of
the snapshot and the depth of the documents are such that they can be read, every entry has an
identifier, and no push is refused. -/
structure Favourable (a : Attempt) (r : Recovery) (world : Memory) : Prop where
  clock : a.now.InCalendar
  depth : ∀ e ∈ world.entries, e.doc.depth ≤ 125
  ids : ∀ e ∈ world.entries, e.id? ≠ none
  accepted : r.refusing = []

namespace Recovery

variable {world : Memory} {attempts : List Attempt}

/-- A rollback of what is backed up restores it, or fails for want of favourable circumstances. -/
theorem rollback_backedUp {a : Attempt} {r : Recovery} {now : Memory} {saved : List Entry}
    (h : BackedUp (r.circumstances now) r.target a.now saved world.entries) :
    (∃ report after, rollback Memory.environment r.target r.retention (r.circumstances now) =
        (.ok report, after) ∧ after.entries = world.entries ∧
          after.files = ((r.circumstances now).retaining r.target r.retention).files) ∨
      ((∃ e after, rollback Memory.environment r.target r.retention (r.circumstances now) =
        (.error e, after)) ∧ ¬ Favourable a r world) := by
  rcases hend : rollback Memory.environment r.target r.retention (r.circumstances now) with
    ⟨e | report, after⟩
  · refine .inr ⟨⟨e, after, rfl⟩, fun hfavourable => ?_⟩
    have hpush : ∀ e ∈ saved, ∃ id, e.id? = some id ∧ id ∉ (r.circumstances now).refusing := by
      intro e he
      obtain ⟨id, hid⟩ := Option.ne_none_iff_exists'.1 (hfavourable.ids e (h.subset he))
      exact ⟨id, hid, by simp [circumstances, hfavourable.accepted]⟩
    have hsucceeds := h.rollback_succeeds hfavourable.clock
      (fun e he => hfavourable.depth e (h.subset he)) hpush r.retention
    rw [hend] at hsucceeds
    cases hsucceeds
  · have hrestores := h.rollback_restores (by rw [hend])
    rw [hend] at hrestores
    exact .inl ⟨report, after, rfl, hrestores⟩

/-- The rollback of the last attempt takes it back, or fails for want of favourable
circumstances. -/
theorem restoreEach_last {a : Attempt} {r : Recovery} (recoveries : List Recovery) {now : Memory}
    (h : world.Sound)
    (hnew : world.snapshot? a.job.target = none) (hkeeps : a.job.transform.Admissible)
    (hnames : ∀ b ∈ attempts, b.job.target.snapshotFile ≠ a.job.target.snapshotFile)
    (htarget : r.target = a.job.target) (hagree : Agree (attempts ++ [a]) now (a.perform world)) :
    (∃ next, restoreEach (r :: recoveries) now = restoreEach recoveries next ∧
      Agree attempts next world) ∨
    ((∃ e, restoreEach (r :: recoveries) now = .error e) ∧ ¬ Favourable a r world) := by
  have hlast := hagree.snapshots a (by simp)
  have hothers : ∀ b ∈ attempts, now.snapshot? b.job.target = world.snapshot? b.job.target := by
    intro b hb
    rw [hagree.snapshots b (List.mem_append_left [a] hb),
      Attempt.perform_snapshot?_of_ne (hnames b hb)]
  rcases Attempt.perform_cases h hkeeps with ⟨hentries, hfiles⟩ | ⟨saved, hbacked⟩
  · -- the attempt left nothing to roll back
    have hnone : now.snapshot? r.target = none := by
      rw [htarget, hlast, Memory.snapshot?, hfiles]
      exact hnew
    refine .inl ⟨now, ?_, hagree.files, hagree.entries.trans hentries, hothers⟩
    rw [restoreEach, hnone]
    rfl
  · have hnow : BackedUp (r.circumstances now) r.target a.now saved world.entries :=
      htarget ▸ hbacked.congr hagree.entries hagree.files hlast
    have hsome : (now.snapshot? r.target).isSome = true := by
      rw [htarget, hlast, hbacked.snapshot]
      rfl
    rw [restoreEach, if_pos hsome]
    rcases rollback_backedUp hnow with
      ⟨report, after, hend, hentries, hfiles⟩ | ⟨⟨e, after, hend⟩, hunfavourable⟩
    · rw [hend]
      refine .inl ⟨after, rfl, ?_, hentries, fun b hb => ?_⟩
      · rw [hfiles]
        exact Memory.distinct_retaining hnow.files
      · rw [← hothers b hb, Memory.snapshot?, hfiles]
        exact Memory.snapshot?_retaining _ (htarget ▸ hnames b hb)
    · rw [hend]
      exact .inr ⟨⟨e, rfl⟩, hunfavourable⟩

/-- The rollbacks of some attempts, the last one first, end with the entries of before. -/
theorem restoreEach_all {recoveries : List Recovery} (h : world.Sound)
    (hnew : ∀ a ∈ attempts, world.snapshot? a.job.target = none)
    (hnames : (attempts.map fun a => a.job.target.snapshotFile).Nodup)
    (hkeeps : ∀ a ∈ attempts, a.job.transform.Admissible)
    (hreverse : recoveries.map Recovery.target = (attempts.map fun a => a.job.target).reverse)
    {now : Memory} (hagree : Agree attempts now (Attempt.performAll attempts world)) :
    (∀ final, restoreEach recoveries now = .ok final → final.entries = world.entries) ∧
      ((∀ a ∈ attempts, a.now.InCalendar) → (∀ e ∈ world.entries, e.id? ≠ none) →
        (∀ earlier ∈ attempts.inits, ∀ e ∈ (Attempt.performAll earlier world).entries,
          e.doc.depth ≤ 125) →
        (∀ r ∈ recoveries, r.refusing = []) →
          ∃ final, restoreEach recoveries now = .ok final) := by
  induction attempts using List.reverseRecOn generalizing recoveries now with
  | nil =>
    have hnil : recoveries = [] := by simpa using hreverse
    subst hnil
    refine ⟨fun final hfinal => ?_, fun _ _ _ _ => ⟨now, rfl⟩⟩
    cases hfinal
    exact hagree.entries
  | append_singleton earlier a ih =>
    obtain ⟨r, rest, rfl, htarget, hrest⟩ : ∃ r rest, recoveries = r :: rest ∧
        r.target = a.job.target ∧
        rest.map Recovery.target = (earlier.map fun a => a.job.target).reverse := by
      rw [List.map_append, List.reverse_append] at hreverse
      obtain ⟨r, rest, rfl, hr, hrest⟩ := List.map_eq_cons_iff.1 hreverse
      exact ⟨r, rest, rfl, hr, hrest⟩
    have hearlier : ∀ b ∈ earlier, b ∈ earlier ++ [a] := fun b hb => List.mem_append_left [a] hb
    have ha : a ∈ earlier ++ [a] := List.mem_append_right earlier (List.mem_singleton_self a)
    rw [List.map_append, List.nodup_append] at hnames
    have hne : ∀ b ∈ earlier, b.job.target.snapshotFile ≠ a.job.target.snapshotFile :=
      fun b hb => hnames.2.2 _ (List.mem_map_of_mem hb) _ (List.mem_singleton_self _)
    obtain ⟨hsound, hids, hframe⟩ :=
      Attempt.performAll_frame h fun b hb => hkeeps b (hearlier b hb)
    have hlast : (Attempt.performAll earlier world).snapshot? a.job.target = none :=
      (hframe _ fun b hb => (hne b hb).symm).trans (hnew a ha)
    rw [Attempt.performAll_concat] at hagree
    rcases restoreEach_last rest hsound hlast (hkeeps a ha) hne htarget hagree with
      ⟨next, hnext, hagree⟩ | ⟨⟨e, herror⟩, hunfavourable⟩
    · obtain ⟨hfinal, hexists⟩ := ih (fun b hb => hnew b (hearlier b hb)) hnames.1
        (fun b hb => hkeeps b (hearlier b hb)) hrest hagree
      rw [hnext]
      refine ⟨hfinal, fun hclock hsome hdepth haccepted => ?_⟩
      refine hexists (fun b hb => hclock b (hearlier b hb)) hsome (fun before hbefore => ?_)
        fun s hs => haccepted s (List.mem_cons_of_mem r hs)
      refine hdepth before ?_
      rw [List.mem_inits] at hbefore ⊢
      exact hbefore.trans (List.prefix_append earlier [a])
    · rw [herror]
      refine ⟨nofun, fun hclock hsome hdepth haccepted => absurd ?_ hunfavourable⟩
      refine ⟨hclock a ha, hdepth earlier ?_, fun e he hnone => ?_, haccepted r List.mem_cons_self⟩
      · exact (List.mem_inits _ _).2 (List.prefix_append earlier [a])
      · have hmem : e.id? ∈ world.entries.map Entry.id? := hids ▸ List.mem_map_of_mem he
        obtain ⟨x, hx, hxid⟩ := List.mem_map.1 hmem
        exact hsome x hx (hxid.trans hnone)

end Recovery

/-- **Interrupted migrations are undone.** Attempts start in a sound memory that has no snapshot of
their targets, whose snapshots have different names; each may stop after any number of steps and
meet any refusals. When the targets that have a snapshot are rolled back, the last one first, and
every rollback succeeds, the entries are those of before, at their places. The rollbacks succeed
when the clock showed times of the calendar, every entry has an identifier, no document was ever
nested more than 125 containers deep, and no push is refused any more. -/
theorem rollbacks_undo_attempts {world : Memory} {attempts : List Attempt}
    {recoveries : List Recovery} (hworld : world.Sound)
    (hnew : ∀ a ∈ attempts, world.snapshot? a.job.target = none)
    (hnames : (attempts.map fun a => a.job.target.snapshotFile).Nodup)
    (hkeeps : ∀ a ∈ attempts, a.job.transform.Admissible)
    (hreverse : recoveries.map Recovery.target = (attempts.map fun a => a.job.target).reverse) :
    (∀ final, Recovery.restoreEach recoveries (Attempt.performAll attempts world) = .ok final →
      final.entries = world.entries) ∧
    ((∀ a ∈ attempts, a.now.InCalendar) → (∀ e ∈ world.entries, e.id? ≠ none) →
      (∀ earlier ∈ attempts.inits, ∀ e ∈ (Attempt.performAll earlier world).entries,
        e.doc.depth ≤ 125) →
      (∀ r ∈ recoveries, r.refusing = []) →
      ∃ final, Recovery.restoreEach recoveries (Attempt.performAll attempts world) = .ok final ∧
        final.entries = world.entries) := by
  have hagree : Agree attempts (Attempt.performAll attempts world)
      (Attempt.performAll attempts world) :=
    ⟨(Attempt.performAll_frame hworld hkeeps).1.files, rfl, fun _ _ => rfl⟩
  obtain ⟨hfinal, hexists⟩ :=
    Recovery.restoreEach_all hworld hnew hnames hkeeps hreverse hagree
  refine ⟨hfinal, fun hclock hids hdepth haccepted => ?_⟩
  obtain ⟨final, hok⟩ := hexists hclock hids hdepth haccepted
  exact ⟨final, hok, hfinal final hok⟩

/-! ## Two attempts on two teasers -/

namespace Teasers

/-- The titles are set, until the process is interrupted behind the first push; then they are
moved, and the push of the second one is refused. -/
def attempts : List Attempt := [
  { job := {
      target := ⟨"teaser", "title"⟩
      transform := Script.transform ⟨⟨"teaser", "title"⟩, [.set none (.str "new")]⟩
      dryRun := false }
    cut := some 4
    refusing := []
    now := ⟨0, 0⟩ },
  { job := {
      target := ⟨"teaser", "headline"⟩
      transform := Script.transform ⟨⟨"teaser", "headline"⟩, [.rename (some "title") "headline"]⟩
      dryRun := false }
    cut := none
    refusing := ["2"]
    now := ⟨0, 0⟩ }]

/-- Both are rolled back. -/
def recoveries : List Recovery :=
  [⟨⟨"teaser", "headline"⟩, .delete, []⟩, ⟨⟨"teaser", "title"⟩, .keep, []⟩]

/-- Both teasers are as before, though the first one was changed twice. -/
theorem rollbacks_undo_attempts_teasers :
    (Attempt.performAll attempts world).entries ≠ world.entries ∧
      ∃ final, Recovery.restoreEach recoveries (Attempt.performAll attempts world) = .ok final ∧
        final.entries = world.entries := by
  refine ⟨by decide +kernel, (rollbacks_undo_attempts ?_ ?_ ?_ ?_ ?_).2 ?_ ?_ ?_ ?_⟩
  · refine ⟨by decide +kernel, ?_, List.nodup_nil⟩
    simp [world, teaser, Dict.Distinct, Dict.keys]
  · decide +kernel
  · decide +kernel
  · have hscript : Script.Legible ⟨⟨"teaser", "title"⟩, [.set none (.str "new")]⟩ := by
      simp [Script.Legible, ScriptOp.Legible, ScriptOp.value?]
    have hrename :
        Script.Legible ⟨⟨"teaser", "headline"⟩, [.rename (some "title") "headline"]⟩ := by
      simp [Script.Legible, ScriptOp.Legible, ScriptOp.value?]
    intro a ha
    simp only [attempts, List.mem_cons, List.not_mem_nil, or_false] at ha
    rcases ha with rfl | rfl
    · exact .inr ⟨_, hscript, rfl⟩
    · exact .inr ⟨_, hrename, rfl⟩
  · decide +kernel
  · decide +kernel
  · decide +kernel
  · decide +kernel
  · decide +kernel

end Teasers

end Blokwork
