import Blokwork.Proofs.Migration.Exits

/-!
# Dry runs

A dry run fetches the entries, edits them in memory and reports what would change; in any
environment it does nothing else (`Job.run_dry`). So it predicts the run that is no dry run
(`dryRun_predicts`): where there is no snapshot yet, both stop with the same error as long as
nothing has been written (`MigrationError.isOfPreview`). Otherwise the dry run reports the changes
that the other one makes, up to a push that fails; and no push fails when every changed entry can
be pushed in the memory as it is.
-/

namespace Blokwork

/-- The error arises before anything is written: the entries cannot be fetched, or one of them
cannot be edited. -/
def MigrationError.isOfPreview : MigrationError → Bool
  | .transport .fetch .. | .transform .. => true
  | _ => false

namespace Job

variable (job : Job)

/-- What a dry run reports of what was fetched. -/
def previewOf : Except Failure (List Entry) → Except MigrationError MigrationReport
  | .error cause => .error (.transport .fetch job.target none cause)
  | .ok entries =>
    (changesOf job.transform entries).map fun changes =>
      job.reportOf .pending entries.length changes none 0

/-- A dry run is a fetch, and nothing else. -/
theorem run_dry {m : Type → Type} [Monad m] [LawfulMonad m] (env : MigrationEnvironment m)
    (hdry : job.dryRun = true) :
    job.run env = job.previewOf <$> env.api.entriesWith job.target.component := by
  rw [run, Batch.start, if_pos hdry, map_eq_pure_bind]
  simp only [Batch.steps, Batch.step, fetch, bind_assoc, pure_bind]
  congr 1
  funext fetched
  cases fetched with
  | error cause => simp [Batch.stepsLeft, Batch.steps, Batch.result, previewOf]
  | ok entries =>
    cases hedit : changesOf job.transform entries with
    | error e => simp [hedit, Batch.stepsLeft, Batch.steps, Batch.result, previewOf, Except.map]
    | ok changes =>
      simp [hedit, hdry, Batch.stepsLeft, Batch.steps, Batch.result, previewOf, Except.map]

/-- What is fetched for a job, or the reason for which it cannot be. -/
def fetchedWith (outage : Option Failure) (world : Memory) : Except Failure (List Entry) :=
  match outage with
  | some cause => .error cause
  | none => .ok (world.fetched job.target)

/-- A dry run in memory leaves everything as it was. -/
theorem run_dry_journal (hdry : job.dryRun = true) (outage : Option Failure) (world : Memory) :
    job.run (Journal.environmentWith outage) ⟨world, []⟩ =
      (job.previewOf (job.fetchedWith outage world), ⟨world, []⟩) := by
  rw [job.run_dry _ hdry]
  cases outage <;> rfl

/-- The report of a dry run in which every edit succeeds. -/
def preview (world : Memory) : MigrationReport :=
  job.reportOf .pending (world.fetched job.target).length
    (changedBy job.transform (world.fetched job.target)) none 0

theorem previewOf_edited {world : Memory}
    (hedit : ∀ e ∈ world.fetched job.target, ∃ u, job.transform e = .ok u) :
    job.previewOf (job.fetchedWith none world) = .ok (job.preview world) := by
  rw [fetchedWith, previewOf, changesOf_of_ok hedit]
  rfl

/-- The dry run of a job. -/
def rehearsal : Job := { job with dryRun := true }

end Job

section Prediction

variable {job : Job} {outage : Option Failure} {world : Memory}
  {result : Except MigrationError MigrationReport} {j : Journal}

/-- A run and its dry run stop with the same error before anything is written, or both get beyond
the edits. -/
theorem Job.Exit.previewed (h : job.Exit outage world result j)
    (hnew : world.snapshot? job.target = none) :
    (∃ e, e.isOfPreview = true ∧ job.previewOf (job.fetchedWith outage world) = .error e ∧
        result = .error e) ∨
      (job.previewOf (job.fetchedWith outage world) = .ok (job.preview world) ∧
        ∀ e, result = .error e → e.isOfPreview = false) := by
  cases h with
  | conflict hold => exact absurd hnew hold
  | unfetched _ houtage =>
    subst houtage
    exact .inl ⟨_, rfl, rfl, rfl⟩
  | unedited _ houtage hfetched hearlier hedit =>
    subst houtage
    refine .inl ⟨_, rfl, ?_, rfl⟩
    rw [Job.fetchedWith, Job.previewOf, hfetched, changesOf_of_error hearlier hedit]
    rfl
  | unchanged _ houtage hedit =>
    subst houtage
    exact .inr ⟨job.previewOf_edited hedit, fun _ he => by cases he⟩
  | unpushed _ houtage hedit =>
    subst houtage
    exact .inr ⟨job.previewOf_edited hedit, fun _ he => by cases he; rfl⟩
  | applied _ houtage hedit =>
    subst houtage
    exact .inr ⟨job.previewOf_edited hedit, fun _ he => by cases he⟩

/-- When every changed entry can be pushed, a run that gets beyond the edits makes the changes that
the dry run reports. -/
theorem Job.Exit.applies (h : job.Exit outage world result j)
    (hpreview : job.previewOf (job.fetchedWith outage world) = .ok (job.preview world))
    (hnew : world.snapshot? job.target = none)
    (hputs : ∀ c ∈ changedBy job.transform (world.fetched job.target), world.Takes c.after) :
    ∃ report, result = .ok report ∧ report.fetched = (job.preview world).fetched ∧
      report.changed = (job.preview world).changed ∧
      j.pushed.map Entry.displayId = (job.preview world).changed ∧
      j.world.putLog = world.putLog ++ (job.preview world).changed := by
  cases h with
  | conflict hold => exact absurd hnew hold
  | unfetched _ houtage =>
    subst houtage
    cases hpreview
  | unedited _ houtage hfetched hearlier hedit =>
    subst houtage
    rw [Job.fetchedWith, Job.previewOf, hfetched, changesOf_of_error hearlier hedit] at hpreview
    cases hpreview
  | unchanged _ _ _ hnone =>
    refine ⟨_, rfl, rfl, ?_, ?_, ?_⟩ <;> simp [Job.preview, Job.reportOf, hnone]
  | @unpushed _ _ _ changes pushed left c hchanges hsplit stopped _ hpushed hfail =>
    -- the push that fails is of an entry that could be pushed, and still can
    have hc : c ∈ changes := hsplit ▸ List.mem_append_right pushed List.mem_cons_self
    obtain ⟨hrefusing, hids, -⟩ := hpushed.frame
    have htakes : stopped.Takes c.after :=
      (Memory.takes_congr hrefusing hids c.after).2 (hputs c (hchanges ▸ hc))
    have hok := (Memory.put_eq_ok_iff c.after stopped).2 htakes
    rw [hfail] at hok
    cases hok
  | @applied _ _ _ changes hchanges _ after hpushed _ _ _ report hreport =>
    subst hreport hchanges
    refine ⟨_, rfl, rfl, rfl, by simp [Job.preview, Job.reportOf], ?_⟩
    rw [hpushed.frame.2.2, List.map_map]
    rfl

end Prediction

/-- **A dry run predicts the run.** A dry run leaves everything as it was. Where there is no
snapshot of the target, it stops with an error of the fetch or of an edit exactly when the run that
is no dry run stops with that error, and it stops with no other one. When every push of a changed
entry would succeed, the run fetches as many entries and changes the same ones as the dry run
reports, and those are the ones it pushes, in that order. The notes make no difference: in the
memory alone both runs have the same results and leave the same behind. -/
theorem dryRun_predicts (target : Target) (transform : EntryTransform) (outage : Option Failure)
    {world : Memory} (hnew : world.snapshot? target = none) :
    let job : Job := ⟨target, transform, false⟩
    let dry := job.rehearsal.run (Journal.environmentWith outage) ⟨world, []⟩
    let run := job.run (Journal.environmentWith outage) ⟨world, []⟩
    dry.2 = ⟨world, []⟩ ∧
      (∀ e, dry.1 = .error e → e.isOfPreview = true) ∧
      (∀ e, e.isOfPreview = true → (dry.1 = .error e ↔ run.1 = .error e)) ∧
      (∀ preview, dry.1 = .ok preview →
        (∀ c ∈ changedBy transform (world.fetched target),
          (Memory.put c.after world).1 = .ok c.after) →
        ∃ report, run.1 = .ok report ∧ report.fetched = preview.fetched ∧
          report.changed = preview.changed ∧
          run.2.pushed.map Entry.displayId = preview.changed ∧
          run.2.world.putLog = world.putLog ++ preview.changed) ∧
      (outage = none →
        job.rehearsal.run Memory.environment world = (dry.1, dry.2.world) ∧
          job.run Memory.environment world = (run.1, run.2.world)) := by
  intro job dry run
  have hexit : job.Exit outage world run.1 run.2 := job.exits rfl outage world
  have hdry : dry = (job.previewOf (job.fetchedWith outage world), ⟨world, []⟩) :=
    job.rehearsal.run_dry_journal rfl outage world
  have hworld : outage = none →
      job.rehearsal.run Memory.environment world = (dry.1, dry.2.world) ∧
        job.run Memory.environment world = (run.1, run.2.world) := by
    rintro rfl
    exact ⟨run_world job.rehearsal ⟨world, []⟩, run_world job ⟨world, []⟩⟩
  rw [hdry] at hworld ⊢
  refine ⟨rfl, ?_, ?_, ?_, hworld⟩
  · intro e he
    rcases hexit.previewed hnew with ⟨e', hpreview, hdry', -⟩ | ⟨hdry', -⟩
    · cases hdry'.symm.trans he
      exact hpreview
    · cases hdry'.symm.trans he
  · intro e he
    rcases hexit.previewed hnew with ⟨e', -, hdry', hrun⟩ | ⟨hdry', hrun⟩
    · rw [hdry', hrun]
    · rw [hdry']
      refine ⟨nofun, fun hfail => ?_⟩
      rw [hrun e hfail] at he
      cases he
  · intro preview hok hputs
    rcases hexit.previewed hnew with ⟨e', -, hdry', -⟩ | ⟨hdry', -⟩
    · cases hdry'.symm.trans hok
    · cases hdry'.symm.trans hok
      exact hexit.applies hdry' hnew fun c hc =>
        (Memory.put_eq_ok_iff c.after world).1 (hputs c hc)

namespace Teasers

/-- A batch that sets the titles. -/
def retitle : Job where
  target := ⟨"teaser", "title"⟩
  transform := Script.transform ⟨⟨"teaser", "title"⟩, [.set none (.str "news")]⟩
  dryRun := false

/-- The dry run tells the two entries that are pushed. -/
theorem dryRun_predicts_retitle :
    (retitle.rehearsal.run (Journal.environmentWith none) ⟨world, []⟩).1 =
        .ok (retitle.preview world) ∧
      (retitle.preview world).changed = ["1", "2"] ∧
      ∃ report, (retitle.run (Journal.environmentWith none) ⟨world, []⟩).1 = .ok report ∧
        report.fetched = 2 ∧ report.changed = ["1", "2"] ∧
        (retitle.run (Journal.environmentWith none) ⟨world, []⟩).2.world.putLog = ["1", "2"] := by
  have hdry : (retitle.rehearsal.run (Journal.environmentWith none) ⟨world, []⟩).1 =
      .ok (retitle.preview world) := by decide +kernel
  have hcount : (retitle.preview world).fetched = 2 := by decide +kernel
  have hchanged : (retitle.preview world).changed = ["1", "2"] := by decide +kernel
  have hputs : ∀ c ∈ changedBy retitle.transform (world.fetched retitle.target),
      (Memory.put c.after world).1 = .ok c.after := by decide +kernel
  have hnew : world.snapshot? retitle.target = none := rfl
  obtain ⟨-, -, -, hrun, -⟩ := dryRun_predicts retitle.target retitle.transform none hnew
  obtain ⟨report, hok, hfetched, hreport, -, hlog⟩ := hrun _ hdry hputs
  rw [hcount] at hfetched
  rw [hchanged] at hreport hlog
  exact ⟨hdry, hchanged, report, hok, hfetched, hreport, hlog⟩

end Teasers

end Blokwork
