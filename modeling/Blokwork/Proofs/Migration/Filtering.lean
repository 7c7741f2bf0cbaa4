import Blokwork.Migration.Memory
import Blokwork.Proofs.Json.Objects
import Blokwork.Proofs.Migration.BatchSteps
import Blokwork.Proofs.Migration.ScriptVisits

/-!
# Entries without a blok of the component

The search for a blok, the visit of the bloks and the list of all objects in the content agree on
where there are bloks of a component and how many (`Entry.containsComponent_eq`,
`Entry.visitBloks_of_kept`, `Entry.bloks_eq_filter`). A script leaves an entry without a blok of
its component as it is (`Script.transform_of_not_containsComponent`), so no change comes from such
an entry (`Script.changesOf_filter`), and a batch does not need it. Only the number of entries that
were fetched tells the difference. No step looks at this number (`Batch.step_uncounted`), so the
runs are the same but for what they report as fetched (`Job.run_congr`,
`Script.filter_loses_nothing`).
-/

namespace Blokwork

/-! ## Objects in a content -/

namespace Json

variable {component : String}

mutual

/-- The objects in the value, each before those inside it. -/
def objects : Json → List (Dict Json)
  | .obj ms => ms :: objectsOfMembers ms
  | .arr xs => objectsOfItems xs
  | _ => []

/-- The objects in the items. -/
def objectsOfItems : List Json → List (Dict Json)
  | [] => []
  | x :: xs => objects x ++ objectsOfItems xs

/-- The objects in the values of the members. -/
def objectsOfMembers : List (String × Json) → List (Dict Json)
  | [] => []
  | (_, x) :: ms => objects x ++ objectsOfMembers ms

end

mutual

/-- The bloks of a component are the objects with that discriminator. -/
theorem bloks_eq_filter : ∀ x : Json, x.bloks component = x.objects.filter (isBlokOf component)
  | .null | .bool _ | .num _ | .str _ => rfl
  | .arr xs => bloksOfItems_eq_filter xs
  | .obj ms => by
    rw [bloks, objects, List.filter_cons, bloksOfMembers_eq_filter ms]
    split <;> rfl

theorem bloksOfItems_eq_filter : ∀ xs : List Json,
    bloksOfItems component xs = (objectsOfItems xs).filter (isBlokOf component)
  | [] => rfl
  | x :: xs => by
    rw [bloksOfItems, objectsOfItems, List.filter_append, bloks_eq_filter x,
      bloksOfItems_eq_filter xs]

theorem bloksOfMembers_eq_filter : ∀ ms : List (String × Json),
    bloksOfMembers component ms = (objectsOfMembers ms).filter (isBlokOf component)
  | [] => rfl
  | (_, x) :: ms => by
    rw [bloksOfMembers, objectsOfMembers, List.filter_append, bloks_eq_filter x,
      bloksOfMembers_eq_filter ms]

end

end Json

namespace Entry

variable {component : String} {e : Entry}

/-- The objects in the content, each before those inside it. -/
def objects (e : Entry) : List (Dict Json) := (e.content?.map Json.objects).getD []

theorem bloks_eq_filter (component : String) (e : Entry) :
    e.bloks component = e.objects.filter (isBlokOf component) := by
  rw [bloks, objects]
  cases e.content? with
  | none => rfl
  | some content => exact Json.bloks_eq_filter content

theorem length_bloks (component : String) (e : Entry) :
    (e.bloks component).length = e.objects.countP (isBlokOf component) := by
  rw [bloks_eq_filter, List.countP_eq_length_filter]

/-- A search in the content finds a blok where there is one. -/
theorem containsComponent_eq (component : String) (e : Entry) :
    e.containsComponent component = !(e.bloks component).isEmpty := by
  rw [containsComponent, bloks]
  cases e.content? with
  | none => rfl
  | some content => exact Json.hasBlok_eq content

end Entry

/-! ## Edits of entries without a blok -/

namespace Script

variable {script : Script} {e : Entry}

/-- A script leaves an entry without a blok of its component as it is. -/
theorem transform_of_not_containsComponent
    (h : e.containsComponent script.target.component = false) : script.transform e = .ok e := by
  rw [Entry.containsComponent_eq, Bool.not_eq_false', List.isEmpty_iff] at h
  refine transform_of_kept fun blok hblok => ?_
  rw [h] at hblok
  cases hblok

/-- Entries without a blok of the component do not change. -/
theorem changesOf_filter (script : Script) {entries : List Entry}
    (hentries : ∀ e ∈ entries, e.doc.EveryObject Dict.Distinct) :
    changesOf script.transform (entries.filter (Entry.containsComponent script.target.component)) =
      changesOf script.transform entries := by
  induction entries with
  | nil => rfl
  | cons e rest ih =>
    obtain ⟨he, hrest⟩ := List.forall_mem_cons.1 hentries
    rw [List.filter_cons]
    split
    · rw [changesOf, changesOf, ih hrest]
    · next hnone =>
      have hsame : e.same e = true := Json.same_self he
      rw [ih hrest, changesOf, transform_of_not_containsComponent (Bool.not_eq_true _ ▸ hnone)]
      simp only [hsame, if_true]
      cases changesOf script.transform rest <;> rfl

end Script

/-! ## Batches but for the number of fetched entries -/

/-- The account without the number of entries that were fetched. -/
def MigrationReport.uncounted (report : MigrationReport) : MigrationReport :=
  { report with fetched := 0 }

/-- The batch without the number of entries that were fetched. -/
def Batch.uncounted : Batch → Batch
  | .checking => .checking
  | .fetching => .fetching
  | .saving _ changes => .saving 0 changes
  | .pushing file _ changes remaining => .pushing file 0 changes remaining
  | .finished result => .finished (result.map MigrationReport.uncounted)

variable {m : Type → Type} [Monad m]

/-- All entries of a space. No object in them has a key twice. -/
abbrev EntryListing (m : Type → Type) : Type :=
  m (Except Failure (List {e : Entry // e.doc.EveryObject Dict.Distinct}))

namespace MigrationEnvironment

/-- The environment with another way to fetch entries. -/
def fetchingBy (env : MigrationEnvironment m)
    (entriesWith : String → m (Except Failure (List Entry))) : MigrationEnvironment m :=
  { env with api := { env.api with entriesWith } }

/-- The environment in which every fetch returns all entries. -/
def overAll (env : MigrationEnvironment m) (all : EntryListing m) : MigrationEnvironment m :=
  env.fetchingBy fun _ => Except.map (List.map Subtype.val) <$> all

/-- The environment in which a fetch returns the entries with a blok of the component. -/
def overBloks (env : MigrationEnvironment m) (all : EntryListing m) : MigrationEnvironment m :=
  env.fetchingBy fun component =>
    Except.map (fun entries =>
      (entries.map Subtype.val).filter (Entry.containsComponent component))
      <$> all

end MigrationEnvironment

section Runs

variable [LawfulMonad m] {job : Job} {env : MigrationEnvironment m}

namespace Batch

theorem uncounted_uncounted (b : Batch) : b.uncounted.uncounted = b.uncounted := by
  cases b with
  | finished result => cases result <;> rfl
  | checking | fetching | saving | pushing => rfl

theorem stepsLeft_uncounted (b : Batch) : b.uncounted.stepsLeft = b.stepsLeft := by
  cases b <;> rfl

theorem result_uncounted (job : Job) (b : Batch) :
    b.uncounted.result job = (b.result job).map MigrationReport.uncounted := by
  cases b <;> rfl

/-- A step does not look at the number of entries that were fetched. -/
theorem step_uncounted (job : Job) (env : MigrationEnvironment m) (b : Batch) :
    uncounted <$> step job env b = uncounted <$> step job env b.uncounted := by
  cases b with
  | checking | fetching => rfl
  | saving fetched changes =>
    simp only [uncounted, step, Job.save, map_bind]
    congr 1
    funext saved
    cases saved <;> simp [uncounted]
  | pushing file fetched changes remaining =>
    cases remaining with
    | nil => simp [uncounted, step, Job.push, Job.reportOf, Except.map, MigrationReport.uncounted]
    | cons c remaining =>
      simp only [uncounted, step, Job.push, map_bind]
      congr 1
      funext put
      cases put <;> simp [uncounted]
  | finished result =>
    cases result <;> simp [uncounted, step, Except.map, MigrationReport.uncounted]

/-- The first of several steps may forget the number, when the others do not look at it. -/
theorem steps_succ_uncounted {n : Nat}
    (hrest : ∀ b, uncounted <$> steps job env n b = uncounted <$> steps job env n b.uncounted)
    (b : Batch) : uncounted <$> steps job env (n + 1) b =
      uncounted <$> step job env b >>= fun b => uncounted <$> steps job env n b := by
  simp only [steps, map_bind, bind_map_left]
  exact bind_congr hrest

/-- Nor do several steps look at the number of entries that were fetched. -/
theorem steps_uncounted (job : Job) (env : MigrationEnvironment m) (n : Nat) (b : Batch) :
    uncounted <$> steps job env n b = uncounted <$> steps job env n b.uncounted := by
  induction n generalizing b with
  | zero => simp only [steps, map_pure, uncounted_uncounted]
  | succ n ih => rw [steps_succ_uncounted ih, steps_succ_uncounted ih, step_uncounted]

/-- With fetches that lead to the same changes, the steps are the same. -/
theorem steps_congr {f g : String → m (Except Failure (List Entry))}
    (hfetch : uncounted <$> job.fetch (env.fetchingBy f) =
      uncounted <$> job.fetch (env.fetchingBy g)) (n : Nat) (b : Batch) :
    uncounted <$> steps job (env.fetchingBy f) n b =
      uncounted <$> steps job (env.fetchingBy g) n b := by
  have hstep (b : Batch) : uncounted <$> step job (env.fetchingBy f) b =
      uncounted <$> step job (env.fetchingBy g) b := by
    cases b with
    | fetching => exact hfetch
    | checking | saving | pushing | finished => rfl
  induction n generalizing b with
  | zero => rfl
  | succ n ih =>
    rw [steps_succ_uncounted (steps_uncounted job _ n),
      steps_succ_uncounted (steps_uncounted job _ n), hstep]
    exact bind_congr ih

end Batch

/-- A run is its steps as far as they do not look at the number of entries that were fetched. -/
theorem Job.run_uncounted (job : Job) (env : MigrationEnvironment m) :
    Except.map MigrationReport.uncounted <$> job.run env =
      Batch.uncounted <$> Batch.steps job env 2 (Batch.start job) >>= fun fetched =>
        Batch.result job <$> Batch.uncounted <$>
          Batch.steps job env fetched.stepsLeft fetched := by
  rw [run, map_bind, bind_map_left]
  refine bind_congr fun fetched => ?_
  rw [Batch.stepsLeft_uncounted, ← Batch.steps_uncounted]
  simp only [← bind_pure_comp, bind_assoc, pure_bind, Batch.result_uncounted]

theorem Job.run_congr {f g : String → m (Except Failure (List Entry))}
    (hfetch : Batch.uncounted <$> job.fetch (env.fetchingBy f) =
      Batch.uncounted <$> job.fetch (env.fetchingBy g)) :
    Except.map MigrationReport.uncounted <$> job.run (env.fetchingBy f) =
      Except.map MigrationReport.uncounted <$> job.run (env.fetchingBy g) := by
  rw [run_uncounted, run_uncounted, Batch.steps_congr hfetch]
  refine bind_congr fun fetched => ?_
  rw [Batch.steps_congr hfetch]

/-! ## A script over all entries -/

/-- The batch after a fetch. -/
def Job.afterFetch (job : Job) : Except Failure (List Entry) → Batch
  | .error cause => .finished (.error (.transport .fetch job.target none cause))
  | .ok entries =>
    match changesOf job.transform entries with
    | .error e => .finished (.error e)
    | .ok changes =>
      if job.dryRun then
        .finished (.ok (job.reportOf .pending entries.length changes none 0))
      else if changes.isEmpty then
        .finished (.ok (job.reportOf .applied entries.length changes none 0))
      else .saving entries.length changes

theorem Job.fetch_eq (job : Job) (env : MigrationEnvironment m) :
    job.fetch env = job.afterFetch <$> env.api.entriesWith job.target.component := by
  rw [fetch, ← bind_pure_comp]
  refine bind_congr fun fetched => ?_
  cases fetched with
  | error cause => rfl
  | ok entries =>
    simp only [afterFetch]
    cases changesOf job.transform entries with
    | error e => rfl
    | ok changes => cases job.dryRun <;> cases changes <;> rfl

/-- Of what was fetched only the changes count, but for the number of entries. -/
theorem Job.afterFetch_congr {entries entries' : List Entry}
    (h : changesOf job.transform entries = changesOf job.transform entries') :
    (job.afterFetch (.ok entries)).uncounted = (job.afterFetch (.ok entries')).uncounted := by
  simp only [afterFetch, h]
  cases changesOf job.transform entries' with
  | error e => rfl
  | ok changes => cases job.dryRun <;> cases changes <;> rfl

namespace Script

/-- The batch that runs a script. -/
def toJob (script : Script) (dryRun : Bool) : Job := ⟨script.target, script.transform, dryRun⟩

/-- The entries without a blok of the component lead to no change. -/
theorem fetch_overAll (script : Script) (dryRun : Bool) (env : MigrationEnvironment m)
    (all : EntryListing m) :
    Batch.uncounted <$> (script.toJob dryRun).fetch (env.overAll all) =
      Batch.uncounted <$> (script.toJob dryRun).fetch (env.overBloks all) := by
  have hall : (env.overAll all).api.entriesWith (script.toJob dryRun).target.component =
    Except.map (List.map Subtype.val) <$> all := rfl
  have hbloks : (env.overBloks all).api.entriesWith (script.toJob dryRun).target.component =
    Except.map (fun entries => (entries.map Subtype.val).filter
      (Entry.containsComponent script.target.component)) <$> all := rfl
  rw [Job.fetch_eq, Job.fetch_eq, hall, hbloks]
  simp only [Functor.map_map]
  congr 1
  funext fetched
  cases fetched with
  | error cause => rfl
  | ok entries =>
    have hdistinct : ∀ e ∈ entries.map Subtype.val, e.doc.EveryObject Dict.Distinct := by
      intro e he
      obtain ⟨entry, -, rfl⟩ := List.mem_map.1 he
      exact entry.2
    exact Job.afterFetch_congr (script.changesOf_filter hdistinct).symm

/-- **The component filter loses nothing.** A visit that changes nothing takes note of the objects
in the content that have the component as their discriminator, and counts them; an entry contains
the component if and only if the count is positive. A script leaves an entry without a blok of its
component as it is. So a batch of the script over all entries of a space is, in any environment,
the same computation as one over the entries with a blok of the component: it saves the same
entries, pushes the same ones in the same order, fails in the same way and reports the same
changes. Only the number of entries that it reports as fetched is another. -/
theorem filter_loses_nothing (script : Script) :
    (∀ (component : String) (e : Entry),
      (∀ {σ : Type} (note : σ → Dict Json → σ) (growth : Nat) (s : σ),
        e.visitBloks component growth (fun s blok => (note s blok, blok)) s =
          some ((e.objects.filter (isBlokOf component)).foldl note s,
            e.objects.countP (isBlokOf component), e)) ∧
      (e.containsComponent component = true ↔ 0 < e.objects.countP (isBlokOf component))) ∧
    (∀ e : Entry, e.containsComponent script.target.component = false →
      script.transform e = .ok e) ∧
    ∀ (dryRun : Bool) (env : MigrationEnvironment m) (all : EntryListing m),
      Except.map MigrationReport.uncounted <$> (script.toJob dryRun).run (env.overAll all) =
        Except.map MigrationReport.uncounted <$>
          (script.toJob dryRun).run (env.overBloks all) := by
  refine ⟨fun component e => ⟨fun note growth s => ?_, ?_⟩,
    fun e => transform_of_not_containsComponent,
    fun dryRun env all => Job.run_congr (script.fetch_overAll dryRun env all)⟩
  · rw [Entry.visitBloks_of_kept note (fun blok _ => rfl), Entry.length_bloks,
      Entry.bloks_eq_filter]
  · rw [Entry.containsComponent_eq, ← Entry.length_bloks, List.length_pos_iff]
    cases e.bloks component <;> simp

end Script

end Runs

namespace Nested

/-- An entry without a page. -/
def plain : Entry := ⟨.obj [("id", .int 8), ("content", .obj [("component", .str "root")])]⟩

/-- All entries of a space: one with pages and one without. -/
def listing : EntryListing (StateM Memory) :=
  return .ok [⟨entry, by decide +kernel⟩, ⟨plain, by decide +kernel⟩]

/-- The space in memory. -/
def world : Memory := { entries := [entry, plain] }

/-- The entry with the two pages is pushed, whether or not the other one is fetched. -/
theorem filter_loses_nothing_pages :
    (entry.containsComponent "page" = true ∧ 0 < entry.objects.countP (isBlokOf "page")) ∧
    script.transform plain = .ok plain ∧
    Except.map MigrationReport.uncounted <$>
        (script.toJob false).run (Memory.environment.overAll listing) =
      Except.map MigrationReport.uncounted <$>
        (script.toJob false).run (Memory.environment.overBloks listing) ∧
    ((script.toJob false).run (Memory.environment.overAll listing) world).2.putLog = ["7"] := by
  obtain ⟨hcount, hkept, hrun⟩ := Script.filter_loses_nothing (m := StateM Memory) script
  have hcontains : entry.containsComponent "page" = true := by decide +kernel
  have hplain : plain.containsComponent "page" = false := by decide +kernel
  have hpushed : ((script.toJob false).run (Memory.environment.overAll listing)
      world).2.putLog = ["7"] := by decide +kernel
  exact ⟨⟨hcontains, (hcount "page" entry).2.1 hcontains⟩, hkept plain hplain,
    hrun false Memory.environment listing, hpushed⟩

end Nested

end Blokwork
