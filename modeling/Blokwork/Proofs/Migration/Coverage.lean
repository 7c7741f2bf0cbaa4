import Blokwork.Proofs.Migration.Restoring

/-!
# What the snapshot covers

A batch pushes an entry under the identifier that it has after the edit, and saves it under the one
that it had before. `Covered` says that after a run every entry that differs is recorded in the
snapshot as it was. In all memories that is so exactly when the transform leaves the entries that
it changes in their places (`covered_iff`): with the identifier of another entry, the push
overwrites that one, which nobody saved (`Job.not_covered`; in `Renumbered.post_not_covered` a page
takes the place of a post).

Recorded is what can be read: entries nested more than 125 containers deep are written, but the
file is then refused as a whole, and what differs is not covered (`Job.covered_iff_unchanged`).
-/

namespace Blokwork

/-! ## Statements -/

/-- What is read of the target's snapshot holds the entry. -/
def Memory.Records (world : Memory) (target : Target) (e : Entry) : Prop :=
  ∃ bytes snapshot, world.snapshot? target = some bytes ∧
    Snapshot.ofBytes bytes = .ok snapshot ∧ e ∈ snapshot.entries

/-- A memory for a batch: identifiers are pairwise different, the clock shows a time of the
calendar, and there is no snapshot of the target yet. -/
structure Memory.Ready (world : Memory) (target : Target) : Prop where
  ids : DistinctIds world.entries
  clock : world.now.InCalendar
  new : world.snapshot? target = none

/-- Every entry that differs from before is recorded as it was. -/
def Covered (target : Target) (before after : Memory) : Prop :=
  List.Forall₂ (fun a b => b = a ∨ after.Records target a) before.entries after.entries

/-- The memory after a run, whatever came of it. -/
def Job.after (job : Job) (world : Memory) : Memory := (job.run Memory.environment world).2

/-- All entries that the job would save are of that kind. -/
def Job.SavesOnly (job : Job) (world : Memory) (P : Entry → Prop) : Prop :=
  ∀ changes, changesOf job.transform (world.fetched job.target) = .ok changes →
    ∀ c ∈ changes, P c.before

/-- The document can be read back on its own. -/
def Entry.Legible (e : Entry) : Prop := e.doc.Legible

/-- The document can be read back from inside a snapshot. -/
def Entry.Shallow (e : Entry) : Prop := e.doc.depth ≤ 125

/-- An entry with a blok of the component that the transform changes keeps its identifier, or it
has none afterwards. -/
def EntryTransform.StaysInPlace (transform : EntryTransform) (component : String) : Prop :=
  ∀ e u, e.Legible → e.Shallow → e.containsComponent component = true →
    transform e = .ok u → u.same e = false → u.id? = e.id? ∨ u.id? = none

theorem Covered.of_unchanged {target : Target} {before after : Memory}
    (h : after.entries = before.entries) : Covered target before after := by
  unfold Covered
  rw [h]
  exact List.forall₂_same.2 fun _ _ => .inl rfl

/-! ## What a run records -/

/-- The snapshot of a batch records what it saved, when all of it can be read. -/
theorem Batch.Written.records_iff {job : Job} {before world : Memory} {changes : List EntryChange}
    {b : Batch} (h : Batch.Written job before changes b world) (hbefore : before.Ready job.target)
    (hlegible : job.SavesOnly before Entry.Legible) {e : Entry} :
    world.Records job.target e ↔
      e ∈ changes.map EntryChange.before ∧ ∀ c ∈ changes, c.before.Shallow := by
  have hsaved : ∀ e ∈ changes.map EntryChange.before, e.doc.Legible :=
    List.forall_mem_map.2 (hlegible changes h.edit)
  have hread := Snapshot.ofBytes_take job.target hbefore.clock hsaved
  have hdepth : (∀ e ∈ changes.map EntryChange.before, e.doc.depth ≤ 125) ↔
      ∀ c ∈ changes, c.before.Shallow := List.forall_mem_map
  unfold Memory.Records
  rw [h.snapshot?]
  constructor
  · rintro ⟨_, snapshot, ⟨⟩, hbytes, he⟩
    rw [hread] at hbytes
    split at hbytes
    · next hshallow =>
      cases hbytes
      exact ⟨he, hdepth.1 hshallow⟩
    · cases hbytes
  · rintro ⟨he, hshallow⟩
    rw [if_pos (hdepth.2 hshallow)] at hread
    exact ⟨_, _, rfl, hread, he⟩

namespace Job

variable (job : Job) {world : Memory}

/-- A transform that leaves entries in their places is covered. -/
theorem covered (h : world.Ready job.target) (hlegible : job.SavesOnly world Entry.Legible)
    (hshallow : job.SavesOnly world Entry.Shallow)
    (hstays : job.transform.StaysInPlace job.target.component) :
    Covered job.target world (job.after world) := by
  obtain ⟨b, -, hb | ⟨changes, hb⟩⟩ := job.progress_run world
  · exact .of_unchanged hb.entries
  · have hdepth := hshallow changes hb.edit
    have hkeeps : ∀ c ∈ changes, c.after.id? = c.before.id? ∨ c.after.id? = none := by
      intro c hc
      obtain ⟨hfetched, hedit, hsame⟩ := mem_of_changesOf hb.edit hc
      have hcomponent := List.of_mem_filter hfetched
      exact hstays _ _ (hlegible changes hb.edit c hc) (hdepth c hc) hcomponent hedit hsame
    refine (hb.restorable h.ids hkeeps).imp fun a b hab => hab.2.imp_right fun ha => ?_
    exact (hb.records_iff h hlegible).2 ⟨ha, hdepth⟩

/-- Where the snapshot cannot be read, only unchanged entries are covered. -/
theorem covered_iff_unchanged (h : world.Ready job.target)
    (hlegible : job.SavesOnly world Entry.Legible) (hdeep : ¬ job.SavesOnly world Entry.Shallow) :
    Covered job.target world (job.after world) ↔
      (job.after world).entries = world.entries := by
  refine ⟨fun hcovered => ?_, .of_unchanged⟩
  obtain ⟨b, -, hb | ⟨changes, hb⟩⟩ := job.progress_run world
  · exact hb.entries
  · have heq : List.Forall₂ (fun a b => a = b) world.entries (job.after world).entries := by
      refine hcovered.imp fun a b hab => ?_
      rcases hab with hab | hrecords
      · exact hab.symm
      · refine absurd (fun changes' hedit => ?_) hdeep
        cases hb.edit.symm.trans hedit
        exact ((hb.records_iff h hlegible).1 hrecords).2
    rw [List.forall₂_eq_eq_eq] at heq
    exact heq.symm

end Job

/-! ## An entry that leaves its place -/

/-- For every identifier there is an entry with it that no batch is about, and that is not the
given one. -/
theorem Entry.exists_bystander {u : Entry} {id : String} (hid : u.id? = some id) :
    ∃ d : Entry, d ≠ u ∧ d.id? = some id ∧ ∀ component, d.containsComponent component = false := by
  have hne : id ≠ "" := by
    rintro rfl
    unfold Entry.id? at hid
    split at hid
    · exact Number.text_ne_empty _ (Option.some.inj hid)
    · split at hid
      · cases hid
      · next hempty =>
        cases hid
        exact hempty rfl
    · cases hid
  have hdoc (published : Bool) :
      (⟨.obj [("id", .str id), ("published", .bool published)]⟩ : Entry).id? = some id := by
    simp [Entry.id?, Json.member?, Json.members?, hne]
  by_cases hu : u = ⟨.obj [("id", .str id), ("published", .bool true)]⟩
  · refine ⟨⟨.obj [("id", .str id), ("published", .bool false)]⟩, ?_, hdoc false, fun _ => rfl⟩
    rw [hu]
    rintro ⟨⟩
  · exact ⟨⟨.obj [("id", .str id), ("published", .bool true)]⟩, Ne.symm hu, hdoc true,
      fun _ => rfl⟩

/-- Two entries, of which a batch edits the first. -/
def Memory.pair (e d : Entry) : Memory := { entries := [e, d] }

section Pair

variable {target : Target} {transform : EntryTransform} {e u d : Entry} {id : String}

theorem changesOf_pair (hcomponent : e.containsComponent target.component = true)
    (hbystander : d.containsComponent target.component = false) (hedit : transform e = .ok u)
    (hchanged : u.same e = false) :
    changesOf transform ((Memory.pair e d).fetched target) = .ok [⟨e, u⟩] := by
  have hfetched : (Memory.pair e d).fetched target = [e] := by
    simp [Memory.fetched, Memory.pair, hcomponent, hbystander]
  rw [hfetched]
  simp [changesOf, hedit, hchanged, Except.map]

/-- The edited entry is pushed in the place of the other one. -/
theorem entries_after_pair (hcomponent : e.containsComponent target.component = true)
    (hbystander : d.containsComponent target.component = false) (hedit : transform e = .ok u)
    (hchanged : u.same e = false) (hu : u.id? = some id) (he : e.id? ≠ some id)
    (hd : d.id? = some id) :
    (Job.after ⟨target, transform, false⟩ (Memory.pair e d)).entries = [e, u] := by
  have hput : replacing? id u [e, d] = some [e, u] := by
    simp [replacing?, he, hd]
  have hchanges := changesOf_pair hcomponent hbystander hedit hchanged
  rw [Job.after, Job.run_saved _ rfl rfl hchanges (List.cons_ne_nil _ _), List.length_singleton,
    Batch.steps_succ, Batch.step_pushed _ _ _ hu (List.not_mem_nil) hput]
  rfl

/-- An edit that gives the first entry the identifier of the second is not covered: the push
overwrites the second one, and the snapshot has the first. -/
theorem not_covered_pair (hlegible : e.Legible) (hshallow : e.Shallow)
    (hcomponent : e.containsComponent target.component = true)
    (hbystander : d.containsComponent target.component = false) (hedit : transform e = .ok u)
    (hchanged : u.same e = false) (hu : u.id? = some id) (he : e.id? ≠ some id)
    (hd : d.id? = some id) (hne : d ≠ u) :
    (Memory.pair e d).Ready target ∧
      Job.SavesOnly ⟨target, transform, false⟩ (Memory.pair e d) Entry.Legible ∧
      Job.SavesOnly ⟨target, transform, false⟩ (Memory.pair e d) Entry.Shallow ∧
      ¬ Covered target (Memory.pair e d)
        (Job.after ⟨target, transform, false⟩ (Memory.pair e d)) := by
  have hchanges := changesOf_pair hcomponent hbystander hedit hchanged
  have hclock : (⟨0, 0⟩ : Timestamp).InCalendar := by decide
  have hready : (Memory.pair e d).Ready target := by
    refine ⟨?_, hclock, rfl⟩
    simp [Memory.pair, DistinctIds, hd, he]
  have hsaves {P : Entry → Prop} (hP : P e) :
      Job.SavesOnly ⟨target, transform, false⟩ (Memory.pair e d) P := by
    intro changes h
    cases hchanges.symm.trans h
    simpa using hP
  refine ⟨hready, hsaves hlegible, hsaves hshallow, fun hcovered => ?_⟩
  unfold Covered at hcovered
  rw [entries_after_pair hcomponent hbystander hedit hchanged hu he hd] at hcovered
  obtain ⟨b, hb⟩ := Job.run_written ⟨target, transform, false⟩ rfl rfl hchanges
    (List.cons_ne_nil _ _)
  rcases hcovered with _ | ⟨-, _ | ⟨hud | hrecords, -⟩⟩
  · exact hne hud.symm
  · have hmem := ((hb.records_iff hready (hsaves hlegible)).1 hrecords).1
    have hde : d = e := by simpa using hmem
    exact he (hde ▸ hd)

/-- For an edit that gives an entry another identifier, there is a memory in which it is not
covered. -/
theorem Job.not_covered (hlegible : e.Legible) (hshallow : e.Shallow)
    (hcomponent : e.containsComponent target.component = true) (hedit : transform e = .ok u)
    (hchanged : u.same e = false) (hu : u.id? = some id) (he : e.id? ≠ some id) :
    ∃ world : Memory, world.Ready target ∧
      Job.SavesOnly ⟨target, transform, false⟩ world Entry.Legible ∧
      Job.SavesOnly ⟨target, transform, false⟩ world Entry.Shallow ∧
      ¬ Covered target world (Job.after ⟨target, transform, false⟩ world) := by
  obtain ⟨d, hne, hd, hbystander⟩ := Entry.exists_bystander hu
  exact ⟨Memory.pair e d, not_covered_pair hlegible hshallow hcomponent (hbystander _) hedit
    hchanged hu he hd hne⟩

end Pair

/-! ## A page that takes the place of a post -/

namespace Renumbered

/-- A page. -/
def page : Entry where
  doc := .obj [("id", .str "1"), ("content", .obj [("component", .str "page")])]

/-- A post, which a batch for pages is not about. -/
def post : Entry where
  doc := .obj [("id", .str "2"), ("content", .obj [("component", .str "post")])]

/-- Entries get the identifier of the post. -/
def renumber : EntryTransform := fun e =>
  match e.doc with
  | .obj members => .ok ⟨.obj (Dict.insert members "id" (.str "2"))⟩
  | _ => .ok e

/-- A batch on the page. -/
def job : Job := ⟨⟨"page", "title"⟩, renumber, false⟩

/-- The page is pushed in the place of the post, which is in no snapshot. -/
theorem post_not_covered :
    (Memory.pair page post).Ready job.target ∧
      job.SavesOnly (Memory.pair page post) Entry.Legible ∧
      job.SavesOnly (Memory.pair page post) Entry.Shallow ∧
      ¬ Covered job.target (Memory.pair page post) (job.after (Memory.pair page post)) := by
  have hlegible : page.Legible := by
    unfold Entry.Legible
    simp [page, Dict.Distinct, Dict.keys]
  have hshallow : page.Shallow := by
    unfold Entry.Shallow
    decide
  have hedit : renumber page =
    .ok ⟨.obj [("id", .str "2"), ("content", .obj [("component", .str "page")])]⟩ := rfl
  exact not_covered_pair hlegible hshallow rfl rfl hedit rfl rfl (by decide) rfl (by decide)

end Renumbered

/-! ## Exactly which entries are covered -/

/-- **What differs is recorded exactly when entries stay in their places and can be read.** As long
as what is saved can be read back, every entry that differs after a run is recorded as it was, in
all memories, if and only if the transform leaves the entries that it changes in their places. With
something nested too deep among the saved entries, that is so only where nothing differs at all. -/
theorem covered_iff (target : Target) (transform : EntryTransform) :
    ((∀ dryRun world, world.Ready target →
        Job.SavesOnly ⟨target, transform, dryRun⟩ world Entry.Legible →
        Job.SavesOnly ⟨target, transform, dryRun⟩ world Entry.Shallow →
        Covered target world (Job.after ⟨target, transform, dryRun⟩ world)) ↔
      transform.StaysInPlace target.component) ∧
    ∀ dryRun world, world.Ready target →
      Job.SavesOnly ⟨target, transform, dryRun⟩ world Entry.Legible →
      ¬ Job.SavesOnly ⟨target, transform, dryRun⟩ world Entry.Shallow →
      (Covered target world (Job.after ⟨target, transform, dryRun⟩ world) ↔
        (Job.after ⟨target, transform, dryRun⟩ world).entries = world.entries) := by
  refine ⟨⟨fun h e u hlegible hshallow hcomponent hedit hchanged => ?_, ?_⟩, ?_⟩
  · by_contra hid
    obtain ⟨hmoved, hsome⟩ := not_or.1 hid
    obtain ⟨id, hu⟩ := Option.ne_none_iff_exists'.1 hsome
    have he : e.id? ≠ some id := fun he => hmoved (hu.trans he.symm)
    obtain ⟨world, hready, hlegible, hshallow, huncovered⟩ :=
      Job.not_covered hlegible hshallow hcomponent hedit hchanged hu he
    exact huncovered (h false world hready hlegible hshallow)
  · intro hstays dryRun world hready hlegible hshallow
    exact Job.covered ⟨target, transform, dryRun⟩ hready hlegible hshallow hstays
  · intro dryRun world hready hlegible hdeep
    exact Job.covered_iff_unchanged ⟨target, transform, dryRun⟩ hready hlegible hdeep

/-! ## A page that is nested too deep -/

namespace Deep

/-- An empty array inside that many arrays. -/
def nest : Nat → Json
  | 0 => .arr []
  | n + 1 => .arr [nest n]

theorem depth_nest (n : Nat) : (nest n).depth = n + 1 := by
  induction n with
  | zero => rfl
  | succ n ih => simp [nest, Json.depth, Json.depthItems, ih]

theorem nest_legible (n : Nat) : (nest n).Legible := by
  induction n with
  | zero => simp [nest]
  | succ n ih => simpa [nest] using ih

/-- A page with a title, and something nested deep beside its content. -/
def page : Entry where
  doc := .obj [("id", .num (.int 1)),
    ("content", .obj [("component", .str "page"), ("title", .str "old")]), ("x", nest 124)]

/-- A space with that page. -/
def world : Memory := { entries := [page] }

/-- A script sets its title. -/
def job : Job where
  target := ⟨"page", "title"⟩
  transform := Script.transform ⟨⟨"page", "title"⟩, [.set none (.str "new")]⟩
  dryRun := false

/-- The content of the page behind the script. -/
def content : Json := .obj [("component", .str "page"), ("title", .str "new")]

/-- The script changes the page. -/
theorem changesOf_world :
    changesOf job.transform (world.fetched job.target) =
      .ok [⟨page, page.withContent content⟩] := by
  decide +kernel

theorem page_legible : page.Legible := by
  have hone : (Number.int 1).ReadsBack := by
    unfold Number.ReadsBack
    decide +kernel
  unfold Entry.Legible
  simp [page, Dict.Distinct, Dict.keys, nest_legible, hone]

theorem page_deep : ¬ page.Shallow := by
  simp [page, Entry.Shallow, Json.depth, Json.depthMembers, depth_nest]

/-- The title is changed, and the page as it was cannot be read from the snapshot. -/
theorem page_not_covered :
    world.Ready job.target ∧ ¬ Covered job.target world (job.after world) := by
  have hready : world.Ready job.target := ⟨by decide +kernel, by decide, rfl⟩
  have hlegible : job.SavesOnly world Entry.Legible := by
    intro changes h
    cases changesOf_world.symm.trans h
    simpa using page_legible
  have hdeep : ¬ job.SavesOnly world Entry.Shallow := fun hshallow =>
    page_deep (hshallow _ changesOf_world _ (List.mem_singleton_self _))
  have hchanged : (job.after world).entries ≠ world.entries := by decide +kernel
  exact ⟨hready, fun h => hchanged ((job.covered_iff_unchanged hready hlegible hdeep).1 h)⟩

end Deep

end Blokwork
