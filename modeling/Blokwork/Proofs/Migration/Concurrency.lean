import Blokwork.Proofs.Migration.Restoring

/-!
# Concurrent batches for one target

Several batches for one target share the memory and take their steps in any order (`Crew.run`). The
check that there is no snapshot decides nothing, since others may run between it and the save; the
save does. Until the first save the entries are those of the start (`Crew.Unpushed`); whoever saves
first has won (`Crew.Won`), all others end without a push, and the document of the winner's
snapshot has the entries that it changes as they were at the start (`Crew.one_batch_pushes`).
-/

namespace Blokwork

/-- How a batch ends that never had anything to push: there was a snapshot, nothing changed, or the
edit of an entry failed. -/
inductive Job.EndsIdle (job : Job) : Except MigrationError MigrationReport → Prop where
  | conflict : EndsIdle job (.error (.conflict job.target job.target.snapshotFile))
  | unchanged (fetched : Nat) : EndsIdle job (.ok
      { target := job.target, state := .applied, fetched := fetched, changed := [],
        snapshotFile := none, pushed := 0 })
  | transform (id : String) (cause : Failure) : EndsIdle job (.error (.transform id cause))

namespace Batch

/-- The batch has pushed nothing and is not about to. -/
def Idle (job : Job) : Batch → Prop
  | .pushing .. => False
  | .finished result => job.EndsIdle result
  | _ => True

theorem Idle.remaining {job : Job} {b : Batch} (h : b.Idle job) : b.remaining = [] := by
  cases b with
  | pushing => cases h
  | _ => rfl

/-- An idle batch that is late has ended. -/
theorem Idle.finished {job : Job} {b : Batch} (h : b.Idle job) (hlate : 3 ≤ b.age) :
    ∃ result, b = .finished result := by
  cases b with
  | finished result => exact ⟨result, rfl⟩
  | pushing => cases h
  | checking | fetching | saving => simp [age] at hlate

/-- A batch leaves the idle ones by a save only, and does nothing else meanwhile. -/
theorem Idle.step {job : Job} {b b' : Batch} {world world' : Memory} (h : b.Idle job)
    (hdry : job.dryRun = false) (hstep : Step job b world b' world') :
    (b'.Idle job ∧ world' = world ∧ ∀ fetched changes, b' = .saving fetched changes →
      changesOf job.transform (world.fetched job.target) = .ok changes) ∨
    ∃ fetched changes, b = .saving fetched changes ∧ world.snapshot? job.target = none ∧
      b' = .pushing job.target.snapshotFile fetched changes changes ∧
      world' = world.withSnapshot job.target (changes.map EntryChange.before) := by
  cases hstep with
  | blocked => exact .inl ⟨.conflict, rfl, nofun⟩
  | clear => exact .inl ⟨trivial, rfl, nofun⟩
  | unedited hedit =>
    obtain ⟨id, cause, rfl⟩ := changesOf_error hedit
    exact .inl ⟨.transform id cause, rfl, nofun⟩
  | previewed _ hdry' => cases hdry.symm.trans hdry'
  | settled => exact .inl ⟨.unchanged _, rfl, nofun⟩
  | edited hedit =>
    refine .inl ⟨trivial, rfl, ?_⟩
    rintro _ _ ⟨⟩
    exact hedit
  | refused => exact .inl ⟨.conflict, rfl, nofun⟩
  | saved fetched changes hnew => exact .inr ⟨fetched, changes, rfl, hnew, rfl, rfl⟩
  | pushed | failed | applied => cases h
  | idle => exact .inl ⟨h, rfl, nofun⟩

/-- Behind its save a batch pushes the first of the changes that are left, or it pushes nothing
more. -/
theorem Step.late {job : Job} {b b' : Batch} {world world' : Memory}
    (h : Step job b world b' world') (hlate : b.age = 3) :
    b'.age = 3 ∧ world'.files = world.files ∧
      (((b'.remaining = b.remaining ∨ b'.remaining = []) ∧ world'.entries = world.entries ∧
        world'.putLog = world.putLog) ∨
      ∃ c id, b.remaining = c :: b'.remaining ∧ c.after.id? = some id ∧
        replacing? id c.after world.entries = some world'.entries ∧
        world'.putLog = world.putLog ++ [id]) := by
  cases h with
  | blocked | clear | unedited | previewed | settled | edited | refused | saved => cases hlate
  | pushed file fetched changes hid hput => exact ⟨rfl, rfl, .inr ⟨_, _, rfl, hid, hput, rfl⟩⟩
  | failed => exact ⟨rfl, rfl, .inl ⟨.inr rfl, rfl, rfl⟩⟩
  | applied | idle => exact ⟨rfl, rfl, .inl ⟨.inl rfl, rfl, rfl⟩⟩

end Batch

/-! ## Turns -/

/-- A turn is one step of one of the batches. -/
structure Turn (ι : Type) where
  who : ι
  now : Timestamp
  /-- The identifiers of the entries that cannot be replaced meanwhile. -/
  refusing : List String

/-- Batches and the memory that they share. -/
structure Crew (ι : Type) where
  world : Memory
  batches : ι → Batch

/-- The batch that saved its snapshot, with its changes and the time of the save. -/
structure Victory (ι : Type) where
  who : ι
  changes : List EntryChange
  now : Timestamp

namespace Crew

variable {ι : Type} {jobs : ι → Job} {target : Target} {world : Memory} {crew : Crew ι}

/-- All batches at their start. -/
def start (jobs : ι → Job) (world : Memory) : Crew ι where
  world := world
  batches i := Batch.start (jobs i)

/-! ## The invariants -/

/-- Nobody has pushed anything, and whoever is about to save a snapshot has the changes of the
entries of the start. -/
structure Unpushed (jobs : ι → Job) (target : Target) (world : Memory) (crew : Crew ι) :
    Prop where
  entries : crew.world.entries = world.entries
  putLog : crew.world.putLog = world.putLog
  snapshot : crew.world.snapshot? target = world.snapshot? target
  idle : ∀ i, (crew.batches i).Idle (jobs i)
  edits : ∀ i fetched changes, crew.batches i = .saving fetched changes →
    changesOf (jobs i).transform (world.fetched target) = .ok changes

/-- One batch has won: the snapshot holds what it changes, as it was, and only changes of it are
pushed, in their order. -/
structure Won (jobs : ι → Job) (target : Target) (world : Memory) (v : Victory ι) (crew : Crew ι) :
    Prop where
  new : world.snapshot? target = none
  edit : changesOf (jobs v.who).transform (world.fetched target) = .ok v.changes
  snapshot : ∃ bytes, crew.world.snapshot? target = some bytes ∧
    Snapshot.Holds target v.now (v.changes.map EntryChange.before) bytes
  idle : ∀ i, i ≠ v.who → (crew.batches i).Idle (jobs i)
  late : (crew.batches v.who).age = 3
  pushes : ∃ done rest, v.changes = done ++ rest ∧
    ((crew.batches v.who).remaining = rest ∨ (crew.batches v.who).remaining = []) ∧
    crew.world.putLog = world.putLog ++ done.filterMap (fun c => c.after.id?) ∧
    Overwritten (done.map EntryChange.after) world.entries crew.world.entries

theorem unpushed_start (hdry : ∀ i, (jobs i).dryRun = false) (target : Target)
    (world : Memory) : Unpushed jobs target world (start jobs world) := by
  have hchecking : ∀ i, (start jobs world).batches i = .checking := by
    intro i
    simp [start, Batch.start, hdry i]
  refine ⟨rfl, rfl, rfl, fun i => ?_, fun i _ _ heq => ?_⟩
  · rw [hchecking i]
    trivial
  · rw [hchecking i] at heq
    cases heq

theorem Won.captured {v : Victory ι} (h : Won jobs target world v crew) {c : EntryChange}
    (hc : c ∈ v.changes) :
    c.before ∈ world.entries ∧ (jobs v.who).transform c.before = .ok c.after := by
  obtain ⟨hfetched, hedit, -⟩ := mem_of_changesOf h.edit hc
  exact ⟨List.mem_of_mem_filter hfetched, hedit⟩

/-- What was written are the first of the changes, each in the place of the entry it saved. -/
theorem Won.written {v : Victory ι} (h : Won jobs target world v crew)
    (hkeeps : (jobs v.who).transform.KeepsIds) (hids : DistinctIds world.entries) :
    ∃ done, done <+: v.changes ∧
      crew.world.putLog = world.putLog ++ done.filterMap (fun c => c.after.id?) ∧
      List.Forall₂ (fun a b => b = a ∨ ∃ c ∈ done, c.before = a ∧ c.after = b) world.entries
        crew.world.entries := by
  obtain ⟨done, rest, hchanges, -, hputLog, hentries⟩ := h.pushes
  have hcaptured : ∀ c ∈ done, c.before ∈ world.entries ∧
      (jobs v.who).transform c.before = .ok c.after := fun c hc =>
    h.captured (hchanges ▸ List.mem_append_left rest hc)
  have hchanged := hentries.changed hids (fun c hc => (hcaptured c hc).1)
    (fun c hc => .inl (hkeeps _ _ (hcaptured c hc).2))
  exact ⟨done, ⟨rest, hchanges.symm⟩, hputLog, hchanged.imp fun _ _ hab => hab.2⟩

/-- Nobody has pushed anything, or one batch has won, and that is the one named. -/
def Stage (jobs : ι → Job) (target : Target) (world : Memory) (victory : Option (Victory ι))
    (crew : Crew ι) : Prop :=
  Unpushed jobs target world crew ∨ ∃ v, victory = some v ∧ Won jobs target world v crew

namespace Stage

variable {victory : Option (Victory ι)}

/-- The batches that have not won have nothing to push, whatever the stage. -/
theorem idle (h : Stage jobs target world victory crew) {i : ι}
    (hi : ∀ v, victory = some v → v.who ≠ i) : (crew.batches i).Idle (jobs i) := by
  rcases h with h | ⟨v, hv, h⟩
  · exact h.idle i
  · exact h.idle i (hi v hv).symm

/-- What the winner has left to push are the last of its changes. -/
theorem remaining {v : Victory ι} (h : Stage jobs target world (some v) crew) :
    (crew.batches v.who).remaining <:+ v.changes := by
  rcases h with h | ⟨_, ⟨⟩, h⟩
  · rw [(h.idle v.who).remaining]
    exact List.nil_suffix
  · obtain ⟨done, rest, hchanges, heq | hnil, -, -⟩ := h.pushes
    · rw [heq]
      exact ⟨done, hchanges.symm⟩
    · rw [hnil]
      exact List.nil_suffix

/-- Without a winner nothing is written. -/
theorem unpushed (h : Stage jobs target world none crew) : Unpushed jobs target world crew := by
  rcases h with h | ⟨_, ⟨⟩, -⟩
  exact h

end Stage

/-! ## Steps -/

variable [DecidableEq ι]

/-- The memory in a turn. -/
def worldAt (crew : Crew ι) (turn : Turn ι) : Memory :=
  { crew.world with now := turn.now, refusing := turn.refusing }

/-- One turn. -/
def step (jobs : ι → Job) (crew : Crew ι) (turn : Turn ι) : Crew ι :=
  let (b, world) := Batch.step (jobs turn.who) Memory.environment (crew.batches turn.who)
    (crew.worldAt turn)
  { world := world, batches := Function.update crew.batches turn.who b }

/-- Some turns, one after the other. -/
def run (jobs : ι → Job) (crew : Crew ι) (turns : List (Turn ι)) : Crew ι :=
  turns.foldl (step jobs) crew

theorem run_cons (turn : Turn ι) (rest : List (Turn ι)) :
    run jobs crew (turn :: rest) = run jobs (step jobs crew turn) rest := rfl

theorem run_append (turns more : List (Turn ι)) :
    run jobs crew (turns ++ more) = run jobs (run jobs crew turns) more :=
  List.foldl_append

/-- A turn is a step of its batch, and leaves the others as they are. -/
theorem step_sound (jobs : ι → Job) (crew : Crew ι) (turn : Turn ι) :
    Batch.Step (jobs turn.who) (crew.batches turn.who) (crew.worldAt turn)
        ((step jobs crew turn).batches turn.who) (step jobs crew turn).world ∧
      ∀ i, i ≠ turn.who → (step jobs crew turn).batches i = crew.batches i := by
  refine ⟨?_, fun i hi => Function.update_of_ne hi _ _⟩
  have hself : (step jobs crew turn).batches turn.who = _ := Function.update_self _ _ _
  rw [hself]
  exact Batch.step_sound _ _ _

/-- A turn of an idle batch leaves entries and pushes alone. -/
theorem step_idle {turn : Turn ι} (h : (crew.batches turn.who).Idle (jobs turn.who))
    (hdry : (jobs turn.who).dryRun = false) :
    (step jobs crew turn).world.entries = crew.world.entries ∧
      (step jobs crew turn).world.putLog = crew.world.putLog := by
  obtain ⟨hstep, -⟩ := step_sound jobs crew turn
  rcases h.step hdry hstep with ⟨-, hworld, -⟩ | ⟨_, _, -, -, -, hworld⟩
  · rw [hworld]
    exact ⟨rfl, rfl⟩
  · rw [hworld]
    exact ⟨rfl, rfl⟩

/-- The first save decides. -/
theorem Unpushed.step (htarget : ∀ i, (jobs i).target = target)
    (hdry : ∀ i, (jobs i).dryRun = false) (h : Unpushed jobs target world crew) (turn : Turn ι) :
    Unpushed jobs target world (step jobs crew turn) ∨
      ∃ v, v.who = turn.who ∧ v.now = turn.now ∧
        Won jobs target world v (step jobs crew turn) := by
  obtain ⟨hstep, hothers⟩ := step_sound jobs crew turn
  have hfetched : (crew.worldAt turn).fetched target = world.fetched target := by
    rw [Memory.fetched, Memory.fetched, ← h.entries]
    rfl
  rcases (h.idle turn.who).step (hdry turn.who) hstep with
    ⟨hidle, hworld, hedit⟩ | ⟨fetched, changes, hsaving, hnone, hpushing, hworld⟩
  · refine .inl ⟨?_, ?_, ?_, fun i => ?_, fun i fetched changes heq => ?_⟩
    · rw [hworld]
      exact h.entries
    · rw [hworld]
      exact h.putLog
    · rw [hworld]
      exact h.snapshot
    · by_cases hi : i = turn.who
      · rw [hi]
        exact hidle
      · rw [hothers i hi]
        exact h.idle i
    · by_cases hi : i = turn.who
      · subst hi
        rw [← hfetched, ← htarget turn.who]
        exact hedit fetched changes heq
      · rw [hothers i hi] at heq
        exact h.edits i fetched changes heq
  · have hsnapshot := Memory.snapshot?_withSnapshot (crew.worldAt turn) (jobs turn.who).target
      (changes.map EntryChange.before)
    rw [← hworld, htarget] at hsnapshot
    rw [htarget] at hnone
    refine .inr ⟨⟨turn.who, changes, turn.now⟩, rfl, rfl, h.snapshot ▸ hnone,
      h.edits turn.who fetched changes hsaving, ⟨_, hsnapshot, Snapshot.holds_take _ _ _⟩,
      fun i hi => ?_, ?_, [], changes, rfl, .inl ?_, ?_, ?_⟩
    · rw [hothers i hi]
      exact h.idle i
    · dsimp only
      rw [hpushing]
      rfl
    · dsimp only
      rw [hpushing]
      rfl
    · rw [hworld, List.filterMap_nil, List.append_nil]
      exact h.putLog
    · rw [hworld, ← h.entries]
      exact Overwritten.refl _ _

/-- After the first save, nobody but the winner writes anything. -/
theorem Won.step (htarget : ∀ i, (jobs i).target = target)
    (hdry : ∀ i, (jobs i).dryRun = false) {v : Victory ι} (h : Won jobs target world v crew)
    (turn : Turn ι) : Won jobs target world v (step jobs crew turn) := by
  obtain ⟨hstep, hothers⟩ := step_sound jobs crew turn
  obtain ⟨bytes, hbytes, hholds⟩ := h.snapshot
  have hsnapshot : (crew.worldAt turn).snapshot? target = some bytes := hbytes
  by_cases hwho : turn.who = v.who
  · rw [hwho] at hstep hothers
    obtain ⟨hlate, hfiles, heffect⟩ := hstep.late h.late
    obtain ⟨done, rest, hchanges, hremaining, hputLog, hentries⟩ := h.pushes
    refine ⟨h.new, h.edit, ?_, fun i hi => ?_, hlate, ?_⟩
    · rw [Memory.snapshot?, hfiles]
      exact ⟨bytes, hsnapshot, hholds⟩
    · rw [hothers i hi]
      exact h.idle i hi
    · rcases heffect with ⟨hremaining', hentries', hputLog'⟩ | ⟨c, id, hc, hid, hput, hputLog'⟩
      · refine ⟨done, rest, hchanges, ?_, hputLog'.trans hputLog, hentries' ▸ hentries⟩
        rcases hremaining' with heq | hnil
        · rwa [heq]
        · exact .inr hnil
      · have hrest : rest = c :: ((Crew.step jobs crew turn).batches v.who).remaining := by
          rcases hremaining with heq | hnil
          · exact heq.symm.trans hc
          · cases hnil.symm.trans hc
        refine ⟨done ++ [c], _, ?_, .inl rfl, ?_, ?_⟩
        · rw [hchanges, hrest, List.append_cons]
        · have hlog : (crew.worldAt turn).putLog = crew.world.putLog := rfl
          rw [hputLog', hlog, hputLog, List.filterMap_append, List.append_assoc]
          simp [hid]
        · refine (hentries.mono fun e he => ?_).push ?_ hid hput
          · rw [List.map_append]
            exact List.mem_append_left _ he
          · simp
  · rcases (h.idle turn.who hwho).step (hdry turn.who) hstep with
      ⟨hidle, hworld, -⟩ | ⟨-, -, -, hnone, -, -⟩
    · refine ⟨h.new, h.edit, hworld ▸ h.snapshot, fun i hi => ?_, ?_, ?_⟩
      · by_cases hi' : i = turn.who
        · exact hi' ▸ hidle
        · rw [hothers i hi']
          exact h.idle i hi
      · rw [hothers v.who (Ne.symm hwho)]
        exact h.late
      · rw [hothers v.who (Ne.symm hwho), hworld]
        exact h.pushes
    · rw [htarget, hsnapshot] at hnone
      cases hnone

/-! ## Runs -/

theorem Won.run (htarget : ∀ i, (jobs i).target = target)
    (hdry : ∀ i, (jobs i).dryRun = false) {v : Victory ι} (h : Won jobs target world v crew)
    (turns : List (Turn ι)) : Won jobs target world v (run jobs crew turns) := by
  induction turns generalizing crew with
  | nil => exact h
  | cons turn rest ih => exact ih (h.step htarget hdry turn)

/-- Along a run nobody has pushed anything until one batch has won in one of its turns, and that
one stays the winner. -/
theorem Unpushed.run (htarget : ∀ i, (jobs i).target = target)
    (hdry : ∀ i, (jobs i).dryRun = false) (h : Unpushed jobs target world crew)
    (turns : List (Turn ι)) :
    ∃ victory : Option (Victory ι),
      (∀ earlier, earlier <+: turns → Stage jobs target world victory (run jobs crew earlier)) ∧
      ∀ v, victory = some v → Won jobs target world v (run jobs crew turns) ∧
        ∃ turn ∈ turns, turn.who = v.who ∧ turn.now = v.now := by
  induction turns generalizing crew with
  | nil =>
    refine ⟨none, fun earlier hearlier => ?_, nofun⟩
    rw [List.prefix_nil.1 hearlier]
    exact .inl h
  | cons turn rest ih =>
    rcases h.step htarget hdry turn with hstep | ⟨v, hwho, hnow, hwon⟩
    · obtain ⟨victory, hstages, hfinal⟩ := ih hstep
      refine ⟨victory, fun earlier hearlier => ?_, fun v hv => ?_⟩
      · rcases List.prefix_cons_iff.1 hearlier with rfl | ⟨tail, rfl, htail⟩
        · exact .inl h
        · exact hstages tail htail
      · obtain ⟨hwon, own, hown, hvictory⟩ := hfinal v hv
        exact ⟨hwon, own, List.mem_cons_of_mem turn hown, hvictory⟩
    · refine ⟨some v, fun earlier hearlier => ?_, ?_⟩
      · rcases List.prefix_cons_iff.1 hearlier with rfl | ⟨tail, rfl, -⟩
        · exact .inl h
        · exact .inr ⟨v, rfl, hwon.run htarget hdry tail⟩
      · rintro _ ⟨⟩
        exact ⟨hwon.run htarget hdry rest, turn, List.mem_cons_self, hwho.symm, hnow.symm⟩

/-- A snapshot that is there stays as it is. -/
theorem run_snapshot? {bytes : ByteArray}
    (h : crew.world.snapshot? target = some bytes) (turns : List (Turn ι)) :
    (run jobs crew turns).world.snapshot? target = some bytes := by
  induction turns generalizing crew with
  | nil => exact h
  | cons turn rest ih => exact ih ((step_sound jobs crew turn).1.file_kept h)

/-- A batch gets older with every turn of its own. -/
theorem run_age (jobs : ι → Job) (crew : Crew ι) (i : ι) (turns : List (Turn ι)) :
    min 3 ((crew.batches i).age + turns.countP (·.who = i)) ≤
      ((run jobs crew turns).batches i).age := by
  induction turns generalizing crew with
  | nil => exact Nat.min_le_right _ _
  | cons turn rest ih =>
    have hrest := ih (step jobs crew turn)
    obtain ⟨hstep, hothers⟩ := step_sound jobs crew turn
    rw [run_cons, List.countP_cons]
    by_cases hi : turn.who = i
    · subst hi
      have hage := hstep.age_le
      simp only [decide_true, ↓reduceIte]
      omega
    · rw [hothers i (Ne.symm hi)] at hrest
      simpa [hi] using hrest

/-- How a run of concurrent batches goes, with a victory or without. -/
structure Outcome (jobs : ι → Job) (target : Target) (world : Memory) (turns : List (Turn ι))
    (victory : Option (Victory ι)) : Prop where
  /-- Nobody but the winner ever has a change to push. -/
  idle : ∀ earlier, earlier <+: turns → ∀ i, (∀ v, victory = some v → v.who ≠ i) →
    ((run jobs (start jobs world) earlier).batches i).remaining = []
  /-- The turns of all others leave the entries alone. -/
  alone : ∀ earlier turn, earlier ++ [turn] <+: turns →
    (∀ v, victory = some v → v.who ≠ turn.who) →
    (run jobs (start jobs world) (earlier ++ [turn])).world.entries =
        (run jobs (start jobs world) earlier).world.entries ∧
      (run jobs (start jobs world) (earlier ++ [turn])).world.putLog =
        (run jobs (start jobs world) earlier).world.putLog
  /-- All others end with a conflict, with nothing to change, or with an edit that failed. -/
  ends : ∀ i, (∀ v, victory = some v → v.who ≠ i) → ∀ result,
    (run jobs (start jobs world) turns).batches i = .finished result → (jobs i).EndsIdle result
  /-- They have ended after three turns of their own. -/
  finishes : ∀ i, (∀ v, victory = some v → v.who ≠ i) → 3 ≤ turns.countP (·.who = i) →
    ∃ result, (run jobs (start jobs world) turns).batches i = .finished result
  /-- The snapshot is not written again. -/
  kept : ∀ earlier later, earlier <+: later → later <+: turns → ∀ bytes,
    (run jobs (start jobs world) earlier).world.snapshot? target = some bytes →
    (run jobs (start jobs world) later).world.snapshot? target = some bytes
  /-- Without a victory nothing is written. -/
  unwritten : victory = none →
    (run jobs (start jobs world) turns).world.entries = world.entries ∧
      (run jobs (start jobs world) turns).world.putLog = world.putLog ∧
      (run jobs (start jobs world) turns).world.snapshot? target = world.snapshot? target
  /-- There is a victory only where there was no snapshot. Then there is one, and its document has
  the entries that the winner changes, as they were and in their order. -/
  saved : ∀ v, victory = some v → world.snapshot? target = none ∧
    ∃ bytes, (run jobs (start jobs world) turns).world.snapshot? target = some bytes ∧
      Snapshot.Holds target v.now (v.changes.map EntryChange.before) bytes
  /-- The winner saved it in one of its turns. -/
  savedWhen : ∀ v, victory = some v → ∃ turn ∈ turns, turn.who = v.who ∧ turn.now = v.now
  /-- The winner changes entries of the start. -/
  captured : ∀ v, victory = some v → ∀ c ∈ v.changes,
    c.before ∈ world.entries ∧ (jobs v.who).transform c.before = .ok c.after
  /-- What the winner has left to push are changes that it saved. -/
  pushes : ∀ v, victory = some v → ∀ earlier, earlier <+: turns →
    ((run jobs (start jobs world) earlier).batches v.who).remaining <:+ v.changes
  /-- What was written are the first of the changes, each in the place of the entry it saved. -/
  written : ∀ v, victory = some v → ∃ done, done <+: v.changes ∧
    (run jobs (start jobs world) turns).world.putLog =
      world.putLog ++ done.filterMap (fun c => c.after.id?) ∧
    List.Forall₂ (fun a b => b = a ∨ ∃ c ∈ done, c.before = a ∧ c.after = b) world.entries
      (run jobs (start jobs world) turns).world.entries

/-- **At most one of the batches pushes.** Batches for one target that edit entries without
touching their identifiers take their steps in any order, in a memory where identifiers are
pairwise different. At most one of them, the first to save, has anything to push; the others end
idle; the snapshot is written once, and it holds the entries that the winner goes on to change as
they were before any push. -/
theorem one_batch_pushes {ι : Type} [DecidableEq ι] (jobs : ι → Job) (target : Target)
    (world : Memory) (turns : List (Turn ι)) (htarget : ∀ i, (jobs i).target = target)
    (hdry : ∀ i, (jobs i).dryRun = false) (hkeeps : ∀ i, (jobs i).transform.KeepsIds)
    (hids : DistinctIds world.entries) :
    ∃ victory, Outcome jobs target world turns victory := by
  obtain ⟨victory, hstages, hfinal⟩ :=
    (unpushed_start hdry target world).run htarget hdry turns
  have hlast := hstages turns (List.prefix_refl turns)
  refine ⟨victory, ?_, ?_, ?_, ?_, ?_, ?_, ?_, ?_, ?_, ?_, ?_⟩
  · intro earlier hearlier i hi
    exact ((hstages earlier hearlier).idle hi).remaining
  · intro earlier turn hearlier hi
    have hidle := (hstages earlier ((List.prefix_append _ _).trans hearlier)).idle hi
    rw [run_append]
    exact step_idle hidle (hdry turn.who)
  · intro i hi result hresult
    have hidle := hlast.idle hi
    rwa [hresult] at hidle
  · intro i hi hturns
    have hage := run_age jobs (start jobs world) i turns
    exact (hlast.idle hi).finished (by omega)
  · rintro earlier _ ⟨more, rfl⟩ - bytes hbytes
    rw [run_append]
    exact run_snapshot? hbytes more
  · rintro rfl
    exact ⟨hlast.unpushed.entries, hlast.unpushed.putLog, hlast.unpushed.snapshot⟩
  · intro v hv
    exact ⟨(hfinal v hv).1.new, (hfinal v hv).1.snapshot⟩
  · intro v hv
    exact (hfinal v hv).2
  · intro v hv c hc
    exact (hfinal v hv).1.captured hc
  · rintro v rfl earlier hearlier
    exact (hstages earlier hearlier).remaining
  · intro v hv
    exact (hfinal v hv).1.written (hkeeps v.who) hids

end Crew

/-! ## Two batches on two teasers -/

namespace Teasers

/-- Two batches that set the titles. -/
def rivals (which : Bool) : Job where
  target := ⟨"teaser", "title"⟩
  transform := Script.transform
    ⟨⟨"teaser", "title"⟩, [.set none (.str (if which then "left" else "right"))]⟩
  dryRun := false

/-- Both check and fetch before one of them saves. -/
def turns : List (Turn Bool) :=
  [true, false, true, false, false, true, false, false, false].map fun who => ⟨who, ⟨0, 0⟩, []⟩

/-- One of the two changes the titles, and the document of its snapshot has both teasers as they
were. -/
theorem one_batch_pushes_teasers :
    (Crew.run rivals (Crew.start rivals world) turns).world.entries ≠ world.entries ∧
      (∃ bytes, (Crew.run rivals (Crew.start rivals world) turns).world.snapshot?
          ⟨"teaser", "title"⟩ = some bytes ∧
        Snapshot.Holds ⟨"teaser", "title"⟩ ⟨0, 0⟩ world.entries bytes) ∧
      ∃ victory, Crew.Outcome rivals ⟨"teaser", "title"⟩ world turns victory := by
  have hsaved : (Crew.run rivals (Crew.start rivals world) turns).world.snapshot?
      ⟨"teaser", "title"⟩ =
        some (Snapshot.take ⟨"teaser", "title"⟩ ⟨0, 0⟩ world.entries).text.toUTF8 := by
    with_unfolding_all rfl
  refine ⟨by decide +kernel, ⟨_, hsaved, Snapshot.holds_take _ _ _⟩,
    Crew.one_batch_pushes rivals _ world turns ?_ ?_ ?_ ?_⟩
  · exact fun _ => rfl
  · exact fun _ => rfl
  · exact fun _ => Script.keepsIds _
  · decide +kernel

end Teasers

end Blokwork
