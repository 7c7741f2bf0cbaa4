import Blokwork.Proofs.Migration.Exits

/-!
# Retrying a rollback

A rollback that fails has pushed some of the entries of the snapshot and not the others, and a
later one pushes them again. A push overwrites the first entry with its identifier
(`Entry.placedIn`), so of two pushes for one identifier the later one counts, and pushes for
different ones do not get into each other's way. Hence all entries of a list leave the same behind
when some of them were pushed before, in whatever order and however often
(`placedAllIn_of_subset`).

`Alike` compares two memories by what a rollback of a target reads in them and leaves behind. A
rollback that keeps the snapshot, failed or not, leads to a memory alike (`Alike.of_rollback`), and
in memories alike a rollback has the same success (`Alike.rollback_succeeds`). So a rollback can be
retried, and repeating it changes nothing (`rollback_retried`).
-/

namespace Blokwork

/-! ## Overwriting -/

/-- The entries with this one in the place of the first that has its identifier. -/
def Entry.placedIn (e : Entry) : List Entry → List Entry
  | [] => []
  | d :: rest => if d.id? = e.id? then e :: rest else d :: e.placedIn rest

namespace Entry

theorem placedIn_cons_of_id? {d e : Entry} (h : d.id? = e.id?) (rest : List Entry) :
    e.placedIn (d :: rest) = e :: rest := if_pos h

theorem placedIn_cons_of_ne {d e : Entry} (h : d.id? ≠ e.id?) (rest : List Entry) :
    e.placedIn (d :: rest) = d :: e.placedIn rest := if_neg h

/-- A push that finds an entry puts the pushed one in its place. -/
theorem placedIn_of_replacing? {e : Entry} {id : String} {entries entries' : List Entry}
    (hid : e.id? = some id) (h : replacing? id e entries = some entries') :
    entries' = e.placedIn entries := by
  induction entries generalizing entries' with
  | nil => cases h
  | cons d rest ih =>
    by_cases hd : d.id? = some id
    · simp only [replacing?, hd, ↓reduceIte, Option.some.injEq] at h
      rw [← h, placedIn_cons_of_id? (hd.trans hid.symm)]
    · simp only [replacing?, hd, ↓reduceIte, Option.map_eq_some_iff] at h
      obtain ⟨tail, htail, rfl⟩ := h
      rw [placedIn_cons_of_ne (hid ▸ hd), ih htail]

/-- Of two entries with one identifier the later one counts. -/
theorem placedIn_placedIn {d e : Entry} (h : d.id? = e.id?) (entries : List Entry) :
    e.placedIn (d.placedIn entries) = e.placedIn entries := by
  induction entries with
  | nil => rfl
  | cons x rest ih =>
    by_cases hx : x.id? = d.id?
    · rw [placedIn_cons_of_id? hx, placedIn_cons_of_id? h, placedIn_cons_of_id? (hx.trans h)]
    · rw [placedIn_cons_of_ne hx, placedIn_cons_of_ne (h ▸ hx), placedIn_cons_of_ne (h ▸ hx), ih]

/-- Entries with different identifiers are placed in any order. -/
theorem placedIn_comm {d e : Entry} (h : d.id? ≠ e.id?) (entries : List Entry) :
    e.placedIn (d.placedIn entries) = d.placedIn (e.placedIn entries) := by
  induction entries with
  | nil => rfl
  | cons x rest ih =>
    by_cases hd : x.id? = d.id?
    · rw [placedIn_cons_of_id? hd, placedIn_cons_of_ne h, placedIn_cons_of_ne (hd ▸ h),
        placedIn_cons_of_id? hd]
    · rw [placedIn_cons_of_ne hd]
      by_cases he : x.id? = e.id?
      · rw [placedIn_cons_of_id? he, placedIn_cons_of_id? he, placedIn_cons_of_ne h.symm]
      · rw [placedIn_cons_of_ne he, placedIn_cons_of_ne he, placedIn_cons_of_ne hd, ih]

end Entry

/-- The entries after some were placed in them, one after the other. -/
def placedAllIn (saved entries : List Entry) : List Entry :=
  saved.foldl (fun entries e => e.placedIn entries) entries

theorem placedAllIn_cons (e : Entry) (rest entries : List Entry) :
    placedAllIn (e :: rest) entries = placedAllIn rest (e.placedIn entries) := rfl

/-- It makes no difference that one of the entries was placed before. -/
theorem placedAllIn_placedIn {e : Entry} {saved : List Entry} (he : e ∈ saved)
    (entries : List Entry) :
    placedAllIn saved (e.placedIn entries) = placedAllIn saved entries := by
  induction saved generalizing entries with
  | nil => cases he
  | cons d rest ih =>
    rw [placedAllIn_cons, placedAllIn_cons]
    by_cases hid : e.id? = d.id?
    · rw [Entry.placedIn_placedIn hid]
    · have hrest : e ∈ rest := (List.mem_cons.1 he).resolve_left fun hed => hid (by rw [hed])
      rw [Entry.placedIn_comm hid, ih hrest]

/-- It makes no difference that some of the entries were placed before. -/
theorem placedAllIn_of_subset {done saved : List Entry} (h : done ⊆ saved) (entries : List Entry) :
    placedAllIn saved (placedAllIn done entries) = placedAllIn saved entries := by
  induction done generalizing entries with
  | nil => rfl
  | cons e rest ih =>
    obtain ⟨he, hrest⟩ := List.cons_subset.1 h
    rw [placedAllIn_cons, ih hrest, placedAllIn_placedIn he]

/-! ## Pushing entries back -/

section Pushes

variable (target : Target) {saved : List Entry} {world after : Memory}

/-- Pushes leave the pushed entries in their places. -/
theorem Pushed.entries (h : Pushed saved world after) :
    after.entries = placedAllIn saved world.entries := by
  induction h with
  | nil => rfl
  | @cons e rest world next after hput _ ih =>
    rcases Memory.put_cases e world with ⟨cause, hfail⟩ | ⟨id, entries, hid, -, hentries, hok⟩
    · cases hfail.symm.trans hput
    · cases hok.symm.trans hput
      rw [ih, placedAllIn_cons, Entry.placedIn_of_replacing? hid hentries]

/-- What is pushed one after the other can be pushed at once. -/
theorem Pushed.takes (h : Pushed saved world after) : ∀ e ∈ saved, world.Takes e := by
  induction h with
  | nil => exact List.forall_mem_nil _
  | @cons e rest world next after hput _ ih =>
    obtain ⟨hrefusing, hids, -⟩ := Memory.frame_of_put hput
    refine List.forall_mem_cons.2 ⟨(Memory.put_eq_ok_iff e world).1 (by rw [hput]), fun d hd => ?_⟩
    exact (Memory.takes_congr hrefusing hids d).1 (ih d hd)

/-- Entries are pushed back one after the other, until a push fails. -/
theorem restoreEntries_pushed (saved : List Entry) (world : Memory) :
    ∃ done left after, saved = done ++ left ∧ Pushed done world after ∧
      ((left = [] ∧ restoreEntries Memory.api target saved world = (.ok (), after)) ∨
        ∃ failure, restoreEntries Memory.api target saved world = (.error failure, after)) := by
  induction saved generalizing world with
  | nil => exact ⟨[], [], world, rfl, .nil world, .inl ⟨rfl, rfl⟩⟩
  | cons e rest ih =>
    rw [restoreEntries_cons]
    rcases Memory.put_cases e world with ⟨cause, hput⟩ | ⟨id, entries, -, -, -, hput⟩
    · rw [hput]
      exact ⟨[], e :: rest, world, rfl, .nil world, .inr ⟨_, rfl⟩⟩
    · obtain ⟨done, left, after, rfl, hpushed, hend⟩ :=
        ih { world with entries, putLog := world.putLog ++ [id] }
      rw [hput]
      exact ⟨e :: done, left, after, rfl, .cons hput hpushed, hend⟩

/-- A success pushed all entries. -/
theorem pushed_of_restoreEntries
    (h : restoreEntries Memory.api target saved world = (.ok (), after)) :
    Pushed saved world after := by
  obtain ⟨done, left, stopped, rfl, hpushed, ⟨rfl, hok⟩ | ⟨failure, hfail⟩⟩ :=
    restoreEntries_pushed target saved world
  · cases hok.symm.trans h
    rwa [List.append_nil]
  · cases hfail.symm.trans h

end Pushes

/-- A rollback that succeeds has pushed every entry of the snapshot before the snapshot is
removed. -/
theorem exists_of_rollback_eq_ok {target : Target} {retention : Retention} {world after : Memory}
    {report : RollbackReport} (hfiles : Dict.Distinct world.files)
    (h : rollback Memory.environment target retention world = (.ok report, after)) :
    ∃ bytes snapshot pushed, world.snapshot? target = some bytes ∧
      Snapshot.ofBytes bytes = .ok snapshot ∧
      Pushed snapshot.entries (world.noticing target target.snapshotFile snapshot) pushed ∧
      report = rolledBack target retention snapshot.entries.length ∧
      after = pushed.retaining target retention := by
  have hend := rollback_sound target retention hfiles
  rw [h] at hend
  cases hend with
  | restored hbytes hread hrun =>
    exact ⟨_, _, _, hbytes, hread, pushed_of_restoreEntries target hrun, rfl, rfl⟩

/-! ## Memories in which a rollback does the same -/

/-- A rollback of the target reads the same in both memories, can push the same, and leaves the
same entries behind. -/
structure Alike (target : Target) (world other : Memory) : Prop where
  files : other.files = world.files
  ids : other.entries.map Entry.id? = world.entries.map Entry.id?
  restored : ∀ bytes snapshot, world.snapshot? target = some bytes →
    Snapshot.ofBytes bytes = .ok snapshot →
      placedAllIn snapshot.entries other.entries = placedAllIn snapshot.entries world.entries

namespace Alike

variable {target : Target} {world other third after : Memory} {retention : Retention}

theorem refl (target : Target) (world : Memory) : Alike target world world :=
  ⟨rfl, rfl, fun _ _ _ _ => rfl⟩

theorem snapshot? (h : Alike target world other) :
    other.snapshot? target = world.snapshot? target := by
  rw [Memory.snapshot?, h.files, ← Memory.snapshot?]

theorem symm (h : Alike target world other) : Alike target other world where
  files := h.files.symm
  ids := h.ids.symm
  restored bytes snapshot hbytes hread :=
    (h.restored bytes snapshot (h.snapshot?.symm.trans hbytes) hread).symm

theorem trans (h : Alike target world other) (h' : Alike target other third) :
    Alike target world third where
  files := h'.files.trans h.files
  ids := h'.ids.trans h.ids
  restored bytes snapshot hbytes hread :=
    (h'.restored bytes snapshot (h.snapshot?.trans hbytes) hread).trans
      (h.restored bytes snapshot hbytes hread)

/-- It makes no difference which pushes are refused. -/
theorem refusing (h : Alike target world other) (refusing : List String) :
    Alike target world { other with refusing } := ⟨h.files, h.ids, h.restored⟩

/-- It makes no difference that some entries of the snapshot were pushed. -/
theorem of_pushed {bytes : ByteArray} {snapshot : Snapshot} {done : List Entry}
    (hbytes : world.snapshot? target = some bytes) (hread : Snapshot.ofBytes bytes = .ok snapshot)
    (hdone : done ⊆ snapshot.entries)
    (hpushed : Pushed done (world.noticing target target.snapshotFile snapshot) after) :
    Alike target world after where
  files := hpushed.files.trans (world.files_noticing ..)
  ids := by rw [hpushed.frame.2.1, world.entries_noticing]
  restored bytes' snapshot' hbytes' hread' := by
    cases hbytes.symm.trans hbytes'
    cases hread.symm.trans hread'
    rw [hpushed.entries, world.entries_noticing, placedAllIn_of_subset hdone]

/-- A rollback that leaves the files alone, whether it fails or not, makes no difference. -/
theorem of_rollback (hfiles : Dict.Distinct world.files)
    {result : Except MigrationError RollbackReport}
    (h : rollback Memory.environment target retention world = (result, after))
    (hkept : after.files = world.files) : Alike target world after := by
  have hend := rollback_sound target retention hfiles
  rw [h] at hend
  cases hend with
  | unread => exact .refl target world
  | stopped hbytes hread hrun =>
    obtain ⟨done, left, stopped, hsplit, hpushed, ⟨-, hok⟩ | ⟨failure, hfail⟩⟩ :=
      restoreEntries_pushed target _ _
    · cases hok.symm.trans hrun
    · cases hfail.symm.trans hrun
      exact .of_pushed hbytes hread (hsplit ▸ List.subset_append_left done left) hpushed
  | restored hbytes hread hrun =>
    cases retention with
    | keep =>
      exact .of_pushed hbytes hread (List.Subset.refl _) (pushed_of_restoreEntries target hrun)
    | delete =>
      have hdistinct := (restoreEntries_noticing hrun).1 ▸ hfiles
      have hgone := Dict.get?_erase_self hdistinct target.snapshotFile
      cases hgone.symm.trans ((congrArg (Dict.get? · target.snapshotFile) hkept).trans hbytes)

/-- In memories alike all rollbacks that succeed leave the same entries. -/
theorem entries_eq (h : Alike target world other) (hfiles : Dict.Distinct world.files)
    {retention' : Retention} {report report' : RollbackReport} {after' : Memory}
    (hok : rollback Memory.environment target retention world = (.ok report, after))
    (hok' : rollback Memory.environment target retention' other = (.ok report', after')) :
    after'.entries = after.entries := by
  obtain ⟨bytes, snapshot, pushed, hbytes, hread, hpushed, -, rfl⟩ :=
    exists_of_rollback_eq_ok hfiles hok
  obtain ⟨bytes', snapshot', pushed', hbytes', hread', hpushed', -, rfl⟩ :=
    exists_of_rollback_eq_ok (h.files ▸ hfiles) hok'
  cases hbytes'.symm.trans (h.snapshot?.trans hbytes)
  cases hread'.symm.trans hread
  rw [pushed'.entries_retaining, pushed.entries_retaining, hpushed'.entries, hpushed.entries,
    other.entries_noticing, world.entries_noticing, h.restored _ _ hbytes hread]

/-- In memories alike a rollback has the same success and leaves the same entries and files, when
the same pushes are refused. -/
theorem rollback_succeeds (h : Alike target world other)
    (hrefusing : other.refusing = world.refusing) (hfiles : Dict.Distinct world.files)
    {report : RollbackReport}
    (hok : rollback Memory.environment target retention world = (.ok report, after)) :
    ∃ after', rollback Memory.environment target retention other = (.ok report, after') ∧
      after'.entries = after.entries ∧ after'.files = after.files := by
  obtain ⟨bytes, snapshot, pushed, hbytes, hread, hpushed, rfl, rfl⟩ :=
    exists_of_rollback_eq_ok hfiles hok
  have htakes : ∀ e ∈ snapshot.entries,
      (other.noticing target target.snapshotFile snapshot).Takes e := by
    intro e he
    refine (Memory.takes_congr ?_ ?_ e).1 (hpushed.takes e he)
    · rw [world.refusing_noticing, other.refusing_noticing, hrefusing]
    · rw [world.entries_noticing, other.entries_noticing, h.ids]
  obtain ⟨pushed', hrun⟩ : ∃ pushed', restoreEntries Memory.api target snapshot.entries
      (other.noticing target target.snapshotFile snapshot) = (.ok (), pushed') :=
    ⟨_, Prod.ext (restoreEntries_of_takes target htakes) rfl⟩
  have hok' : rollback Memory.environment target retention other =
      (.ok (rolledBack target retention snapshot.entries.length),
        pushed'.retaining target retention) := by
    rw [rollback_of_some target retention (h.files ▸ hfiles) (h.snapshot?.trans hbytes), hread]
    dsimp only
    rw [hrun]
  refine ⟨_, hok', h.entries_eq hfiles hok hok', ?_⟩
  have hkept : pushed'.files = pushed.files := by
    rw [(restoreEntries_noticing hrun).1, h.files, hpushed.files, world.files_noticing]
  cases retention with
  | keep => exact hkept
  | delete => exact congrArg (Dict.erase · target.snapshotFile) hkept

end Alike

/-! ## Retrying -/

/-- A rollback that fails leaves the files alone. -/
theorem rollback_error_files {target : Target} {retention : Retention} {world after : Memory}
    {e : MigrationError} (hfiles : Dict.Distinct world.files)
    (h : rollback Memory.environment target retention world = (.error e, after)) :
    after.files = world.files := by
  have hend := rollback_sound target retention hfiles
  rw [h] at hend
  cases hend with
  | unread => rfl
  | stopped _ _ hrun => exact (restoreEntries_noticing hrun).1

/-- Rollbacks of the target that fail, one after the other; before each of them it may change which
pushes are refused. -/
inductive FailedRollbacks (target : Target) (world : Memory) : Memory → Prop where
  | none : FailedRollbacks target world world
  | more {tried after : Memory} (h : FailedRollbacks target world tried) (refusing : List String)
      {retention : Retention} {e : MigrationError}
      (hfail : rollback Memory.environment target retention { tried with refusing } =
        (.error e, after)) :
      FailedRollbacks target world after

/-- Failed rollbacks make no difference. -/
theorem FailedRollbacks.alike {target : Target} {world tried : Memory}
    (h : FailedRollbacks target world tried) (hfiles : Dict.Distinct world.files) :
    Alike target world tried := by
  induction h with
  | none => exact .refl target world
  | @more tried after _ refusing retention e hfail ih =>
    have hdistinct : Dict.Distinct { tried with refusing }.files := ih.files ▸ hfiles
    have hkept := rollback_error_files hdistinct hfail
    exact (ih.refusing refusing).trans (.of_rollback hdistinct hfail hkept)

/-- **A rollback can be retried.** A rollback that fails leaves the files alone, whatever is to
become of the snapshot. When the files change, every entry of the snapshot was pushed before,
without failure and with the files as they were, and the snapshot was to be removed. After failed
rollbacks, each with other pushes refused, a rollback that succeeds would have succeeded at once,
and leaves the entries and files that it would have left then; and every other one that would have
succeeded at once would have left the same entries. (The log of pushes, which no rollback reads,
grows with each push.) A rollback that succeeds and keeps the snapshot succeeds again, and then
changes neither entries nor files. -/
theorem rollback_retried (target : Target) {world : Memory} (hfiles : Dict.Distinct world.files) :
    (∀ retention e after,
      rollback Memory.environment target retention world = (.error e, after) →
        after.files = world.files) ∧
    (∀ retention result after,
      rollback Memory.environment target retention world = (result, after) →
        after.files ≠ world.files →
          retention = .delete ∧ ∃ bytes snapshot pushed, world.snapshot? target = some bytes ∧
            Snapshot.ofBytes bytes = .ok snapshot ∧
            Pushed snapshot.entries (world.noticing target target.snapshotFile snapshot) pushed ∧
            pushed.files = world.files ∧ after = pushed.retaining target .delete) ∧
    (∀ tried, FailedRollbacks target world tried → ∀ refusing retention report after,
      rollback Memory.environment target retention { tried with refusing } = (.ok report, after) →
        (∃ single, rollback Memory.environment target retention { world with refusing } =
            (.ok report, single) ∧ after.entries = single.entries ∧ after.files = single.files) ∧
        ∀ refusing retention report single,
          rollback Memory.environment target retention { world with refusing } =
              (.ok report, single) → after.entries = single.entries) ∧
    ∀ report after, rollback Memory.environment target .keep world = (.ok report, after) →
      ∃ again, rollback Memory.environment target .keep after = (.ok report, again) ∧
        again.entries = after.entries ∧ again.files = after.files := by
  refine ⟨fun _ _ _ h => rollback_error_files hfiles h, ?_, ?_, ?_⟩
  · intro retention result after h hchanged
    cases result with
    | error e => exact absurd (rollback_error_files hfiles h) hchanged
    | ok report =>
      obtain ⟨bytes, snapshot, pushed, hbytes, hread, hpushed, -, rfl⟩ :=
        exists_of_rollback_eq_ok hfiles h
      have hkept : pushed.files = world.files := hpushed.files.trans (world.files_noticing ..)
      cases retention with
      | keep => exact absurd hkept hchanged
      | delete => exact ⟨rfl, bytes, snapshot, pushed, hbytes, hread, hpushed, hkept, rfl⟩
  · intro tried htried refusing retention report after hok
    have halike := htried.alike hfiles
    have hdistinct : Dict.Distinct { tried with refusing }.files := halike.files ▸ hfiles
    have hback (refusing' : List String) :
        Alike target { tried with refusing } { world with refusing := refusing' } :=
      (halike.refusing refusing).symm.refusing refusing'
    constructor
    · obtain ⟨single, hsingle, hentries, hfiles⟩ :=
        (hback refusing).rollback_succeeds rfl hdistinct hok
      exact ⟨single, hsingle, hentries.symm, hfiles.symm⟩
    · intro refusing' retention' report' single hsingle
      exact ((hback refusing').entries_eq hdistinct hok hsingle).symm
  · intro report after hok
    obtain ⟨_, _, pushed, _, _, hpushed, _, hafter⟩ := exists_of_rollback_eq_ok hfiles hok
    have hkept : after.files = world.files := by
      rw [hafter]
      exact hpushed.files.trans (world.files_noticing ..)
    have hrefusing : after.refusing = world.refusing := by
      rw [hafter]
      exact hpushed.frame.1.trans (world.refusing_noticing ..)
    exact (Alike.of_rollback hfiles hok hkept).rollback_succeeds hrefusing hfiles hok

namespace Teasers

/-- The target of the titles. -/
def titles : Target := ⟨"teaser", "title"⟩

/-- The teasers with other titles, and a snapshot of them as they were. -/
def edited : Memory :=
  { world with entries := [teaser "1" "news", teaser "2" "news"] }.withSnapshot titles
    world.entries

theorem distinct_edited : Dict.Distinct edited.files := by
  simp [edited, Memory.withSnapshot, world, Dict.insert, Dict.Distinct, Dict.keys]

/-- With that snapshot a rollback pushes both teasers back. -/
theorem rollback_edited (retention : Retention) (now : Memory) (h : now.files = edited.files) :
    rollback Memory.environment titles retention now =
      match restoreEntries Memory.api titles world.entries now with
      | (.error e, after) => (.error e, after)
      | (.ok (), after) =>
        (.ok (rolledBack titles retention 2), after.retaining titles retention) := by
  have hbytes : now.snapshot? titles =
      some (Snapshot.take titles world.now world.entries).text.toUTF8 := by
    rw [Memory.snapshot?, h]
    exact Memory.snapshot?_withSnapshot _ titles world.entries
  have hlegible : ∀ e ∈ world.entries, e.doc.Legible := by
    simp [world, teaser, Dict.Distinct, Dict.keys]
  have hnow : world.now.InCalendar := by decide +kernel
  have hread := Snapshot.ofBytes_take titles hnow hlegible
  rw [if_pos (by decide +kernel)] at hread
  rw [rollback_of_some titles retention (h ▸ distinct_edited) hbytes, hread]
  rfl

/-- The edited teasers after the first of two pushes. -/
def halfway : Memory :=
  { edited with
    entries := [teaser "1" "one", teaser "2" "news"]
    refusing := ["2"]
    putLog := ["1"] }

/-- A rollback that comes halfway and then one that succeeds leave the entries of one that succeeds
at once. -/
theorem rollback_retried_edited :
    Dict.Distinct edited.files ∧ FailedRollbacks titles edited halfway ∧
      ∃ after single,
        rollback Memory.environment titles .delete { halfway with refusing := [] } =
          (.ok (rolledBack titles .delete 2), after) ∧
        rollback Memory.environment titles .delete { edited with refusing := [] } =
          (.ok (rolledBack titles .delete 2), single) ∧
        after.entries = single.entries ∧ after.files = single.files := by
  have hpushes : restoreEntries Memory.api titles world.entries { edited with refusing := ["2"] } =
      (.error (.transport .push titles (some "2")
        (.ofMessage "simulated failure pushing entry 2")), halfway) := rfl
  have hfail := rollback_edited .delete { edited with refusing := ["2"] } rfl
  rw [hpushes] at hfail
  have hfailed : FailedRollbacks titles edited halfway := .more .none ["2"] hfail
  have hok := rollback_edited .delete { halfway with refusing := [] } rfl
  obtain ⟨-, -, hretry, -⟩ := rollback_retried titles distinct_edited
  obtain ⟨⟨single, hsingle, hentries, hfiles⟩, -⟩ := hretry halfway hfailed [] .delete _ _ hok
  exact ⟨distinct_edited, hfailed, _, single, hok, hsingle, hentries, hfiles⟩

end Teasers

end Blokwork
