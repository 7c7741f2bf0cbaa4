import Blokwork.Migration.Memory
import Mathlib.Data.List.Forall2

/-!
# Entries in memory

What a push does to the entries in memory. A push goes to the entry with the identifier of the
pushed one, so it never changes which identifiers there are and where they stand
(`ids_of_replacing?`). When no two entries have one identifier, a push is a map over the entries
(`eq_map_of_replacing?`), and `Overwritten` says what several pushes leave behind.

`Restorable` is the invariant of a snapshot: an entry that is not as it was before is among the
saved ones. Pushing the saved entries back, one after the other, ends with the entries of before
(`Restorable.standIn`, `Restorable.eq_of_nil`).
-/

namespace Blokwork

/-- The identifiers of the entries are pairwise different; an entry without one does not
count. -/
def DistinctIds (entries : List Entry) : Prop :=
  (entries.map Entry.id?).Pairwise fun i j => i = j → i = none

instance (entries : List Entry) : Decidable (DistinctIds entries) :=
  inferInstanceAs (Decidable (List.Pairwise _ _))

/-- Of distinct entries the identifier tells which one it is. -/
theorem DistinctIds.eq_of_id? {entries : List Entry} (h : DistinctIds entries) {a b : Entry}
    (ha : a ∈ entries) (hb : b ∈ entries) (hid : a.id? = b.id?) (hsome : a.id? ≠ none) :
    a = b := by
  rw [DistinctIds, List.pairwise_map] at h
  induction h with
  | nil => cases ha
  | @cons e rest he _ ih =>
    rcases List.mem_cons.1 ha with hae | ha <;> rcases List.mem_cons.1 hb with hbe | hb
    · exact hae.trans hbe.symm
    · exact absurd (hae ▸ he b hb (hae ▸ hid)) hsome
    · exact absurd (hid.trans (hbe ▸ he a ha (hbe ▸ hid.symm))) hsome
    · exact ih ha hb

namespace Entry

/-- The new entry, where it has the identifier of the old one. -/
def standIn (new old : Entry) : Entry := if old.id? = new.id? then new else old

@[simp] theorem id?_standIn (new old : Entry) : (new.standIn old).id? = old.id? := by
  unfold standIn
  split
  · next h => exact h.symm
  · rfl

theorem standIn_of_id? {new old : Entry} (h : old.id? = new.id?) : new.standIn old = new :=
  if_pos h

theorem standIn_of_ne {new old : Entry} (h : old.id? ≠ new.id?) : new.standIn old = old :=
  if_neg h

end Entry

/-! ## Replacing one entry -/

variable {id : String} {new : Entry} {entries entries' : List Entry}

/-- A push that finds no entry is one for an identifier that no entry has. -/
theorem replacing?_eq_none :
    replacing? id new entries = none ↔ ∀ e ∈ entries, e.id? ≠ some id := by
  induction entries with
  | nil => simp [replacing?]
  | cons e rest ih =>
    by_cases he : e.id? = some id
    · simp [replacing?, he]
    · simp [replacing?, he, ih]

/-- A push brings in no entry but the pushed one. -/
theorem mem_of_replacing? (h : replacing? id new entries = some entries') {e : Entry}
    (he : e ∈ entries') : e = new ∨ e ∈ entries := by
  induction entries generalizing entries' with
  | nil => simp [replacing?] at h
  | cons d rest ih =>
    by_cases hd : d.id? = some id
    · simp only [replacing?, hd, ↓reduceIte, Option.some.injEq] at h
      subst h
      rcases List.mem_cons.1 he with rfl | he
      · exact .inl rfl
      · exact .inr (List.mem_cons_of_mem d he)
    · simp only [replacing?, hd, ↓reduceIte, Option.map_eq_some_iff] at h
      obtain ⟨tail, htail, rfl⟩ := h
      rcases List.mem_cons.1 he with rfl | he
      · exact .inr List.mem_cons_self
      · exact (ih htail he).imp_right (List.mem_cons_of_mem d)

/-- A push leaves every identifier at its place. -/
theorem ids_of_replacing? (hnew : new.id? = some id)
    (h : replacing? id new entries = some entries') :
    entries'.map Entry.id? = entries.map Entry.id? := by
  induction entries generalizing entries' with
  | nil => simp [replacing?] at h
  | cons d rest ih =>
    by_cases hd : d.id? = some id
    · simp only [replacing?, hd, ↓reduceIte, Option.some.injEq] at h
      simp [← h, hnew, hd]
    · simp only [replacing?, hd, ↓reduceIte, Option.map_eq_some_iff] at h
      obtain ⟨tail, htail, rfl⟩ := h
      simp [ih htail]

/-- A push stands in for the one entry of its identifier. -/
theorem eq_map_of_replacing? (hids : DistinctIds entries) (hnew : new.id? = some id)
    (h : replacing? id new entries = some entries') : entries' = entries.map new.standIn := by
  rw [DistinctIds, List.pairwise_map] at hids
  induction entries generalizing entries' with
  | nil => simp [replacing?] at h
  | cons d rest ih =>
    rw [List.pairwise_cons] at hids
    by_cases hd : d.id? = some id
    · simp only [replacing?, hd, ↓reduceIte, Option.some.injEq] at h
      have hrest : rest.map new.standIn = rest := by
        refine (List.map_congr_left fun e he => ?_).trans (List.map_id' rest)
        refine Entry.standIn_of_ne fun heq => ?_
        have hde : d.id? = e.id? := by rw [hd, heq, hnew]
        simp [hids.1 e he hde] at hd
      rw [← h, List.map_cons, Entry.standIn_of_id? (hd.trans hnew.symm), hrest]
    · simp only [replacing?, hd, ↓reduceIte, Option.map_eq_some_iff] at h
      obtain ⟨tail, htail, rfl⟩ := h
      rw [List.map_cons, Entry.standIn_of_ne (by rwa [hnew]), ih hids.2 htail]

/-! ## Sequences and reads -/

/-- What a sequence does to a state. -/
theorem bind_apply {σ α β : Type} (x : StateM σ α) (f : α → StateM σ β) (s : σ) :
    (x >>= f) s = f (x s).1 (x s).2 := rfl

/-- Reading a file. -/
theorem Memory.store_read (file : String) (world : Memory) :
    Memory.store.read file world =
      (match Dict.get? world.files file with
      | some contents => .ok contents
      | none => .error (noSuchFile file), world) := by
  change (match Dict.get? world.files file with
    | some contents => pure (Except.ok contents)
    | none => pure (Except.error (noSuchFile file)) :
      StateM Memory (Except Failure ByteArray)) world = _
  cases Dict.get? world.files file <;> rfl

/-! ## Pushes -/

namespace Memory

/-- A push that is not refused replaces the entry of its identifier. -/
theorem put_of_replacing? {entry : Entry} {world : Memory} {id : String} {entries : List Entry}
    (hid : entry.id? = some id) (hrefusing : id ∉ world.refusing)
    (h : replacing? id entry world.entries = some entries) :
    put entry world = (.ok entry, { world with entries, putLog := world.putLog ++ [id] }) := by
  have hcontains : world.refusing.contains id = false := by simpa using hrefusing
  simp only [put, hid, hcontains, h]
  rfl

/-- A push fails and changes nothing, or replaces an entry. -/
theorem put_cases (entry : Entry) (world : Memory) :
    (∃ cause, put entry world = (.error cause, world)) ∨
      ∃ id entries, entry.id? = some id ∧ id ∉ world.refusing ∧
        replacing? id entry world.entries = some entries ∧
        put entry world = (.ok entry, { world with entries, putLog := world.putLog ++ [id] }) := by
  cases hid : entry.id? with
  | none => exact .inl ⟨_, by simp only [put, hid]; rfl⟩
  | some id =>
    by_cases hrefused : id ∈ world.refusing
    · have hcontains : world.refusing.contains id = true := by simpa using hrefused
      exact .inl ⟨_, by simp only [put, hid, hcontains, ↓reduceIte]; rfl⟩
    · cases hentries : replacing? id entry world.entries with
      | none =>
        have hcontains : world.refusing.contains id = false := by simpa using hrefused
        exact .inl ⟨_, by simp only [put, hid, hcontains, hentries]; rfl⟩
      | some entries =>
        exact .inr ⟨id, entries, rfl, hrefused, hentries, put_of_replacing? hid hrefused hentries⟩

/-- A push that succeeds changes no identifier, and is logged under that of its entry. -/
theorem frame_of_put {e : Entry} {world next : Memory}
    (h : put e world = (.ok e, next)) :
    next.refusing = world.refusing ∧
      next.entries.map Entry.id? = world.entries.map Entry.id? ∧
      next.putLog = world.putLog ++ [e.displayId] := by
  rcases put_cases e world with ⟨cause, hfail⟩ | ⟨id, entries, hid, -, hentries, hok⟩
  · cases hfail.symm.trans h
  · cases hok.symm.trans h
    refine ⟨rfl, ids_of_replacing? hid hentries, ?_⟩
    rw [Entry.displayId, hid, Option.getD_some]

/-- The entry can be pushed: its identifier is not refused, and an entry in memory has it. -/
def Takes (world : Memory) (entry : Entry) : Prop :=
  ∃ id, entry.id? = some id ∧ id ∉ world.refusing ∧ some id ∈ world.entries.map Entry.id?

/-- Those are the entries whose push succeeds. -/
theorem put_eq_ok_iff (entry : Entry) (world : Memory) :
    (put entry world).1 = .ok entry ↔ world.Takes entry := by
  constructor
  · intro hok
    rcases put_cases entry world with ⟨cause, hput⟩ | ⟨id, entries, hid, hrefusing, h, -⟩
    · rw [hput] at hok
      cases hok
    · refine ⟨id, hid, hrefusing, Classical.byContradiction fun hmem => ?_⟩
      have hnone : replacing? id entry world.entries = none :=
        replacing?_eq_none.2 fun e he heid => hmem (heid ▸ List.mem_map_of_mem he)
      rw [h] at hnone
      cases hnone
  · rintro ⟨id, hid, hrefusing, hmem⟩
    cases h : replacing? id entry world.entries with
    | none =>
      obtain ⟨e, he, heid⟩ := List.mem_map.1 hmem
      exact absurd heid (replacing?_eq_none.1 h e he)
    | some entries => rw [put_of_replacing? hid hrefusing h]

/-- What can be pushed depends on the identifiers alone. -/
theorem takes_congr {world world' : Memory} (hrefusing : world'.refusing = world.refusing)
    (hids : world'.entries.map Entry.id? = world.entries.map Entry.id?) (entry : Entry) :
    world'.Takes entry ↔ world.Takes entry := by
  rw [Takes, Takes, hrefusing, hids]

end Memory

/-- Where entries were overwritten: an entry is as before, or one of the new ones with its
identifier. -/
def Overwritten (news before now : List Entry) : Prop :=
  List.Forall₂ (fun a b => b = a ∨ (b ∈ news ∧ b.id? = a.id? ∧ a.id? ≠ none)) before now

namespace Overwritten

variable {news before now : List Entry}

theorem refl (news before : List Entry) : Overwritten news before before :=
  List.forall₂_same.2 fun _ _ => .inl rfl

theorem mono {more : List Entry} (h : Overwritten news before now) (hmore : news ⊆ more) :
    Overwritten more before now :=
  h.imp fun _ _ hab => hab.imp_right fun ⟨hnew, hid⟩ => ⟨hmore hnew, hid⟩

/-- Overwriting keeps the identifiers. -/
theorem ids (h : Overwritten news before now) : now.map Entry.id? = before.map Entry.id? := by
  induction h with
  | nil => rfl
  | cons hab _ ih =>
    rcases hab with rfl | ⟨-, hid, -⟩
    · rw [List.map_cons, List.map_cons, ih]
    · rw [List.map_cons, List.map_cons, ih, hid]

/-- An overwritten entry is an old or a new one. -/
theorem mem (h : Overwritten news before now) {e : Entry} (he : e ∈ now) :
    e ∈ before ∨ e ∈ news := by
  induction h with
  | nil => cases he
  | cons hab _ ih =>
    rcases List.mem_cons.1 he with rfl | he
    · rcases hab with rfl | ⟨hnew, -⟩
      · exact .inl List.mem_cons_self
      · exact .inr hnew
    · exact (ih he).imp_left (List.mem_cons_of_mem _)

/-- One more push. -/
theorem push {now' : List Entry} (h : Overwritten news before now) (hnew : new ∈ news)
    (hid : new.id? = some id) (hput : replacing? id new now = some now') :
    Overwritten news before now' := by
  induction h generalizing now' with
  | nil => cases hput
  | @cons a b before now hab hrest ih =>
    by_cases hb : b.id? = some id
    · have ha : a.id? = some id := by
        rcases hab with rfl | ⟨-, hab, -⟩
        · exact hb
        · exact hab.symm.trans hb
      simp only [replacing?, hb, ↓reduceIte, Option.some.injEq] at hput
      subst hput
      exact .cons (.inr ⟨hnew, hid.trans ha.symm, by rw [ha]; nofun⟩) hrest
    · simp only [replacing?, hb, ↓reduceIte, Option.map_eq_some_iff] at hput
      obtain ⟨tail, htail, rfl⟩ := hput
      exact .cons hab (ih htail)

end Overwritten

/-! ## Restoring -/

/-- What was saved is enough to restore the entries of before: an entry that is not as before is
saved as it was. -/
def Restorable (saved before now : List Entry) : Prop :=
  List.Forall₂ (fun a b => b.id? = a.id? ∧ (b = a ∨ a ∈ saved)) before now

namespace Restorable

variable {saved before now : List Entry}

/-- When nothing is left to restore, all is as before. -/
theorem eq_of_nil (h : Restorable [] before now) : now = before := by
  have heq : List.Forall₂ (fun a b => a = b) before now := by
    refine h.imp fun a b hab => ?_
    rcases hab.2 with hab | hab
    · exact hab.symm
    · cases hab
  rw [List.forall₂_eq_eq_eq] at heq
  exact heq.symm

theorem ids (h : Restorable saved before now) : now.map Entry.id? = before.map Entry.id? := by
  induction h with
  | nil => rfl
  | cons hab _ ih => rw [List.map_cons, List.map_cons, ih, hab.1]

theorem distinctIds (h : Restorable saved before now) (hids : DistinctIds before) :
    DistinctIds now := by
  rw [DistinctIds, h.ids]
  exact hids

/-- Pushing a saved entry back leaves less to restore. -/
theorem standIn {e : Entry} (h : Restorable (e :: saved) before now) (hids : DistinctIds before)
    (he : e ∈ before) (hid : e.id? ≠ none) : Restorable saved before (now.map e.standIn) := by
  have hmem : List.Forall₂ (fun a b => a ∈ before ∧ b.id? = a.id? ∧ (b = a ∨ a ∈ e :: saved))
      before now := (List.forall₂_and_left _ _).2 ⟨fun _ ha => ha, h⟩
  refine List.forall₂_map_right_iff.2 (hmem.imp fun a b ⟨ha, hab, hsaved⟩ => ?_)
  refine ⟨(Entry.id?_standIn e b).trans hab, ?_⟩
  by_cases hb : b.id? = e.id?
  · rw [Entry.standIn_of_id? hb]
    exact .inl (hids.eq_of_id? he ha (hb.symm.trans hab) hid)
  · rw [Entry.standIn_of_ne hb]
    rcases hsaved with rfl | hsaved
    · exact .inl rfl
    · rcases List.mem_cons.1 hsaved with rfl | hsaved
      · exact absurd hab hb
      · exact .inr hsaved

end Restorable

/-! ## A small space -/

namespace Teasers

/-- A teaser with a title. -/
def teaser (id title : String) : Entry where
  doc := .obj [("id", .str id),
    ("content", .obj [("component", .str "teaser"), ("title", .str title)])]

/-- Two teasers. -/
def world : Memory := { entries := [teaser "1" "one", teaser "2" "two"] }

end Teasers

end Blokwork
