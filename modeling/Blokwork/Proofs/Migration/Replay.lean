import Blokwork.Http.Client
import Blokwork.Proofs.Migration.Coverage

/-!
# Which snapshots can be replayed

An entry comes from a response that holds it in an envelope, which is one container, and goes into
a snapshot, which is two. The reader has the same limit for both. So the entries that can be
fetched are those nested at most 126 containers deep (`Entry.fetchable_iff`), and a snapshot of
fetched entries is read back as it was taken exactly when none of them is nested that deep
(`readSnapshot_createSnapshot_iff`). `Deep.page_not_replayed` is an entry that can be fetched, and
whose snapshot is written and cannot be read.

Numbers are assumed to be what their texts denote.
-/

namespace Blokwork

open Json

/-! ## Entries that can be fetched -/

/-- Some response holds the entry in its envelope. -/
def Entry.Fetchable (e : Entry) : Prop := ∃ r : Http.Response, r.story? = some e

/-- The numbers of the document are what their texts denote. -/
def Entry.NumbersReadBack (e : Entry) : Prop := e.doc.NumbersReadBack

/-- What is read of an envelope was read with room for one container less than there may be. -/
theorem Entry.Fetchable.within {e : Entry} (h : e.Fetchable) : e.doc.Within 126 := by
  obtain ⟨r, hr⟩ := h
  obtain ⟨j, hstory, rfl⟩ := Option.map_eq_some_iff.1 hr
  obtain ⟨draft, hparse, hj⟩ := Option.bind_eq_some_iff.1 hstory
  obtain rfl : draft = some j := hj
  have hread : parseBytes (Http.envelopeRecord.parse none) r.body = .ok (some j) := by
    cases hresult : parseBytes (Http.envelopeRecord.parse none) r.body with
    | error fault => simp [hresult, Except.toOption] at hparse
    | ok found => simpa [hresult, Except.toOption] using hparse
  obtain ⟨text, htext⟩ := exists_of_parseBytes_eq_ok hread
  have hfields : ∀ f ∈ Http.envelopeRecord,
      f.Keeps (fun draft => ∀ j ∈ draft, j.Within 126) 126 := by
    intro f hf
    obtain rfl := List.mem_singleton.1 hf
    intro cs draft draft' rest henter _ j hj
    obtain ⟨⟨j', r⟩, hvalue, heq⟩ := exists_of_map_eq_ok henter
    cases heq
    cases hj
    exact (readsWithin _).value hvalue
  have hnone : ∀ j ∈ (none : Option Json), j.Within 126 := nofun
  exact TextRecord.keeps_parse hfields hnone htext j rfl

/-- The text of an envelope. -/
def envelope (j : Json) : String := (Json.obj [("story", j)]).pretty

/-- A legible value that leaves room for one container is read of its envelope. -/
theorem parse_envelope {j : Json} (hj : j.Legible) (hdepth : j.depth ≤ 126) :
    Http.envelopeRecord.parse none (envelope j) = .ok (some j) := by
  have hlimit : depthLimit = 126 + 1 := rfl
  have hvalue (rest : List Char) (hrest : Numeral.End rest) :
      TextField.value 126 (' ' :: ((prettyAt 1 j).toList ++ rest)) = .ok (j, rest) := by
    rw [TextField.value, readValue_space, enoughFuel,
      readValue_prettyAt j 1 _ 126 rest hj hrest (by simp; omega), nested, if_pos hdepth]
  rw [TextRecord.parse, envelope, pretty, toList_obj, hlimit, TextRecord.read_brace]
  obtain ⟨fuel, hfuel⟩ : ∃ f, (membersText 0 [("story", j)] ++ ['\x7d']).length + 1 = f + 2 := by
    refine ⟨_, (Nat.sub_add_cancel ?_).symm⟩
    simp [membersText, newline]
  rw [hfuel]
  simp only [membersText, membersTail_nil, List.append_assoc, List.nil_append]
  rw [TextRecord.readMembers_first (f := ⟨"story", true, _⟩) _ _ _ _ _
    (by simp [Http.envelopeRecord]; rfl)]
  simp only [hvalue _ (end_newline 0 _), Except.map, bind, Except.bind, TextRecord.readMembers_end]
  rfl

/-- **What can be fetched.** An entry is what some envelope holds when it is legible and nested at
most 126 containers deep. -/
theorem Entry.fetchable_iff {e : Entry} (hnumbers : e.NumbersReadBack) :
    e.Fetchable ↔ e.Legible ∧ e.doc.depth ≤ 126 := by
  refine ⟨fun h => ⟨h.within.2 hnumbers, h.within.1⟩, fun ⟨hlegible, hdepth⟩ => ?_⟩
  refine ⟨⟨200, (envelope e.doc).toUTF8⟩, ?_⟩
  rw [Http.Response.story?, parseBytes_toUTF8, parse_envelope hlegible hdepth]
  rfl

/-! ## Snapshots that can be replayed -/

/-- The file that is written is the one that is read. -/
theorem readSnapshot_withSnapshot (target : Target) {world : Memory}
    (hclock : world.now.InCalendar)
    {entries : List Entry} (hlegible : ∀ e ∈ entries, e.Legible) :
    readSnapshot Memory.store target.snapshotFile (world.withSnapshot target entries) =
      (if ∀ e ∈ entries, e.doc.depth ≤ 125 then .ok (Snapshot.take target world.now entries)
        else .error (.snapshot target.snapshotFile .malformed),
        world.withSnapshot target entries) := by
  rw [readSnapshot_memory (Memory.snapshot?_withSnapshot world target entries),
    Snapshot.ofBytes_take target hclock hlegible]
  split <;> rfl

/-- Where something is nested too deep, the snapshot of fetched entries is refused. -/
theorem readSnapshot_deep (target : Target) (world : Memory) (hclock : world.now.InCalendar)
    {entries : List Entry} (hlegible : ∀ e ∈ entries, e.Legible) {e : Entry} (he : e ∈ entries)
    (hdeep : ¬ e.Shallow) :
    readSnapshot Memory.store target.snapshotFile (world.withSnapshot target entries) =
      (.error (.snapshot target.snapshotFile .malformed), world.withSnapshot target entries) := by
  rw [readSnapshot_withSnapshot target hclock hlegible, if_neg fun h => hdeep (h e he)]

/-- **A snapshot of fetched entries can be replayed unless one of them is nested as deep as an
envelope allows.** The snapshot is written in either case. It is then read back as one of the
target with the same entries when none of them is nested 126 containers deep; otherwise the file is
refused as malformed. -/
theorem readSnapshot_createSnapshot_iff (target : Target) {world : Memory}
    (hclock : world.now.InCalendar) (hnew : world.snapshot? target = none) {entries : List Entry}
    (hfetched : ∀ e ∈ entries, e.Fetchable) (hnumbers : ∀ e ∈ entries, e.NumbersReadBack) :
    ∃ after, createSnapshot Memory.environment target entries world =
        (.ok target.snapshotFile, after) ∧
      ((∃ s, readSnapshot Memory.store target.snapshotFile after = (.ok s, after) ∧
          s.Replays target entries) ↔ ∀ e ∈ entries, e.doc.depth ≠ 126) ∧
      ((∃ e ∈ entries, e.doc.depth = 126) →
        readSnapshot Memory.store target.snapshotFile after =
          (.error (.snapshot target.snapshotFile .malformed), after)) := by
  have hlegible : ∀ e ∈ entries, e.Legible := fun e he =>
    ((Entry.fetchable_iff (hnumbers e he)).1 (hfetched e he)).1
  have hshallow : ∀ e ∈ entries, e.doc.depth ≤ 125 ↔ e.doc.depth ≠ 126 := by
    intro e he
    have hdepth := ((Entry.fetchable_iff (hnumbers e he)).1 (hfetched e he)).2
    omega
  have hread := readSnapshot_withSnapshot target hclock hlegible
  have hdeep {e : Entry} (he : e ∈ entries) (hdepth : e.doc.depth = 126) :=
    readSnapshot_deep target world hclock hlegible he fun h => (hshallow e he).1 h hdepth
  refine ⟨world.withSnapshot target entries, ?_, ⟨?_, fun h => ?_⟩, ?_⟩
  · rw [createSnapshot_memory, if_pos hnew]
  · rintro ⟨s, hs, -⟩ e he hdepth
    cases (hdeep he hdepth).symm.trans hs
  · rw [if_pos fun e he => (hshallow e he).2 (h e he)] at hread
    exact ⟨_, hread, Snapshot.take_replays _ _ _⟩
  · rintro ⟨e, he, hdepth⟩
    exact hdeep he hdepth

namespace Deep

theorem one_readsBack : (Number.int 1).ReadsBack := by
  unfold Number.ReadsBack
  decide +kernel

/-- The page without what is nested deep. -/
def top : Entry where
  doc := .obj [("id", .num (.int 1)), ("content", content)]

/-- The rest of the page can be replayed. -/
theorem readSnapshot_createSnapshot_top :
    ∃ after, createSnapshot Memory.environment job.target [top] world =
        (.ok job.target.snapshotFile, after) ∧
      ∃ s, readSnapshot Memory.store job.target.snapshotFile after = (.ok s, after) ∧
        s.Replays job.target [top] := by
  have hnumbers : top.NumbersReadBack := by
    unfold Entry.NumbersReadBack
    simpa [top, content, NumbersReadBack, numbers, numbersMembers] using one_readsBack
  have hlegible : top.Legible := by
    unfold Entry.Legible
    simp [top, content, Dict.Distinct, Dict.keys, one_readsBack]
  have hdepth : top.doc.depth = 2 := by decide
  have hfetched : top.Fetchable := (Entry.fetchable_iff hnumbers).2 ⟨hlegible, by simp [hdepth]⟩
  have hclock : world.now.InCalendar := by decide
  obtain ⟨after, hcreate, hread, -⟩ := readSnapshot_createSnapshot_iff job.target hclock rfl
    (List.forall_mem_singleton.2 hfetched) (List.forall_mem_singleton.2 hnumbers)
  exact ⟨after, hcreate, hread.2 (List.forall_mem_singleton.2 (by simp [hdepth]))⟩

theorem nest_numbers (n : Nat) : (nest n).numbers = [] := by
  induction n with
  | zero => rfl
  | succ n ih => simp [nest, numbers, numbersItems, ih]

theorem page_numbersReadBack : page.NumbersReadBack := by
  unfold Entry.NumbersReadBack
  simpa [page, NumbersReadBack, numbers, numbersMembers, nest_numbers] using one_readsBack

theorem depth_page : page.doc.depth = 126 := by
  simp [page, Json.depth, Json.depthMembers, depth_nest]

/-- The page can be fetched; its snapshot is written, and cannot be read. -/
theorem page_not_replayed :
    page.Fetchable ∧ page.NumbersReadBack ∧
      ∃ after, createSnapshot Memory.environment job.target [page] world =
          (.ok job.target.snapshotFile, after) ∧
        ¬ ∃ s, readSnapshot Memory.store job.target.snapshotFile after = (.ok s, after) := by
  have hfetched : page.Fetchable :=
    (Entry.fetchable_iff page_numbersReadBack).2 ⟨page_legible, by simp [depth_page]⟩
  have hread := readSnapshot_deep job.target world (by decide)
    (List.forall_mem_singleton.2 page_legible) (List.mem_singleton_self page) page_deep
  refine ⟨hfetched, page_numbersReadBack, world.withSnapshot job.target [page], rfl, ?_⟩
  rintro ⟨s, hs⟩
  cases hread.symm.trans hs

end Deep

end Blokwork
