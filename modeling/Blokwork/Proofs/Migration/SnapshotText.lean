import Blokwork.Migration.Snapshot
import Blokwork.Proofs.Json.Reading
import Blokwork.Proofs.Timestamp

/-!
# A snapshot is read back from its bytes

The bytes of a snapshot are read as the snapshot when its time is one of the calendar and the
entries, legible, are nested at most 125 containers deep (`Snapshot.ofBytes_take`): the snapshot
itself is two more. A deeper entry makes the whole text unreadable. Without a word about the time,
what is read can differ from what was written in the time only (`Snapshot.eq_of_ofBytes_take`).

`Snapshot.Holds` says of a file which entries it holds, by its document and by what is read of it,
without a word about how it came about; a snapshot that is taken is such a file
(`Snapshot.holds_take`).
-/

namespace Blokwork

open Json

/-! ## Fields of a record in its text -/

namespace TextField

theorem skipBlank_space (cs : List Char) : skipBlank (' ' :: cs) = skipBlank cs := rfl

theorem string_space (cs : List Char) : string (' ' :: cs) = string cs := rfl

theorem string_prettyAt (level : Nat) (s : String) (rest : List Char) :
    string ((prettyAt level (.str s)).toList ++ rest) = .ok (s, rest) := by
  simp [string, prettyAt, toList_quote, skipBlank_cons, readString_quote]

theorem optional_prettyAt {α : Type} {item : List Char → Except TextFault (α × List Char)}
    (level : Nat) (s : String) (rest : List Char) :
    optional item (' ' :: ((prettyAt level (.str s)).toList ++ rest)) =
      (item ((prettyAt level (.str s)).toList ++ rest)).map fun (x, rest) => (some x, rest) := by
  simp [optional, skipBlank_space, prettyAt, toList_quote, skipBlank_cons]

theorem boolean_prettyAt (level : Nat) (b : Bool) (rest : List Char) :
    boolean (' ' :: ((prettyAt level (.bool b)).toList ++ rest)) = .ok (b, rest) := by
  cases b <;> simp [boolean, skipBlank_space, prettyAt, skipBlank_cons, expectWord, Except.map]

theorem values_prettyAt (level room : Nat) {xs : List Json} (rest : List Char)
    (hxs : ∀ x ∈ xs, x.Legible) :
    values (room + 1) (' ' :: ((prettyAt level (.arr xs)).toList ++ rest)) =
      nested room (depthItems xs) xs rest := by
  have htext : skipBlank (' ' :: ((prettyAt level (.arr xs)).toList ++ rest)) =
      '[' :: (itemsText level xs ++ ']' :: rest) := by
    simp [skipBlank_space, toList_arr, skipBlank_cons]
  rw [values, htext]
  exact readItems_itemsText xs level _ room rest hxs (by simp; omega)

end TextField

namespace TextRecord

variable {σ : Type} {record : TextRecord σ} {f : TextField σ}

/-- A member with the name of a field is entered into the draft. -/
theorem readMember_memberText {k : String} {x : Json} (room level : Nat) {seen : List String}
    (draft : σ) (rest : List Char) (hfield : record.find? (fun f => f.name = k) = some f)
    (hnew : seen.contains k = false) :
    record.readMember room seen draft (newline level ++ (memberText level (k, x) ++ rest)) =
      (f.enter room (' ' :: ((prettyAt level x).toList ++ rest)) draft).map
        fun (draft, rest) => ((k :: seen, draft), rest) := by
  have htext : memberText level (k, x) ++ rest = '"' :: (k.toList.flatMap escapeChar ++
      '"' :: ':' :: ' ' :: ((prettyAt level x).toList ++ rest)) := by
    simp [memberText, toList_quote]
  rw [readMember, skipBlank_newline, htext, skipBlank_cons _ (by decide)]
  simp only [readString_quote, hfield, hnew, expectColon_colon, bind, Except.bind,
    Bool.false_eq_true, ↓reduceIte]
  cases f.enter room (' ' :: ((prettyAt level x).toList ++ rest)) draft <;> rfl

/-- The first member of an object. -/
theorem readMembers_first {k : String} {x : Json} (room level fuel : Nat) (draft : σ)
    (rest : List Char) (hfield : record.find? (fun f => f.name = k) = some f) :
    record.readMembers room (fuel + 1) true [] draft
        (newline level ++ (memberText level (k, x) ++ rest)) =
      (do
        let (draft, rest) ← f.enter room (' ' :: ((prettyAt level x).toList ++ rest)) draft
        record.readMembers room fuel false [k] draft rest) := by
  have hnew : ([] : List String).contains k = false := rfl
  have hmember := readMember_memberText (x := x) room level draft rest hfield hnew
  have htext : ∃ cs, memberText level (k, x) ++ rest = '"' :: cs := by
    simp [memberText, toList_quote]
  obtain ⟨cs, hcs⟩ := htext
  have hskip : record.readMember room [] draft ('"' :: cs) =
      record.readMember room [] draft (newline level ++ ('"' :: cs)) := by
    rw [readMember, readMember, skipBlank_newline]
  rw [hcs] at hmember
  rw [hcs, readMembers, skipBlank_newline, skipBlank_cons _ (by decide)]
  -- a quotation mark neither ends the object nor parts members
  change (record.readMember room [] draft ('"' :: cs) >>= fun read =>
    record.readMembers room fuel false read.1.1 read.1.2 read.2) = _
  rw [hskip, hmember]
  cases f.enter room (' ' :: ((prettyAt level x).toList ++ rest)) draft <;> rfl

/-- A further member of an object. -/
theorem readMembers_next {k : String} {x : Json} (room level fuel : Nat) {seen : List String}
    (draft : σ) (rest : List Char) (hfield : record.find? (fun f => f.name = k) = some f)
    (hnew : seen.contains k = false) :
    record.readMembers room (fuel + 1) false seen draft
        (',' :: (newline level ++ (memberText level (k, x) ++ rest))) =
      (do
        let (draft, rest) ← f.enter room (' ' :: ((prettyAt level x).toList ++ rest)) draft
        record.readMembers room fuel false (k :: seen) draft rest) := by
  rw [readMembers, skipBlank_cons _ (by decide)]
  simp only [Bool.false_eq_true, ↓reduceIte,
    readMember_memberText room level draft rest hfield hnew]
  cases f.enter room (' ' :: ((prettyAt level x).toList ++ rest)) draft <;> rfl

/-- The end of an object. -/
theorem readMembers_end (room level fuel : Nat) (first : Bool) (seen : List String) (draft : σ)
    (rest : List Char) :
    record.readMembers room (fuel + 1) first seen draft (newline level ++ '\x7d' :: rest) =
      .ok ((seen, draft), rest) := by
  rw [readMembers, skipBlank_newline, skipBlank_cons _ (by decide)]
  rfl

/-- A record that is an object. -/
theorem read_brace (room : Nat) (draft : σ) (cs : List Char) :
    record.read (room + 1) draft ('\x7b' :: cs) = (do
      let ((seen, draft), rest) ← record.readMembers room (cs.length + 1) true [] draft cs
      if record.any fun f => f.required && !seen.contains f.name then .error .mismatched
      else return (draft, rest)) := rfl

end TextRecord

namespace Snapshot

/-- The document of a snapshot: what it is a snapshot of, when it was taken, and the entries in
order. -/
def document (target : Target) (now : Timestamp) (entries : List Entry) : Json :=
  .obj [("schema", .str "blokgen.rollback.v1"), ("component", .str target.component),
    ("field", .str target.field), ("created", .bool true), ("created_at", .str now.text),
    ("entries", .arr (entries.map Entry.doc))]

theorem toJson_take (target : Target) (now : Timestamp) (entries : List Entry) :
    (take target now entries).toJson = document target now entries := rfl

/-- What is read of the text of a snapshot: its time is read before its entries are. -/
theorem parse_text_take (target : Target) (now : Timestamp) {entries : List Entry}
    (hentries : ∀ e ∈ entries, e.doc.Legible) :
    parse (take target now entries).text =
      match Timestamp.parse now.text with
      | .error _ => .error .mismatched
      | .ok t =>
        if ∀ e ∈ entries, e.doc.depth ≤ 125 then
          .ok { take target now entries with createdAt := some t }
        else .error .malformed := by
  have hdocs : ∀ x ∈ entries.map Entry.doc, x.Legible := by
    simpa using hentries
  have hnum : depthLimit = 126 + 1 := rfl
  rw [parse, TextRecord.parse, text, toJson_take, document, pretty, toList_obj, hnum,
    TextRecord.read_brace]
  obtain ⟨fuel, hfuel⟩ : ∃ f, (membersText 0 [("schema", .str "blokgen.rollback.v1"),
      ("component", .str target.component), ("field", .str target.field), ("created", .bool true),
      ("created_at", .str now.text), ("entries", .arr (entries.map Entry.doc))] ++
      ['\x7d']).length + 1 = f + 7 := by
    refine ⟨_, (Nat.sub_add_cancel ?_).symm⟩
    simp [membersText, memberText, newline]
    omega
  rw [hfuel]
  simp only [membersText, membersTail_cons, membersTail_nil, List.append_assoc, List.nil_append,
    List.cons_append]
  rw [TextRecord.readMembers_first (f := ⟨"schema", false, _⟩) _ _ _ _ _ (by simp [record]; rfl)]
  simp only [TextField.optional_prettyAt, TextField.string_prettyAt, Except.map, bind, Except.bind]
  rw [TextRecord.readMembers_next (f := ⟨"component", true, _⟩) _ _ _ _ _ (by simp [record]; rfl)
    (by decide)]
  simp only [TextField.string_space, TextField.string_prettyAt, Except.map, bind, Except.bind]
  rw [TextRecord.readMembers_next (f := ⟨"field", false, _⟩) _ _ _ _ _ (by simp [record]; rfl)
    (by decide)]
  simp only [TextField.optional_prettyAt, TextField.string_prettyAt, Except.map, bind, Except.bind]
  rw [TextRecord.readMembers_next (f := ⟨"created", false, _⟩) _ _ _ _ _ (by simp [record]; rfl)
    (by decide)]
  simp only [TextField.boolean_prettyAt, Except.map, bind, Except.bind]
  rw [TextRecord.readMembers_next (f := ⟨"created_at", false, _⟩) _ _ _ _ _ (by simp [record]; rfl)
    (by decide)]
  simp only [TextField.optional_prettyAt, timestamp, TextField.string_prettyAt, Except.map, bind,
    Except.bind]
  cases Timestamp.parse now.text with
  | error fault => rfl
  | ok t =>
    simp only [pure, Except.pure]
    rw [TextRecord.readMembers_next (f := ⟨"entries", false, _⟩) _ _ _ _ _ (by simp [record]; rfl)
      (by decide)]
    simp only [TextField.values_prettyAt _ _ _ hdocs, nested, depthItems_le]
    by_cases hdepth : ∀ e ∈ entries, e.doc.depth ≤ 125
    · have hdepths : ∀ x ∈ entries.map Entry.doc, x.depth ≤ 125 := by simpa using hdepth
      rw [if_pos hdepths, if_pos hdepth]
      have hend : expectEnd [] = .ok () := rfl
      have hmk : (entries.map Entry.doc).map Entry.mk = entries := by
        rw [List.map_map]
        exact List.map_id entries
      have hseen : (record.any fun f => f.required &&
          !(["entries", "created_at", "created", "field", "component", "schema"].contains
            f.name)) = false := by simp [record]
      simp only [Except.map, bind, Except.bind, TextRecord.readMembers_end, hend, hmk, hseen,
        Bool.false_eq_true, ↓reduceIte]
      rfl
    · have hdepths : ¬ ∀ x ∈ entries.map Entry.doc, x.depth ≤ 125 := by simpa using hdepth
      rw [if_neg hdepths, if_neg hdepth]
      rfl

/-- A snapshot with a time of the calendar is read back from its bytes, unless an entry is nested
too deep. -/
theorem ofBytes_take (target : Target) {now : Timestamp} (hnow : now.InCalendar)
    {entries : List Entry} (hentries : ∀ e ∈ entries, e.doc.Legible) :
    ofBytes (take target now entries).text.toUTF8 =
      if ∀ e ∈ entries, e.doc.depth ≤ 125 then .ok (take target now entries)
      else .error .malformed := by
  rw [ofBytes, parseBytes_toUTF8, parse_text_take target now hentries, Timestamp.parse_text hnow]
  rfl

/-- What is read of the bytes of a snapshot holds its entries. -/
theorem eq_of_ofBytes_take {target : Target} {now : Timestamp} {entries : List Entry}
    (hentries : ∀ e ∈ entries, e.doc.Legible) {s : Snapshot}
    (h : ofBytes (take target now entries).text.toUTF8 = .ok s) :
    s.component = target.component ∧ s.entries = entries := by
  rw [ofBytes, parseBytes_toUTF8, parse_text_take target now hentries] at h
  cases htime : Timestamp.parse now.text with
  | error fault => simp [htime] at h
  | ok t =>
    rw [htime] at h
    simp only at h
    split at h
    · cases h
      exact ⟨rfl, rfl⟩
    · cases h

/-! ## What the file of a snapshot holds -/

/-- The snapshot is one of the target, with exactly these entries in this order. -/
structure Replays (s : Snapshot) (target : Target) (entries : List Entry) : Prop where
  component : s.component = target.component
  field : s.field = some target.field
  created : s.created = true
  entries : s.entries = entries

theorem take_replays (target : Target) (now : Timestamp) (entries : List Entry) :
    (take target now entries).Replays target entries := ⟨rfl, rfl, rfl, rfl⟩

/-- The bytes hold these entries of the target, saved at that time. -/
structure Holds (target : Target) (now : Timestamp) (entries : List Entry) (bytes : ByteArray) :
    Prop where
  /-- They are the text of a document with the entries in order. -/
  text : bytes = (document target now entries).pretty.toUTF8
  /-- Entries that can be read back inside a snapshot are read back from them. -/
  replays : now.InCalendar → (∀ e ∈ entries, e.doc.Legible) → (∀ e ∈ entries, e.doc.depth ≤ 125) →
    ∃ s, ofBytes bytes = .ok s ∧ s.Replays target entries

/-- The file of a snapshot holds what the snapshot was taken of. -/
theorem holds_take (target : Target) (now : Timestamp) (entries : List Entry) :
    Holds target now entries (take target now entries).text.toUTF8 where
  text := by rw [Snapshot.text, toJson_take]
  replays hnow hlegible hdepth := by
    have hread := ofBytes_take target hnow hlegible
    rw [if_pos hdepth] at hread
    exact ⟨_, hread, take_replays target now entries⟩

end Snapshot

end Blokwork
