import Blokwork.Json.Stream
import Blokwork.Proofs.Json.RoundTrip

/-!
# What a reader accepts

Every value that is read lies within the room there was for it: it is nested no deeper, and it is
legible as soon as its numbers are, since reading leaves no key of an object twice (`Json.Within`).
`readsWithin` says so for all parts of a text, by induction on the calls inside one another. A
record that is read from a text hands the text to its fields only, so what every field keeps of a
draft holds of the record (`TextRecord.keeps_parse`).
-/

namespace Blokwork

/-! ## Readers that succeed -/

section Except

variable {ε α β : Type} {b : β}

/-- A sequence gives a result when both of its parts do. -/
theorem exists_of_bind_eq_ok {x : Except ε α} {f : α → Except ε β} (h : x >>= f = .ok b) :
    ∃ a, x = .ok a ∧ f a = .ok b := by
  cases x with
  | error e => cases h
  | ok a => exact ⟨a, rfl, h⟩

/-- A result that was mapped comes from one that was not. -/
theorem exists_of_map_eq_ok {x : Except ε α} {f : α → β} (h : x.map f = .ok b) :
    ∃ a, x = .ok a ∧ f a = b := by
  cases x with
  | error e => cases h
  | ok a => exact ⟨a, rfl, Except.ok.inj h⟩

end Except

namespace Json

/-! ## The numbers of a value -/

mutual

/-- The numbers in a value, in order. -/
def numbers : Json → List Number
  | .num n => [n]
  | .arr xs => numbersItems xs
  | .obj ms => numbersMembers ms
  | _ => []

/-- The numbers in the items. -/
def numbersItems : List Json → List Number
  | [] => []
  | x :: xs => numbers x ++ numbersItems xs

/-- The numbers in the values of the members. -/
def numbersMembers : List (String × Json) → List Number
  | [] => []
  | (_, x) :: ms => numbers x ++ numbersMembers ms

end

/-- The numbers in items are those in each of them. -/
theorem numbersItems_eq (xs : List Json) : numbersItems xs = xs.flatMap numbers := by
  induction xs with
  | nil => rfl
  | cons x xs ih => simp [numbersItems, ih]

/-- The numbers in members are those in each of their values. -/
theorem numbersMembers_eq (ms : List (String × Json)) :
    numbersMembers ms = ms.flatMap fun m => m.2.numbers := by
  induction ms with
  | nil => rfl
  | cons m ms ih => simp [numbersMembers, ih]

/-- Every number in the value is what its text denotes. -/
def NumbersReadBack (j : Json) : Prop := ∀ n ∈ j.numbers, n.ReadsBack

@[simp] theorem NumbersReadBack_num (n : Number) : (num n).NumbersReadBack ↔ n.ReadsBack := by
  simp [NumbersReadBack, numbers]

@[simp] theorem NumbersReadBack_arr (xs : List Json) :
    (arr xs).NumbersReadBack ↔ ∀ x ∈ xs, x.NumbersReadBack := by
  simp only [NumbersReadBack, numbers, numbersItems_eq, List.mem_flatMap]
  exact ⟨fun h x hx n hn => h n ⟨x, hx, hn⟩, fun h n ⟨x, hx, hn⟩ => h x hx n hn⟩

@[simp] theorem NumbersReadBack_obj (ms : List (String × Json)) :
    (obj ms).NumbersReadBack ↔ ∀ m ∈ ms, m.2.NumbersReadBack := by
  simp only [NumbersReadBack, numbers, numbersMembers_eq, List.mem_flatMap]
  exact ⟨fun h m hm n hn => h n ⟨m, hm, hn⟩, fun h n ⟨m, hm, hn⟩ => h m hm n hn⟩

/-! ## Values that are read -/

/-- The value can have been read with that much room: it is nested no deeper, and nothing but its
numbers can keep it from being read back. -/
def Within (room : Nat) (j : Json) : Prop := j.depth ≤ room ∧ (j.NumbersReadBack → j.Legible)

/-- An array is one container around its items. -/
theorem within_arr {room : Nat} {xs : List Json} (h : ∀ x ∈ xs, x.Within room) :
    (arr xs).Within (room + 1) := by
  refine ⟨?_, fun hnum => (Legible_arr xs).2 fun x hx => ?_⟩
  · exact Nat.add_le_add_right ((depthItems_le xs room).2 fun x hx => (h x hx).1) 1
  · exact (h x hx).2 ((NumbersReadBack_arr xs).1 hnum x hx)

/-- The depth of members is bounded by a bound of each. -/
theorem depthMembers_le (ms : List (String × Json)) (n : Nat) :
    depthMembers ms ≤ n ↔ ∀ m ∈ ms, depth m.2 ≤ n := by
  induction ms with
  | nil => simp [depthMembers]
  | cons m ms ih => rw [depthMembers, Nat.max_le, ih, List.forall_mem_cons]

/-- The last one of the members with a key is kept, so no key is left twice. -/
theorem within_obj {room : Nat} {ms : List (String × Json)} (h : ∀ m ∈ ms, m.2.Within room) :
    (obj (Dict.ofEntries ms)).Within (room + 1) := by
  have hkept : ∀ m ∈ Dict.ofEntries ms, m.2.Within room := fun m hm =>
    h m (Dict.mem_of_mem_ofEntries hm)
  refine ⟨?_, fun hnum => (Legible_obj _).2 ⟨Dict.distinct_ofEntries ms, fun m hm => ?_⟩⟩
  · exact Nat.add_le_add_right ((depthMembers_le _ room).2 fun m hm => (hkept m hm).1) 1
  · exact (hkept m hm).2 ((NumbersReadBack_obj _).1 hnum m hm)

/-- What is read of a text with that many calls inside one another is within the room. -/
structure ReadsWithin (fuel : Nat) : Prop where
  value {room : Nat} {cs rest : List Char} {j : Json} :
    readValue fuel .keep room cs = .ok (j, rest) → j.Within room
  items {room : Nat} {cs rest : List Char} {xs : List Json} :
    readItems fuel .keep room cs = .ok (xs, rest) → ∀ x ∈ xs, x.Within room
  moreItems {room : Nat} {cs rest : List Char} {xs : List Json} :
    readMoreItems fuel .keep room cs = .ok (xs, rest) → ∀ x ∈ xs, x.Within room
  members {room : Nat} {cs rest : List Char} {ms : List (String × Json)} :
    readMembers fuel .keep room cs = .ok (ms, rest) → ∀ m ∈ ms, m.2.Within room
  moreMembers {room : Nat} {cs rest : List Char} {ms : List (String × Json)} :
    readMoreMembers fuel .keep room cs = .ok (ms, rest) → ∀ m ∈ ms, m.2.Within room
  member {room : Nat} {cs rest : List Char} {m : String × Json} :
    readMember fuel .keep room cs = .ok (m, rest) → m.2.Within room

/-- Without calls nothing is read. -/
theorem readsWithin_zero : ReadsWithin 0 where
  value h := by simp [readValue] at h
  items h := by simp [readItems] at h
  moreItems h := by simp [readMoreItems] at h
  members h := by simp [readMembers] at h
  moreMembers h := by simp [readMoreMembers] at h
  member h := by simp [readMember] at h

section Step

variable {fuel room : Nat} {cs rest : List Char}

/-- A value without containers is within any room. -/
theorem within_leaf {α : Type} {read : Except TextFault (α × List Char)} {leaf : α → Json}
    (hleaf : ∀ a, (leaf a).Within room) {j : Json}
    (h : (read.map fun (a, rest) => (leaf a, rest)) = .ok (j, rest)) : j.Within room := by
  obtain ⟨⟨a, r⟩, -, heq⟩ := exists_of_map_eq_ok h
  cases heq
  exact hleaf a

/-- A container is read with room for one container less inside it. -/
theorem readValue_within (ih : ReadsWithin fuel) {j : Json}
    (h : readValue (fuel + 1) .keep room cs = .ok (j, rest)) : j.Within room := by
  have hword {j' : Json} {read : Except TextFault (List Char)}
      (h : read.map (j', ·) = .ok (j, rest)) (hj : j'.Within room) : j.Within room := by
    obtain ⟨r, -, heq⟩ := exists_of_map_eq_ok h
    cases heq
    exact hj
  have hnum : ∀ n, (num n).Within room := fun n => ⟨Nat.zero_le _, (NumbersReadBack_num n).1⟩
  rw [readValue] at h
  split at h
  · cases h
  · exact hword h ⟨Nat.zero_le _, fun _ => Legible_null⟩
  · exact hword h ⟨Nat.zero_le _, fun _ => Legible_bool true⟩
  · exact hword h ⟨Nat.zero_le _, fun _ => Legible_bool false⟩
  · exact within_leaf (fun s => ⟨Nat.zero_le _, fun _ => Legible_str s⟩) h
  · cases room with
    | zero => cases h
    | succ room =>
      obtain ⟨⟨xs, r⟩, hread, heq⟩ := exists_of_map_eq_ok h
      cases heq
      exact within_arr (ih.items hread)
  · cases room with
    | zero => cases h
    | succ room =>
      obtain ⟨⟨ms, r⟩, hread, heq⟩ := exists_of_map_eq_ok h
      cases heq
      exact within_obj (ih.members hread)
  · exact within_leaf hnum h
  · split at h
    · exact within_leaf hnum h
    · cases h

/-- Of two parts in a row, what holds of each holds of both. -/
theorem forall_mem_of_reads {α : Type} {P : α → Prop} {first : Except TextFault (α × List Char)}
    {more : List Char → Except TextFault (List α × List Char)} {as : List α}
    (h : (do
      let (a, rest) ← first
      let (as, rest) ← more rest
      return (a :: as, rest)) = .ok (as, rest))
    (hfirst : ∀ {a r}, first = .ok (a, r) → P a)
    (hmore : ∀ {cs as r}, more cs = .ok (as, r) → ∀ a ∈ as, P a) : ∀ a ∈ as, P a := by
  obtain ⟨⟨a, r⟩, hread, h⟩ := exists_of_bind_eq_ok h
  obtain ⟨⟨as', r'⟩, hreads, h⟩ := exists_of_bind_eq_ok h
  cases h
  exact List.forall_mem_cons.2 ⟨hfirst hread, hmore hreads⟩

/-- The first item, if there is one, and then the rest. -/
theorem readItems_within (ih : ReadsWithin fuel) {xs : List Json}
    (h : readItems (fuel + 1) .keep room cs = .ok (xs, rest)) : ∀ x ∈ xs, x.Within room := by
  rw [readItems] at h
  split at h
  · cases h
  · cases h
    exact List.forall_mem_nil _
  · exact forall_mem_of_reads h ih.value ih.moreItems

/-- A further item behind a comma. -/
theorem readMoreItems_within (ih : ReadsWithin fuel) {xs : List Json}
    (h : readMoreItems (fuel + 1) .keep room cs = .ok (xs, rest)) : ∀ x ∈ xs, x.Within room := by
  rw [readMoreItems] at h
  split at h
  · cases h
  · cases h
    exact List.forall_mem_nil _
  · exact forall_mem_of_reads h ih.value ih.moreItems
  · cases h

/-- The first member, if there is one, and then the rest. -/
theorem readMembers_within (ih : ReadsWithin fuel) {ms : List (String × Json)}
    (h : readMembers (fuel + 1) .keep room cs = .ok (ms, rest)) : ∀ m ∈ ms, m.2.Within room := by
  rw [readMembers] at h
  split at h
  · cases h
  · cases h
    exact List.forall_mem_nil _
  · exact forall_mem_of_reads (P := fun m => m.2.Within room) h ih.member ih.moreMembers

/-- A further member behind a comma. -/
theorem readMoreMembers_within (ih : ReadsWithin fuel) {ms : List (String × Json)}
    (h : readMoreMembers (fuel + 1) .keep room cs = .ok (ms, rest)) :
    ∀ m ∈ ms, m.2.Within room := by
  rw [readMoreMembers] at h
  split at h
  · cases h
  · cases h
    exact List.forall_mem_nil _
  · exact forall_mem_of_reads (P := fun m => m.2.Within room) h ih.member ih.moreMembers
  · cases h

/-- The value of a member is read like any other. -/
theorem readMember_within (ih : ReadsWithin fuel) {m : String × Json}
    (h : readMember (fuel + 1) .keep room cs = .ok (m, rest)) : m.2.Within room := by
  rw [readMember] at h
  split at h
  · cases h
  · obtain ⟨⟨k, r⟩, -, h⟩ := exists_of_bind_eq_ok h
    obtain ⟨r', -, h⟩ := exists_of_bind_eq_ok h
    obtain ⟨⟨x, r''⟩, hread, h⟩ := exists_of_bind_eq_ok h
    cases h
    exact ih.value hread
  · cases h

end Step

/-- Everything that is read is within the room there was. -/
theorem readsWithin (fuel : Nat) : ReadsWithin fuel := by
  induction fuel with
  | zero => exact readsWithin_zero
  | succ fuel ih =>
    exact ⟨readValue_within ih, readItems_within ih, readMoreItems_within ih,
      readMembers_within ih, readMoreMembers_within ih, readMember_within ih⟩

/-- A value that is read of a whole text is within the limit. -/
theorem within_of_parse {text : String} {j : Json} (h : parse text = .ok j) :
    j.Within depthLimit := by
  obtain ⟨r, hread, -⟩ := readValue_of_parse h
  exact (readsWithin _).value hread

/-! ## Values that are read back -/

/-- The value is read back from its text, with that much room. -/
def Readable (room : Nat) (j : Json) : Prop := j.Legible ∧ j.depth ≤ room

/-- A string has no container, and nothing in it can fail to read back. -/
theorem readable_str (s : String) (room : Nat) : (str s).Readable room :=
  ⟨Legible_str s, Nat.zero_le _⟩

/-- A truth value has no container, and nothing in it can fail to read back. -/
theorem readable_bool (b : Bool) (room : Nat) : (bool b).Readable room :=
  ⟨Legible_bool b, Nat.zero_le _⟩

/-- An array takes one container of the room, and the rest is left for its items. -/
theorem readable_arr_iff {room : Nat} {xs : List Json} :
    (arr xs).Readable (room + 1) ↔ ∀ x ∈ xs, x.Readable room := by
  simp only [Readable, Legible_arr, depth, Nat.add_le_add_iff_right, depthItems_le, forall_and]

/-- An object takes one container of the room; its keys have to be distinct. -/
theorem readable_obj_iff {room : Nat} {ms : List (String × Json)} :
    (obj ms).Readable (room + 1) ↔ Dict.Distinct ms ∧ ∀ m ∈ ms, m.2.Readable room := by
  simp only [Readable, Legible_obj, depth, Nat.add_le_add_iff_right, depthMembers_le, forall_and,
    and_assoc]

end Json

/-! ## Records that are read -/

/-- Entering a value into the draft keeps a property of drafts. -/
def TextField.Keeps {σ : Type} (P : σ → Prop) (room : Nat) (f : TextField σ) : Prop :=
  ∀ {cs draft draft' rest}, f.enter room cs draft = .ok (draft', rest) → P draft → P draft'

namespace TextRecord

variable {σ : Type} {P : σ → Prop} {room : Nat} {record : TextRecord σ} {draft draft' : σ}
  {seen seen' : List String} {cs rest : List Char}

/-- A member enters its value into the field of its name, or is passed over. -/
theorem keeps_readMember (hfields : ∀ f ∈ record, f.Keeps P room) (hP : P draft)
    (h : record.readMember room seen draft cs = .ok ((seen', draft'), rest)) : P draft' := by
  rw [readMember] at h
  split at h
  · cases h
  · obtain ⟨⟨key, r⟩, -, h⟩ := exists_of_bind_eq_ok h
    simp only at h
    split at h
    · next f hfind =>
      split at h
      · cases h
      · obtain ⟨r', -, h⟩ := exists_of_bind_eq_ok h
        obtain ⟨⟨draft'', r''⟩, henter, h⟩ := exists_of_bind_eq_ok h
        cases h
        exact hfields f (List.mem_of_find?_eq_some hfind) henter hP
    · obtain ⟨r', -, h⟩ := exists_of_bind_eq_ok h
      obtain ⟨r'', -, h⟩ := exists_of_bind_eq_ok h
      cases h
      exact hP
  · cases h

/-- A member is followed by others. -/
theorem keeps_moreMembers (hfields : ∀ f ∈ record, f.Keeps P room) {fuel : Nat} (hP : P draft)
    (h : (do
      let ((seen, draft), rest) ← record.readMember room seen draft cs
      record.readMembers room fuel false seen draft rest) = .ok ((seen', draft'), rest))
    (hmembers : ∀ {seen draft cs}, P draft →
      record.readMembers room fuel false seen draft cs = .ok ((seen', draft'), rest) → P draft') :
    P draft' := by
  obtain ⟨⟨⟨seen'', draft''⟩, r⟩, hmember, h⟩ := exists_of_bind_eq_ok h
  exact hmembers (keeps_readMember hfields hP hmember) h

/-- What every field keeps is kept by the members of an object, one after the other. -/
theorem keeps_readMembers (hfields : ∀ f ∈ record, f.Keeps P room) {fuel : Nat} {first : Bool}
    (hP : P draft)
    (h : record.readMembers room fuel first seen draft cs = .ok ((seen', draft'), rest)) :
    P draft' := by
  induction fuel generalizing first seen draft cs with
  | zero => cases h
  | succ fuel ih =>
    rw [readMembers] at h
    split at h
    · cases h
    · cases h
      exact hP
    · split at h
      · cases h
      · exact keeps_moreMembers hfields hP h ih
    · split at h
      · exact keeps_moreMembers hfields hP h ih
      · cases h

/-- What every field keeps is kept by the items of an array, which stand for the fields in
order. -/
theorem keeps_readItems (hfields : ∀ f ∈ record, f.Keeps P room) {first : Bool} (hP : P draft)
    (h : readItems room first record draft cs = .ok (draft', rest)) : P draft' := by
  induction record generalizing first draft cs with
  | nil =>
    obtain ⟨r, -, heq⟩ := exists_of_map_eq_ok h
    cases heq
    exact hP
  | cons f record ih =>
    have hnext {cs : List Char} (h : (do
        let (draft, rest) ← f.enter room cs draft
        readItems room false record draft rest) = .ok (draft', rest)) : P draft' := by
      obtain ⟨⟨draft'', r⟩, henter, h⟩ := exists_of_bind_eq_ok h
      exact ih (fun g hg => hfields g (List.mem_cons_of_mem _ hg))
        (hfields f List.mem_cons_self henter hP) h
    rw [readItems] at h
    split at h
    · cases h
    · split at h
      · cases h
      · cases h
        exact hP
    · split at h
      · cases h
      · split at h
        · cases h
        · cases h
        · exact hnext h
    · split at h
      · exact hnext h
      · cases h

/-- What every field keeps is kept by a record, written as an object or as an array. -/
theorem keeps_read (hfields : ∀ f ∈ record, f.Keeps P room) (hP : P draft)
    (h : record.read (room + 1) draft cs = .ok (draft', rest)) : P draft' := by
  unfold read at h
  generalize Json.skipBlank cs = opened at h
  split at h
  · cases h
  · cases h
  · next hroom =>
    cases hroom
    exact keeps_readItems hfields hP h
  · next hroom =>
    cases hroom
    obtain ⟨⟨⟨seen, draft''⟩, r⟩, hmembers, h⟩ := exists_of_bind_eq_ok h
    simp only at h
    split at h
    · cases h
    · cases h
      exact keeps_readMembers hfields hP hmembers
  · cases h

/-- What every field keeps, with the room there is inside the record, holds of what is read. -/
theorem keeps_parse (hfields : ∀ f ∈ record, f.Keeps P 126) {text : String} (hP : P draft)
    (h : record.parse draft text = .ok draft') : P draft' := by
  obtain ⟨⟨draft'', r⟩, hread, h⟩ := exists_of_bind_eq_ok h
  obtain ⟨-, -, h⟩ := exists_of_bind_eq_ok h
  cases h
  exact keeps_read hfields hP hread

end TextRecord

/-- What is read of bytes is read of the text that they spell. -/
theorem exists_of_parseBytes_eq_ok {α : Type} {parse : String → Except TextFault α}
    {bytes : ByteArray} {a : α} (h : parseBytes parse bytes = .ok a) :
    ∃ text, parse text = .ok a := by
  rw [parseBytes] at h
  split at h
  · next text _ => exact ⟨text, h⟩
  · split at h <;> cases h

/-- Bytes of a text are read as the text. -/
theorem parseBytes_toUTF8 {α : Type} (parse : String → Except TextFault α) (text : String) :
    parseBytes parse text.toUTF8 = parse text := by
  have hutf8 : String.fromUTF8? text.toUTF8 = some text := dif_pos text.isValidUTF8
  rw [parseBytes, DecodedText.ofBytes, hutf8]

end Blokwork
