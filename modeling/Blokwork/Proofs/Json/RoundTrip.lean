import Blokwork.Proofs.Dict
import Blokwork.Proofs.Json.Spelling

/-!
# Indented text is read back, down to a depth

A value whose numbers are denoted by their texts and whose objects have distinct keys (`Legible`)
is read back from its indented text as the same tree, key order included, when it is nested no
deeper than the reader has room for; a deeper one is refused as malformed. `readValue_prettyAt`
says both, for a value anywhere in a longer text.
-/

namespace Blokwork

namespace Json

/-! ## Legible values -/

mutual

/-- Every number is what its text denotes, and no object has a key twice. -/
def Legible : Json → Prop
  | .num n => n.ReadsBack
  | .arr xs => LegibleItems xs
  | .obj ms => Dict.Distinct ms ∧ LegibleMembers ms
  | _ => True

/-- `Legible` over items. -/
def LegibleItems : List Json → Prop
  | [] => True
  | x :: xs => Legible x ∧ LegibleItems xs

/-- `Legible` over the values of members. -/
def LegibleMembers : List (String × Json) → Prop
  | [] => True
  | (_, x) :: ms => Legible x ∧ LegibleMembers ms

end

/-- `LegibleItems` in the natural per-element form. -/
theorem LegibleItems_iff (xs : List Json) : LegibleItems xs ↔ ∀ x ∈ xs, Legible x := by
  induction xs with
  | nil => simp [LegibleItems]
  | cons x xs ih => simp [LegibleItems, ih]

/-- `LegibleMembers` in the natural per-element form. -/
theorem LegibleMembers_iff (ms : List (String × Json)) :
    LegibleMembers ms ↔ ∀ m ∈ ms, Legible m.2 := by
  induction ms with
  | nil => simp [LegibleMembers]
  | cons m ms ih => obtain ⟨k, x⟩ := m; simp [LegibleMembers, ih]

@[simp] theorem Legible_null : Legible .null := trivial
@[simp] theorem Legible_bool (b : Bool) : Legible (.bool b) := trivial
@[simp] theorem Legible_str (s : String) : Legible (.str s) := trivial
@[simp] theorem Legible_num (n : Number) : Legible (.num n) ↔ n.ReadsBack := Iff.rfl
@[simp] theorem Legible_arr (xs : List Json) : Legible (.arr xs) ↔ ∀ x ∈ xs, Legible x := by
  show LegibleItems xs ↔ _; rw [LegibleItems_iff]
@[simp] theorem Legible_obj (ms : List (String × Json)) :
    Legible (.obj ms) ↔ Dict.Distinct ms ∧ ∀ m ∈ ms, Legible m.2 := by
  show _ ∧ LegibleMembers ms ↔ _; rw [LegibleMembers_iff]

/-- The depth of items is bounded by a bound of each. -/
theorem depthItems_le (xs : List Json) (n : Nat) : depthItems xs ≤ n ↔ ∀ x ∈ xs, depth x ≤ n := by
  induction xs with
  | nil => simp [depthItems]
  | cons x xs ih => rw [depthItems, Nat.max_le, ih, List.forall_mem_cons]

/-! ## Indented text -/

/-- A line break and the indent of a level. -/
def newline (level : Nat) : List Char := '\n' :: (indent level).toList

/-- The items behind the first one, each behind a comma. -/
def itemsTail (level : Nat) (xs : List Json) : List Char :=
  xs.flatMap fun x => ',' :: (newline level ++ (prettyAt level x).toList)

/-- A member with its key. -/
def memberText (level : Nat) (m : String × Json) : List Char :=
  (quote m.1).toList ++ ':' :: ' ' :: (prettyAt level m.2).toList

/-- The members behind the first one, each behind a comma. -/
def membersTail (level : Nat) (ms : List (String × Json)) : List Char :=
  ms.flatMap fun m => ',' :: (newline level ++ memberText level m)

@[simp] theorem itemsTail_nil (level : Nat) : itemsTail level [] = [] := rfl

@[simp] theorem itemsTail_cons (level : Nat) (x : Json) (xs : List Json) :
    itemsTail level (x :: xs) =
      ',' :: (newline level ++ ((prettyAt level x).toList ++ itemsTail level xs)) := by
  simp [itemsTail]

@[simp] theorem membersTail_nil (level : Nat) : membersTail level [] = [] := rfl

@[simp] theorem membersTail_cons (level : Nat) (m : String × Json) (ms : List (String × Json)) :
    membersTail level (m :: ms) =
      ',' :: (newline level ++ (memberText level m ++ membersTail level ms)) := by
  simp [membersTail]

/-- The characters of a block. -/
theorem toList_block (opening closing : String) (level : Nat) (part : String)
    (parts : List String) :
    (block opening closing level (part :: parts)).toList =
      opening.toList ++ (newline (level + 1) ++ (part.toList ++
        ((parts.flatMap fun p => ',' :: (newline (level + 1) ++ p.toList)) ++
          (newline level ++ closing.toList)))) := by
  have htail : ∀ (p : String) (ps : List String),
      (String.intercalate ",\n" ((p :: ps).map (indent (level + 1) ++ ·))).toList =
        (indent (level + 1)).toList ++ (p.toList ++
          ps.flatMap fun q => ',' :: (newline (level + 1) ++ q.toList)) := by
    intro p ps
    induction ps generalizing p with
    | nil => simp
    | cons q qs ih =>
      simp only [List.map_cons, String.intercalate_cons_cons, String.toList_append] at ih ⊢
      rw [ih]
      simp [newline]
  simp only [block, String.toList_append, htail]
  simp [newline]

/-- What stands between the brackets of an array. -/
def itemsText (level : Nat) : List Json → List Char
  | [] => []
  | x :: xs =>
    newline (level + 1) ++ ((prettyAt (level + 1) x).toList ++
      (itemsTail (level + 1) xs ++ newline level))

/-- What stands between the braces of an object. -/
def membersText (level : Nat) : List (String × Json) → List Char
  | [] => []
  | m :: ms =>
    newline (level + 1) ++ (memberText (level + 1) m ++
      (membersTail (level + 1) ms ++ newline level))

/-- The characters of an array. -/
theorem toList_arr (level : Nat) (xs : List Json) :
    (prettyAt level (.arr xs)).toList = '[' :: (itemsText level xs ++ [']']) := by
  have htail : ∀ ys : List Json, ((prettyItems (level + 1) ys).flatMap fun p =>
      ',' :: (newline (level + 1) ++ p.toList)) = itemsTail (level + 1) ys := by
    intro ys
    induction ys with
    | nil => rfl
    | cons y ys ih => simp [prettyItems, ih]
  cases xs with
  | nil => simp [prettyAt, itemsText]
  | cons x xs => simp [prettyAt, prettyItems, itemsText, toList_block, htail]

/-- The characters of an object. -/
theorem toList_obj (level : Nat) (ms : List (String × Json)) :
    (prettyAt level (.obj ms)).toList = '\x7b' :: (membersText level ms ++ ['\x7d']) := by
  have htail : ∀ ns : List (String × Json), ((prettyMembers (level + 1) ns).flatMap fun p =>
      ',' :: (newline (level + 1) ++ p.toList)) = membersTail (level + 1) ns := by
    intro ns
    induction ns with
    | nil => rfl
    | cons n ns ih => obtain ⟨k, y⟩ := n; simp [prettyMembers, memberText, ih]
  cases ms with
  | nil => simp [prettyAt, membersText]
  | cons m ms =>
    obtain ⟨k, x⟩ := m
    simp [prettyAt, prettyMembers, membersText, toList_block, htail, memberText]

/-! ## Reading -/

/-- Blanks between tokens are skipped: the indent behind a line break. -/
@[simp] theorem skipBlank_newline (level : Nat) (cs : List Char) :
    skipBlank (newline level ++ cs) = skipBlank cs := by
  have hspaces : ∀ n, skipBlank (List.replicate n ' ' ++ cs) = skipBlank cs := by
    intro n
    induction n with
    | zero => rfl
    | succ n ih => exact ih
  simp only [newline, indent, String.toList_ofList]
  exact hspaces (2 * level)

/-- The character starts a value: it is no blank, no comma and no closing bracket. -/
def Opens (c : Char) : Prop :=
  (c ≠ ' ' ∧ c ≠ '\n' ∧ c ≠ '\t' ∧ c ≠ '\r') ∧ c ≠ ',' ∧ c ≠ ']' ∧ c ≠ '\x7d'

instance (c : Char) : Decidable (Opens c) := inferInstanceAs (Decidable (_ ∧ _))

/-- The text of a number is not empty. -/
theorem text_ne_nil {n : Number} (h : n.ReadsBack) : n.text.toList ≠ [] := by
  intro hnil
  obtain ⟨r, hread, -⟩ := readValue_of_parse h
  rw [hnil, enoughFuel, readValue] at hread
  cases hread

/-- The text of a legible value starts with a character that starts a value. -/
theorem prettyAt_opens (level : Nat) {j : Json} (hj : j.Legible) :
    ∃ c cs, (prettyAt level j).toList = c :: cs ∧ Opens c := by
  cases j with
  | null => exact ⟨'n', ['u', 'l', 'l'], by simp [prettyAt], by decide⟩
  | bool b =>
    cases b with
    | false => exact ⟨'f', ['a', 'l', 's', 'e'], by simp [prettyAt], by decide⟩
    | true => exact ⟨'t', ['r', 'u', 'e'], by simp [prettyAt], by decide⟩
  | num n =>
    obtain ⟨c, cs, hcs⟩ := List.exists_cons_of_ne_nil (text_ne_nil hj)
    have hc : Number.isMark c = true := Number.isMark_of_mem_text (n := n) (by simp [hcs])
    refine ⟨c, cs, hcs, ne_blank_of_isMark hc, ?_, ?_, ?_⟩ <;>
      (rintro rfl; revert hc; decide)
  | str s => exact ⟨'"', _, toList_quote s, by decide⟩
  | arr xs => exact ⟨'[', _, toList_arr level xs, by decide⟩
  | obj ms => exact ⟨'\x7b', _, toList_obj level ms, by decide⟩

/-- What reading gives when `depth` containers are nested and there is room for `room`. -/
def nested {α : Type} (room depth : Nat) (a : α) (rest : List Char) :
    Except TextFault (α × List Char) :=
  if depth ≤ room then .ok (a, rest) else .error .malformed

/-- The text behind an item or a member ends a numeral. -/
theorem end_newline (level : Nat) (rest : List Char) : Numeral.End (newline level ++ rest) :=
  Numeral.end_cons (by decide) (by decide) (by decide) (by decide)

theorem end_itemsTail (level : Nat) (xs : List Json) (closing : Nat) (rest : List Char) :
    Numeral.End (itemsTail level xs ++ (newline closing ++ rest)) := by
  cases xs with
  | nil => exact end_newline closing rest
  | cons x xs =>
    rw [itemsTail_cons]
    exact Numeral.end_cons (by decide) (by decide) (by decide) (by decide)

theorem end_membersTail (level : Nat) (ms : List (String × Json)) (closing : Nat)
    (rest : List Char) : Numeral.End (membersTail level ms ++ (newline closing ++ rest)) := by
  cases ms with
  | nil => exact end_newline closing rest
  | cons m ms =>
    rw [membersTail_cons]
    exact Numeral.end_cons (by decide) (by decide) (by decide) (by decide)

/-- An array with items starts with a value. -/
theorem readItems_of_opens (fuel room level : Nat) {c : Char} (cs : List Char) (h : Opens c) :
    readItems (fuel + 1) .keep room (newline level ++ c :: cs) =
      (do
        let (x, rest) ← readValue fuel .keep room (c :: cs)
        let (xs, rest) ← readMoreItems fuel .keep room rest
        return (x :: xs, rest)) := by
  rw [readItems, skipBlank_newline, skipBlank_cons cs h.1]
  have hclose := h.2.2.1
  split <;> simp_all

/-- Leading blanks do not matter to a value. -/
theorem readValue_newline (fuel room level : Nat) (cs : List Char) :
    readValue fuel .keep room (newline level ++ cs) = readValue fuel .keep room cs := by
  cases fuel with
  | zero => simp [readValue]
  | succ fuel => rw [readValue, readValue, skipBlank_newline]

theorem expectColon_colon (cs : List Char) : expectColon (':' :: cs) = .ok cs := by
  rw [expectColon, skipBlank_cons cs (by decide)]
  rfl

/-- Leading blanks do not matter to a member. -/
theorem readMember_newline (fuel room level : Nat) (cs : List Char) :
    readMember fuel .keep room (newline level ++ cs) = readMember fuel .keep room cs := by
  cases fuel with
  | zero => simp [readMember]
  | succ fuel => rw [readMember, readMember, skipBlank_newline]

/-- An object with members starts with a member. -/
theorem readMembers_newline (fuel room level : Nat) (m : String × Json) (rest : List Char) :
    readMembers (fuel + 1) .keep room (newline level ++ (memberText level m ++ rest)) =
      (do
        let (m, rest) ← readMember fuel .keep room (memberText level m ++ rest)
        let (ms, rest) ← readMoreMembers fuel .keep room rest
        return (m :: ms, rest)) := by
  simp only [memberText, toList_quote, List.cons_append]
  rw [readMembers, skipBlank_newline, skipBlank_cons _ (by decide)]
  rfl

theorem readValue_space (fuel room : Nat) (cs : List Char) :
    readValue fuel .keep room (' ' :: cs) = readValue fuel .keep room cs := by
  cases fuel with
  | zero => simp [readValue]
  | succ fuel => rw [readValue, readValue]; rfl

/-- The reading of a value and of what follows it in one container. -/
theorem nested_bind {α β γ : Type} (room m n : Nat) (a : α) (b : β) (f : α → β → γ)
    (mid rest : List Char) (next : List Char → Except TextFault (β × List Char))
    (h : next mid = nested room n b rest) :
    (do
      let (a, mid) ← nested room m a mid
      let (b, rest) ← next mid
      return (f a b, rest)) = nested room (max m n) (f a b) rest := by
  by_cases hm : m ≤ room
  · by_cases hn : n ≤ room
    · have : max m n ≤ room := by omega
      simp [nested, hm, hn, h, this, bind, Except.bind, pure, Except.pure]
    · have : ¬ max m n ≤ room := by omega
      simp [nested, hm, hn, h, this, bind, Except.bind]
  · have : ¬ max m n ≤ room := by omega
    simp [nested, hm, this, bind, Except.bind]

/-- The reading of a container, which takes room for one. -/
theorem nested_container {α β : Type} (room d : Nat) (a : α) (g : α → β) (rest : List Char)
    {read : Nat → Except TextFault (α × List Char)} (h : ∀ r, read r = nested r d a rest) :
    (match room with
      | 0 => .error .malformed
      | r + 1 => (read r).map fun (a, rest) => (g a, rest)) = nested room (d + 1) (g a) rest := by
  cases room with
  | zero => simp [nested]
  | succ r =>
    simp only [h, nested, Nat.add_le_add_iff_right]
    split <;> rfl

/-- A member is read back when its value is. -/
theorem readMember_memberText (k : String) {x : Json} {level fuel room : Nat} {rest : List Char}
    (hx : readValue fuel .keep room ((prettyAt level x).toList ++ rest) =
      nested room x.depth x rest) :
    readMember (fuel + 1) .keep room (memberText level (k, x) ++ rest) =
      nested room x.depth (k, x) rest := by
  have htext : memberText level (k, x) ++ rest = '"' :: (k.toList.flatMap escapeChar ++
      '"' :: ':' :: ' ' :: ((prettyAt level x).toList ++ rest)) := by
    simp [memberText, toList_quote]
  rw [htext, readMember, skipBlank_cons _ (by decide)]
  simp only [readString_quote, expectColon_colon, readValue_space, hx, bind, Except.bind]
  by_cases hd : x.depth ≤ room <;> simp [nested, hd, pure, Except.pure]

mutual

/-- A legible value is read back from its text, down to the depth there is room for. -/
theorem readValue_prettyAt (j : Json) (level fuel room : Nat) (rest : List Char)
    (hj : j.Legible) (hr : Numeral.End rest)
    (hf : 3 * (prettyAt level j).toList.length ≤ fuel + 1) :
    readValue (fuel + 1) .keep room ((prettyAt level j).toList ++ rest) =
      nested room j.depth j rest := by
  cases j with
  | null => simp [prettyAt, readValue, skipBlank_cons, expectWord, nested, depth, Except.map]
  | bool b =>
    cases b <;>
      simp [prettyAt, readValue, skipBlank_cons, expectWord, nested, depth, Except.map]
  | num n => exact Number.ReadsBack.readValue hj hr fuel room
  | str s =>
    have hquote : (prettyAt level (.str s)).toList ++ rest =
        '"' :: (s.toList.flatMap escapeChar ++ '"' :: rest) := by
      simp [prettyAt, toList_quote]
    rw [hquote, readValue, skipBlank_cons _ (by decide)]
    simp [readString_quote, nested, depth, Except.map]
  | arr xs =>
    rw [toList_arr] at hf ⊢
    simp only [List.length_cons, List.length_append, List.length_nil] at hf
    obtain ⟨fuel, rfl⟩ : ∃ f, fuel = f + 1 := ⟨fuel - 1, by omega⟩
    have hread r := readItems_itemsText xs level fuel r rest ((Legible_arr xs).1 hj) (by omega)
    simp only [List.cons_append, List.append_assoc, List.nil_append]
    rw [readValue, skipBlank_cons _ (by decide)]
    exact nested_container room (depthItems xs) xs Json.arr rest hread
  | obj ms =>
    rw [toList_obj] at hf ⊢
    simp only [List.length_cons, List.length_append, List.length_nil] at hf
    obtain ⟨fuel, rfl⟩ : ∃ f, fuel = f + 1 := ⟨fuel - 1, by omega⟩
    have hms := (Legible_obj ms).1 hj
    have hread r := readMembers_membersText ms level fuel r rest hms.2 (by omega)
    simp only [List.cons_append, List.append_assoc, List.nil_append]
    rw [readValue, skipBlank_cons _ (by decide)]
    have := nested_container room (depthMembers ms) ms (fun ms => Json.obj (Dict.ofEntries ms))
      rest hread
    rwa [Dict.ofEntries_of_distinct hms.1] at this
termination_by structural j

/-- The items of an array are read back. -/
theorem readItems_itemsText (xs : List Json) (level fuel room : Nat) (rest : List Char)
    (hxs : ∀ x ∈ xs, x.Legible) (hf : 3 * (itemsText level xs).length ≤ fuel) :
    readItems (fuel + 1) .keep room (itemsText level xs ++ ']' :: rest) =
      nested room (depthItems xs) xs rest := by
  cases xs with
  | nil => simp [itemsText, readItems, skipBlank_cons, nested, depthItems]
  | cons x xs =>
    obtain ⟨c, cs, hcs, hopens⟩ := prettyAt_opens (level + 1) (hxs x (by simp))
    simp only [itemsText, List.length_append, newline, List.length_cons] at hf
    obtain ⟨fuel, rfl⟩ : ∃ f, fuel = f + 1 := ⟨fuel - 1, by omega⟩
    have hx := readValue_prettyAt x (level + 1) fuel room
      (itemsTail (level + 1) xs ++ (newline level ++ ']' :: rest)) (hxs x (by simp))
      (end_itemsTail (level + 1) xs level _) (by omega)
    have htail := readMoreItems_itemsTail xs (level + 1) fuel room level rest
      (fun y hy => hxs y (by simp [hy])) (by omega)
    simp only [itemsText, List.append_assoc]
    rw [hcs, List.cons_append] at hx ⊢
    rw [readItems_of_opens _ _ _ _ hopens, hx]
    exact nested_bind room x.depth (depthItems xs) x xs List.cons _ rest
      (readMoreItems (fuel + 1) .keep room) htail
termination_by structural xs

/-- The items behind the first one are read back. -/
theorem readMoreItems_itemsTail (xs : List Json) (level fuel room closing : Nat)
    (rest : List Char) (hxs : ∀ x ∈ xs, x.Legible)
    (hf : 3 * (itemsTail level xs).length ≤ fuel) :
    readMoreItems (fuel + 1) .keep room (itemsTail level xs ++ (newline closing ++ ']' :: rest)) =
      nested room (depthItems xs) xs rest := by
  cases xs with
  | nil => simp [readMoreItems, skipBlank_cons, nested, depthItems]
  | cons x xs =>
    simp only [itemsTail_cons, List.length_cons, List.length_append] at hf
    obtain ⟨fuel, rfl⟩ : ∃ f, fuel = f + 1 := ⟨fuel - 1, by omega⟩
    have hx := readValue_prettyAt x level fuel room
      (itemsTail level xs ++ (newline closing ++ ']' :: rest)) (hxs x (by simp))
      (end_itemsTail level xs closing _) (by omega)
    have htail := readMoreItems_itemsTail xs level fuel room closing rest
      (fun y hy => hxs y (by simp [hy])) (by omega)
    simp only [itemsTail_cons, List.cons_append, List.append_assoc]
    rw [readMoreItems, skipBlank_cons _ (by decide)]
    simp only [readValue_newline, hx]
    exact nested_bind room x.depth (depthItems xs) x xs List.cons _ rest
      (readMoreItems (fuel + 1) .keep room) htail
termination_by structural xs

/-- The members of an object are read back. -/
theorem readMembers_membersText (ms : List (String × Json)) (level fuel room : Nat)
    (rest : List Char) (hms : ∀ m ∈ ms, m.2.Legible)
    (hf : 3 * (membersText level ms).length ≤ fuel) :
    readMembers (fuel + 1) .keep room (membersText level ms ++ '\x7d' :: rest) =
      nested room (depthMembers ms) ms rest := by
  match ms with
  | [] => simp [membersText, readMembers, skipBlank_cons, nested, depthMembers]
  | (k, x) :: ms =>
    simp only [membersText, memberText, List.length_append, newline, List.length_cons] at hf
    obtain ⟨fuel, rfl⟩ : ∃ f, fuel = f + 2 := ⟨fuel - 2, by omega⟩
    have hm := readMember_memberText k (readValue_prettyAt x (level + 1) fuel room
      (membersTail (level + 1) ms ++ (newline level ++ '\x7d' :: rest)) (hms (k, x) (by simp))
      (end_membersTail (level + 1) ms level _) (by omega))
    have htail := readMoreMembers_membersTail ms (level + 1) (fuel + 1) room level rest
      (fun n hn => hms n (by simp [hn])) (by omega)
    simp only [membersText, List.append_assoc]
    rw [readMembers_newline, hm]
    exact nested_bind room x.depth (depthMembers ms) (k, x) ms List.cons _ rest
      (readMoreMembers (fuel + 2) .keep room) htail
termination_by structural ms

/-- The members behind the first one are read back. -/
theorem readMoreMembers_membersTail (ms : List (String × Json)) (level fuel room closing : Nat)
    (rest : List Char) (hms : ∀ m ∈ ms, m.2.Legible)
    (hf : 3 * (membersTail level ms).length ≤ fuel) :
    readMoreMembers (fuel + 1) .keep room
        (membersTail level ms ++ (newline closing ++ '\x7d' :: rest)) =
      nested room (depthMembers ms) ms rest := by
  match ms with
  | [] => simp [readMoreMembers, skipBlank_cons, nested, depthMembers]
  | (k, x) :: ms =>
    simp only [membersTail_cons, memberText, List.length_cons, List.length_append] at hf
    obtain ⟨fuel, rfl⟩ : ∃ f, fuel = f + 2 := ⟨fuel - 2, by omega⟩
    have hm := readMember_memberText k (readValue_prettyAt x level fuel room
      (membersTail level ms ++ (newline closing ++ '\x7d' :: rest)) (hms (k, x) (by simp))
      (end_membersTail level ms closing _) (by omega))
    have htail := readMoreMembers_membersTail ms level (fuel + 1) room closing rest
      (fun n hn => hms n (by simp [hn])) (by omega)
    simp only [membersTail_cons, List.cons_append, List.append_assoc]
    rw [readMoreMembers, skipBlank_cons _ (by decide)]
    simp only [readMember_newline, hm]
    exact nested_bind room x.depth (depthMembers ms) (k, x) ms List.cons _ rest
      (readMoreMembers (fuel + 2) .keep room) htail
termination_by structural ms

end

/-- A legible value that is not nested too deep is read back from its indented text. -/
theorem parse_pretty {j : Json} (hj : j.Legible) (hdepth : j.depth ≤ depthLimit) :
    parse j.pretty = .ok j := by
  have hend : Numeral.End [] := nofun
  have hread := readValue_prettyAt j 0 (3 * (prettyAt 0 j).toList.length + 2) depthLimit [] hj
    hend (by omega)
  rw [List.append_nil, nested, if_pos hdepth] at hread
  rw [parse, parseWithin, pretty, enoughFuel, hread]
  rfl

end Json

end Blokwork
