import Blokwork.Proofs.Json.Reading

/-!
# Places in values

A place in a value is the list of the positions that lead to it from the outside, where items and
members are counted from zero. `Json.children` are the values directly inside a value; what is said
of a value through them holds of arrays and objects alike. `Json.blank` puts `null` at all places
of a kind: two values with the same blanked form differ at those places only.
-/

namespace Blokwork.Json

/-- The positions that lead to a place, the outermost first. -/
abbrev Place := List Nat

/-! ## Children -/

/-- The values directly inside a value, in order. -/
def children : Json → List Json
  | .arr xs => xs
  | .obj ms => ms.map Prod.snd
  | _ => []

/-- The value with others in the places of those directly inside it. -/
def withChildren (ys : List Json) : Json → Json
  | .arr _ => .arr ys
  | .obj ms => .obj (List.zipWith (fun m y => (m.1, y)) ms ys)
  | leaf => leaf

section Members

variable {ms : List (String × Json)} {ys zs : List Json}

theorem map_snd_zipWith_fst (h : ys.length = ms.length) :
    (List.zipWith (fun m y => (m.1, y)) ms ys).map Prod.snd = ys := by
  induction ms generalizing ys with
  | nil => rw [List.eq_nil_of_length_eq_zero h, List.zipWith_nil_left, List.map_nil]
  | cons m ms ih =>
    cases ys with
    | nil => cases h
    | cons y ys => rw [List.zipWith_cons_cons, List.map_cons, ih (Nat.succ.inj h)]

theorem zipWith_fst_zipWith (h : ys.length = ms.length) :
    List.zipWith (fun m z => (m.1, z)) (List.zipWith (fun m y => (m.1, y)) ms ys) zs =
      List.zipWith (fun m z => (m.1, z)) ms zs := by
  induction ms generalizing ys zs with
  | nil => rfl
  | cons m ms ih =>
    cases ys with
    | nil => cases h
    | cons y ys =>
      cases zs with
      | nil => rfl
      | cons z zs => simp [ih (Nat.succ.inj h)]

end Members

section Children

variable {x : Json} {ys zs : List Json}

theorem children_withChildren (h : ys.length = x.children.length) :
    (x.withChildren ys).children = ys := by
  cases x with
  | null | bool | num | str => exact (List.eq_nil_of_length_eq_zero h).symm
  | arr xs => rfl
  | obj ms => exact map_snd_zipWith_fst (h.trans (List.length_map _))

theorem withChildren_children (x : Json) : x.withChildren x.children = x := by
  cases x with
  | null | bool | num | str | arr => rfl
  | obj ms =>
    have hmembers : List.zipWith (fun m y => (m.1, y)) ms (ms.map Prod.snd) = ms := by
      rw [List.zipWith_map_right, List.zipWith_self, List.map_id']
    exact congrArg Json.obj hmembers

theorem withChildren_withChildren (h : ys.length = x.children.length) :
    (x.withChildren ys).withChildren zs = x.withChildren zs := by
  cases x with
  | null | bool | num | str | arr => rfl
  | obj ms => exact congrArg Json.obj (zipWith_fst_zipWith (h.trans (List.length_map _)))

theorem depth_lt_of_mem_children {y : Json} (h : y ∈ x.children) : y.depth < x.depth := by
  cases x with
  | null | bool | num | str => cases h
  | arr xs => exact Nat.lt_succ_of_le ((depthItems_le xs _).1 (Nat.le_refl _) y h)
  | obj ms =>
    obtain ⟨m, hm, rfl⟩ := List.mem_map.1 h
    exact Nat.lt_succ_of_le ((depthMembers_le ms _).1 (Nat.le_refl _) m hm)

end Children

/-! ## Hidden places -/

mutual

/-- The value with `null` at the hidden places. -/
def blank (hidden : Place → Bool) : Json → Json
  | .arr xs => if hidden [] then .null else .arr (blankItems hidden 0 xs)
  | .obj ms => if hidden [] then .null else .obj (blankMembers hidden 0 ms)
  | leaf => if hidden [] then .null else leaf

/-- The items, of which the first has that position, with `null` at the hidden places. -/
def blankItems (hidden : Place → Bool) (position : Nat) : List Json → List Json
  | [] => []
  | x :: xs =>
    blank (fun place => hidden (position :: place)) x :: blankItems hidden (position + 1) xs

/-- The members, of which the first has that position, with `null` at the hidden places. -/
def blankMembers (hidden : Place → Bool) (position : Nat) :
    List (String × Json) → List (String × Json)
  | [] => []
  | (k, x) :: ms =>
    (k, blank (fun place => hidden (position :: place)) x) :: blankMembers hidden (position + 1) ms

end

/-- Values in a row with `null` at the hidden places. -/
def blankEach (hidden : Place → Bool) (xs : List Json) : List Json :=
  xs.mapIdx fun i x => x.blank fun place => hidden (i :: place)

section Blank

variable {hidden : Place → Bool}

theorem blankItems_eq (position : Nat) (xs : List Json) :
    blankItems hidden position xs =
      xs.mapIdx fun i x => x.blank fun place => hidden ((position + i) :: place) := by
  induction xs generalizing position with
  | nil => rfl
  | cons x xs ih =>
    rw [blankItems, ih, List.mapIdx_cons]
    simp only [Nat.add_zero, Nat.add_assoc, Nat.add_comm 1]

theorem blankMembers_eq (position : Nat) (ms : List (String × Json)) :
    blankMembers hidden position ms = List.zipWith (fun m y => (m.1, y)) ms
      ((ms.map Prod.snd).mapIdx fun i x =>
        x.blank fun place => hidden ((position + i) :: place)) := by
  induction ms generalizing position with
  | nil => rfl
  | cons m ms ih =>
    rw [blankMembers, ih, List.map_cons, List.mapIdx_cons, List.zipWith_cons_cons]
    simp only [Nat.add_zero, Nat.add_assoc, Nat.add_comm 1]

theorem blank_of_hidden (h : hidden [] = true) (x : Json) : x.blank hidden = .null := by
  cases x <;> simp [blank, h]

/-- Where the value itself is not hidden, the values directly inside it are blanked. -/
theorem blank_of_shown (h : hidden [] = false) (x : Json) :
    x.blank hidden = x.withChildren (blankEach hidden x.children) := by
  cases x with
  | null | bool | num | str => simp [blank, withChildren, h]
  | arr xs => simp [blank, h, blankItems_eq, withChildren, blankEach, children]
  | obj ms => simp [blank, h, blankMembers_eq, withChildren, blankEach, children]

/-- Values with the same blanked forms in the places of those inside a value. -/
theorem blank_withChildren {x : Json} {ys : List Json} (hlength : ys.length = x.children.length)
    (hsame : blankEach hidden ys = blankEach hidden x.children) :
    (x.withChildren ys).blank hidden = x.blank hidden := by
  cases h : hidden [] with
  | true => rw [blank_of_hidden h, blank_of_hidden h]
  | false =>
    rw [blank_of_shown h, children_withChildren hlength, withChildren_withChildren hlength, hsame,
      blank_of_shown h]

theorem blankMembers_set {ms : List (String × Json)} {i : Nat} {key : String} {old value : Json}
    (position : Nat) (hold : ms[i]? = some (key, old))
    (hsame : value.blank (fun place => hidden ((position + i) :: place)) =
      old.blank fun place => hidden ((position + i) :: place)) :
    blankMembers hidden position (ms.set i (key, value)) = blankMembers hidden position ms := by
  induction ms generalizing i position with
  | nil => cases hold
  | cons m ms ih =>
    cases i with
    | zero =>
      cases hold
      exact congrArg (fun x => (key, x) :: blankMembers hidden (position + 1) ms) hsame
    | succ i =>
      rw [List.set_cons_succ, blankMembers, blankMembers, ih (position + 1) hold]
      rwa [Nat.add_assoc, Nat.add_comm 1]

/-- A value with the same blanked form in the place of a member. -/
theorem blank_obj_set {ms : List (String × Json)} {i : Nat} {key : String} {old value : Json}
    (hold : ms[i]? = some (key, old))
    (hsame : value.blank (fun place => hidden (i :: place)) =
      old.blank fun place => hidden (i :: place)) :
    (obj (ms.set i (key, value))).blank hidden = (obj ms).blank hidden := by
  rw [blank, blank, blankMembers_set 0 hold (by rwa [Nat.zero_add])]

end Blank

end Blokwork.Json
