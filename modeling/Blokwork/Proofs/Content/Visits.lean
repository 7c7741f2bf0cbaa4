import Blokwork.Content.Entry
import Blokwork.Proofs.Json.Places
import Mathlib.Data.List.Perm.Subperm

/-!
# Visits of bloks

A visit edits a blok before it goes into it, so it goes into what the edit left there. `Visited`
says what a visit does, without a bound on the depth and without a state: which bloks are edited,
in which order, and what becomes of the value. Every visit that has room is one
(`visited_of_visitBloks`), and the state is passed along the bloks that are edited.

From this follows where edits are made: the visit meets a value at a place (`Json.met`), and it
edits once, in the order of the document, each blok that it meets (`Visited.inOrder`). Bloks that
are edited are bloks of the value, each at most once, if no edit puts new ones into a blok
(`Visited.subperm`), and nothing is changed outside the outermost bloks (`Visited.blank`). Where
every blok is left as it is, so is the value (`visitBloks_of_kept`).
-/

namespace Blokwork.Json

variable {component : String}

/-! ## Bloks in a value -/

/-- The value is a blok of the component. -/
def isBlok (component : String) : Json → Bool
  | .obj ms => isBlokOf component ms
  | _ => false

/-- The members of the value itself, if it is a blok of the component. -/
def ownBlok (component : String) : Json → List (Dict Json)
  | .obj ms => if isBlokOf component ms then [ms] else []
  | _ => []

mutual

/-- The bloks of the component in the value, each before those inside it. -/
def bloks (component : String) : Json → List (Dict Json)
  | .obj ms => (if isBlokOf component ms then [ms] else []) ++ bloksOfMembers component ms
  | .arr xs => bloksOfItems component xs
  | _ => []

/-- The bloks of the component in the items. -/
def bloksOfItems (component : String) : List Json → List (Dict Json)
  | [] => []
  | x :: xs => bloks component x ++ bloksOfItems component xs

/-- The bloks of the component in the members. -/
def bloksOfMembers (component : String) : List (String × Json) → List (Dict Json)
  | [] => []
  | (_, x) :: ms => bloks component x ++ bloksOfMembers component ms

end

theorem bloksOfItems_eq (xs : List Json) :
    bloksOfItems component xs = xs.flatMap (bloks component) := by
  induction xs with
  | nil => rfl
  | cons x xs ih => rw [bloksOfItems, ih, List.flatMap_cons]

theorem bloksOfMembers_eq (ms : List (String × Json)) :
    bloksOfMembers component ms = (ms.map Prod.snd).flatMap (bloks component) := by
  induction ms with
  | nil => rfl
  | cons m ms ih => rw [bloksOfMembers, ih, List.map_cons, List.flatMap_cons]

/-- The bloks in a value are itself and those in the values directly inside it. -/
theorem bloks_eq (x : Json) :
    x.bloks component = x.ownBlok component ++ x.children.flatMap (bloks component) := by
  cases x with
  | null | bool | num | str => rfl
  | arr xs => exact bloksOfItems_eq xs
  | obj ms => exact congrArg _ (bloksOfMembers_eq ms)

mutual

/-- A search finds a blok where there is one. -/
theorem hasBlok_eq : ∀ x : Json, x.hasBlok component = !(x.bloks component).isEmpty
  | .null | .bool _ | .num _ | .str _ => rfl
  | .arr xs => hasBlokItems_eq xs
  | .obj ms => by
    rw [hasBlok, hasBlokMembers_eq ms, bloks]
    cases isBlokOf component ms <;> simp

theorem hasBlokItems_eq : ∀ xs : List Json,
    hasBlokItems component xs = !(bloksOfItems component xs).isEmpty
  | [] => rfl
  | x :: xs => by
    rw [hasBlokItems, hasBlok_eq x, hasBlokItems_eq xs, bloksOfItems]
    cases bloks component x <;> simp

theorem hasBlokMembers_eq : ∀ ms : List (String × Json),
    hasBlokMembers component ms = !(bloksOfMembers component ms).isEmpty
  | [] => rfl
  | (_, x) :: ms => by
    rw [hasBlokMembers, hasBlok_eq x, hasBlokMembers_eq ms, bloksOfMembers]
    cases bloks component x <;> simp

end

/-- There are no bloks where none is found. -/
theorem hasBlok_eq_false_iff {x : Json} :
    x.hasBlok component = false ↔ x.bloks component = [] := by
  rw [hasBlok_eq, Bool.not_eq_false', List.isEmpty_iff]

theorem isBlok_eq_true_iff {x : Json} :
    x.isBlok component = true ↔ ∃ ms, x = .obj ms ∧ isBlokOf component ms = true := by
  cases x <;> simp [isBlok]

theorem ownBlok_of_isBlok {ms : Dict Json} (h : isBlokOf component ms = true) :
    (Json.obj ms).ownBlok component = [ms] := if_pos h

theorem ownBlok_of_not_isBlok {x : Json} (h : x.isBlok component = false) :
    x.ownBlok component = [] := by
  cases x with
  | null | bool | num | str | arr => rfl
  | obj ms => exact if_neg (by simpa [isBlok] using h)

/-- An outermost blok of the component stands at the place. -/
def outermostBlokAt (component : String) : Place → Json → Bool
  | [], x => x.isBlok component
  | i :: place, x =>
    !x.isBlok component && x.children[i]?.any (outermostBlokAt component place)

/-! ## What a visit meets -/

/-- The value after its own turn: a blok is edited. -/
def turned (component : String) (edit : Dict Json → Dict Json) : Json → Json
  | .obj ms => .obj (if isBlokOf component ms then edit ms else ms)
  | x => x

/-- What a visit meets at a place, where it edits each blok before it goes into it. -/
def met (component : String) (edit : Dict Json → Dict Json) : Place → Json → Option Json
  | [], x => some x
  | i :: place, x => (x.turned component edit).children[i]?.bind (met component edit place)

/-- The bloks that are edited are those that a visit meets, one for each place, in the order of the
document. -/
def EditedInOrder (component : String) (edit : Dict Json → Dict Json) (x : Json)
    (log : List (Dict Json)) : Prop :=
  ∃ places : List Place, places.Pairwise (· < ·) ∧
    (∀ place, place ∈ places ↔
      ∃ y, x.met component edit place = some y ∧ y.isBlok component = true) ∧
    places.map (fun place => x.met component edit place) = log.map fun blok => some (.obj blok)

/-- A part of a visit: a value, the bloks that were edited in it, and what became of it. -/
structure VisitPart where
  before : Json
  log : List (Dict Json)
  after : Json

/-- A visit of a value edits these bloks in it, in this order, and leaves this value. -/
inductive Visited (component : String) (edit : Dict Json → Dict Json) :
    Json → List (Dict Json) → Json → Prop where
  | within (x : Json) (parts : List VisitPart)
      (hparts : parts.map VisitPart.before = (x.turned component edit).children)
      (hvisited : ∀ p ∈ parts, Visited component edit p.before p.log p.after) :
    Visited component edit x (x.ownBlok component ++ parts.flatMap VisitPart.log)
      ((x.turned component edit).withChildren (parts.map VisitPart.after))

variable {edit : Dict Json → Dict Json} {x y : Json} {log : List (Dict Json)}

theorem turned_of_not_isBlok (h : x.isBlok component = false) : x.turned component edit = x := by
  cases x with
  | null | bool | num | str | arr => rfl
  | obj ms => exact congrArg Json.obj (if_neg (by simpa [isBlok] using h))

/-! ## A visit with a bound -/

section Bounded

variable {σ : Type} {note : σ → Dict Json → σ} {room : Nat} {s s' : σ}

/-- Members are visited as the items that their values are. -/
theorem visitMembers_eq (visit : σ → Json → Option (σ × Json)) (s : σ)
    (ms : List (String × Json)) :
    visitMembers visit s ms = (visitItems visit s (ms.map Prod.snd)).map fun (s, ys) =>
      (s, List.zipWith (fun m y => (m.1, y)) ms ys) := by
  induction ms generalizing s with
  | nil => rfl
  | cons m ms ih =>
    simp only [visitMembers, List.map_cons, visitItems]
    cases hx : visit s m.2 with
    | none => rfl
    | some p =>
      simp only [Option.bind_eq_bind, Option.bind_some, ih]
      cases visitItems visit p.1 (ms.map Prod.snd) <;> rfl

/-- With room, a visit is a turn of the value itself and then a visit of the values inside it. -/
theorem visitBloks_succ (s : σ) (x : Json) :
    visitBloks component (fun s ms => (note s ms, edit ms)) (room + 1) s x =
      (visitItems (visitBloks component (fun s ms => (note s ms, edit ms)) room)
        ((x.ownBlok component).foldl note s) (x.turned component edit).children).map
          fun (s, ys) => (s, (x.turned component edit).withChildren ys) := by
  cases x with
  | null | bool | num | str => rfl
  | arr xs => rfl
  | obj ms =>
    rw [visitBloks]
    cases hblok : isBlokOf component ms <;>
      simp [visitMembers_eq, turned, ownBlok, hblok, children, withChildren, Function.comp_def]

theorem exists_parts_of_visitItems {visit : σ → Json → Option (σ × Json)}
    {R : Json → List (Dict Json) → Json → Prop}
    (hvisit : ∀ s s' x y, visit s x = some (s', y) → ∃ log, R x log y ∧ s' = log.foldl note s)
    {xs ys : List Json} (h : visitItems visit s xs = some (s', ys)) :
    ∃ parts : List VisitPart, parts.map VisitPart.before = xs ∧
      parts.map VisitPart.after = ys ∧ (∀ p ∈ parts, R p.before p.log p.after) ∧
      s' = (parts.flatMap VisitPart.log).foldl note s := by
  induction xs generalizing s ys with
  | nil =>
    cases h
    exact ⟨[], rfl, rfl, nofun, rfl⟩
  | cons x xs ih =>
    simp only [visitItems, bind, Option.bind_eq_some_iff, pure, Option.some.injEq, Prod.mk.injEq,
      Prod.exists] at h
    obtain ⟨s₁, y, hx, s₂, zs, hxs, rfl, rfl⟩ := h
    obtain ⟨log, hR, rfl⟩ := hvisit _ _ _ _ hx
    obtain ⟨parts, hbefore, hafter, hparts, rfl⟩ := ih hxs
    refine ⟨⟨x, log, y⟩ :: parts, ?_, ?_, List.forall_mem_cons.2 ⟨hR, hparts⟩, ?_⟩
    · rw [List.map_cons, hbefore]
    · rw [List.map_cons, hafter]
    · rw [List.flatMap_cons, List.foldl_append]

/-- A visit with a bound that comes to an end is a visit, and its state took note of the bloks that
were edited. -/
theorem visited_of_visitBloks
    (h : visitBloks component (fun s ms => (note s ms, edit ms)) room s x = some (s', y)) :
    ∃ log, Visited component edit x log y ∧ s' = log.foldl note s := by
  induction room generalizing s s' x y with
  | zero =>
    cases x with
    | arr | obj => cases h
    | null | bool | num | str =>
      cases h
      exact ⟨[], .within _ [] rfl nofun, rfl⟩
  | succ room ih =>
    rw [visitBloks_succ] at h
    obtain ⟨⟨s₁, ys⟩, hitems, heq⟩ := Option.map_eq_some_iff.1 h
    obtain ⟨rfl, rfl⟩ := Prod.mk.inj heq
    have hvisit : ∀ s s' x y,
        visitBloks component (fun s ms => (note s ms, edit ms)) room s x = some (s', y) →
        ∃ log, Visited component edit x log y ∧ s' = log.foldl note s := fun _ _ _ _ h => ih h
    obtain ⟨parts, hbefore, rfl, hparts, rfl⟩ := exists_parts_of_visitItems hvisit hitems
    exact ⟨_, .within x parts hbefore hparts, List.foldl_append.symm⟩

theorem visitItems_succeeds {visit : σ → Json → Option (σ × Json)} {xs : List Json}
    (hvisit : ∀ x ∈ xs, ∀ s, ∃ r, visit s x = some r) (s : σ) :
    ∃ r, visitItems visit s xs = some r := by
  induction xs generalizing s with
  | nil => exact ⟨_, rfl⟩
  | cons x xs ih =>
    obtain ⟨hx, hxs⟩ := List.forall_mem_cons.1 hvisit
    obtain ⟨p, hp⟩ := hx s
    obtain ⟨q, hq⟩ := ih hxs p.1
    exact ⟨(q.1, p.2 :: q.2), by simp [visitItems, hp, hq]⟩

/-- A visit has room enough when the visits of what stands in the value after its turn have. -/
theorem visitBloks_succeeds_of_children
    (h : ∀ z ∈ (x.turned component edit).children, ∀ s : σ,
      ∃ r, visitBloks component (fun s ms => (note s ms, edit ms)) room s z = some r) (s : σ) :
    ∃ r, visitBloks component (fun s ms => (note s ms, edit ms)) (room + 1) s x = some r := by
  obtain ⟨r, hr⟩ := visitItems_succeeds h ((x.ownBlok component).foldl note s)
  exact ⟨_, by rw [visitBloks_succ, hr, Option.map_some]⟩

/-! ### Visits that change nothing -/

/-- A value whose own blok is left as it is. -/
theorem turned_of_kept (h : ∀ blok ∈ x.ownBlok component, edit blok = blok) :
    x.turned component edit = x := by
  cases hblok : x.isBlok component with
  | false => exact turned_of_not_isBlok hblok
  | true =>
    obtain ⟨ms, rfl, hms⟩ := isBlok_eq_true_iff.1 hblok
    rw [ownBlok_of_isBlok hms, List.forall_mem_singleton] at h
    rw [turned, if_pos hms, h]

theorem visitItems_of_kept {visit : σ → Json → Option (σ × Json)} {xs : List Json}
    (h : ∀ x ∈ xs, ∀ s, visit s x = some ((x.bloks component).foldl note s, x)) (s : σ) :
    visitItems visit s xs = some ((xs.flatMap (bloks component)).foldl note s, xs) := by
  induction xs generalizing s with
  | nil => rfl
  | cons x xs ih =>
    obtain ⟨hx, hxs⟩ := List.forall_mem_cons.1 h
    simp only [visitItems, hx, ih hxs, List.flatMap_cons, List.foldl_append]
    rfl

/-- Where every blok is left as it is, a visit leaves the value as it is. It goes as deep as the
value does, and takes note of every blok. -/
theorem visitBloks_of_kept (note : σ → Dict Json → σ)
    (hkept : ∀ blok ∈ x.bloks component, edit blok = blok) (hroom : x.depth ≤ room) (s : σ) :
    visitBloks component (fun s ms => (note s ms, edit ms)) room s x =
      some ((x.bloks component).foldl note s, x) := by
  induction room generalizing x s with
  | zero =>
    cases x with
    | null | bool | num | str => rfl
    | arr | obj => cases hroom
  | succ room ih =>
    rw [bloks_eq] at hkept ⊢
    obtain ⟨hown, hinside⟩ := List.forall_mem_append.1 hkept
    have hchildren : ∀ z ∈ x.children, ∀ s,
        visitBloks component (fun s ms => (note s ms, edit ms)) room s z =
          some ((z.bloks component).foldl note s, z) := by
      intro z hz s
      have hdepth := depth_lt_of_mem_children hz
      exact ih (fun blok hblok => hinside blok (List.mem_flatMap_of_mem hz hblok)) (by omega) s
    rw [visitBloks_succ, turned_of_kept hown, visitItems_of_kept hchildren, Option.map_some,
      List.foldl_append]
    dsimp only
    rw [withChildren_children]

end Bounded

/-! ## What a visit does -/

namespace Visited

theorem parts_unique {D : Json → List (Dict Json) → Json → Prop} {ps qs : List VisitPart}
    (hps : ∀ p ∈ ps, ∀ {l z}, D p.before l z → p.log = l ∧ p.after = z)
    (hqs : ∀ q ∈ qs, D q.before q.log q.after)
    (heq : ps.map VisitPart.before = qs.map VisitPart.before) : ps = qs := by
  induction ps generalizing qs with
  | nil =>
    cases qs with
    | nil => rfl
    | cons q qs => cases heq
  | cons p ps ih =>
    cases qs with
    | nil => cases heq
    | cons q qs =>
      obtain ⟨before, log, after⟩ := p
      obtain ⟨before', log', after'⟩ := q
      obtain ⟨hp, hmore⟩ := List.forall_mem_cons.1 hps
      obtain ⟨hq, hmore'⟩ := List.forall_mem_cons.1 hqs
      obtain ⟨rfl, hrest⟩ := List.cons.inj heq
      obtain ⟨rfl, rfl⟩ := hp hq
      rw [ih hmore hmore' hrest]

/-- There is one visit of a value. -/
theorem unique (h : Visited component edit x log y) {l : List (Dict Json)} {z : Json}
    (h' : Visited component edit x l z) : log = l ∧ y = z := by
  induction h generalizing l z with
  | within x parts hparts _ ih =>
    cases h' with
    | within _ parts' hparts' hvisited' =>
      obtain rfl := parts_unique (fun p hp _ _ hD => ih p hp hD) hvisited'
        (hparts.trans hparts'.symm)
      exact ⟨rfl, rfl⟩

theorem length_after {parts : List VisitPart}
    (hparts : parts.map VisitPart.before = (x.turned component edit).children) :
    (parts.map VisitPart.after).length = (x.turned component edit).children.length := by
  rw [← hparts, List.length_map, List.length_map]

/-! ### Nothing else is changed -/

/-- Outside the outermost bloks a visit changes nothing. -/
theorem blank (h : Visited component edit x log y) :
    y.blank (fun place => x.outermostBlokAt component place) =
      x.blank fun place => x.outermostBlokAt component place := by
  induction h with
  | within x parts hparts _ ih =>
    cases hblok : x.isBlok component with
    | true => rw [blank_of_hidden hblok, blank_of_hidden hblok]
    | false =>
      have hlength := length_after hparts
      rw [turned_of_not_isBlok hblok] at hparts hlength ⊢
      refine blank_withChildren hlength ?_
      -- below a value that is no blok, the hidden places are those of the values inside it
      have hinside (i : Nat) (p : VisitPart) (hp : parts[i]? = some p) (place : Place) :
          x.outermostBlokAt component (i :: place) = p.before.outermostBlokAt component place := by
        rw [outermostBlokAt, hblok, ← hparts, List.getElem?_map, hp]
        rfl
      rw [blankEach, blankEach, ← hparts]
      refine List.ext_getElem? fun i => ?_
      rw [List.getElem?_mapIdx, List.getElem?_mapIdx, List.getElem?_map, List.getElem?_map]
      cases hp : parts[i]? with
      | none => rfl
      | some p =>
        have hsame := ih p (List.mem_of_getElem? hp)
        simp only [Option.map_some, hinside i p hp, hsame]

/-! ### Edits are made once, in order -/

/-- The places in parts that stand side by side, of which the first has that position. -/
theorem exists_places {parts : List VisitPart} (position : Nat) (at? : Place → Option Json)
    (hparts : ∀ p ∈ parts, EditedInOrder component edit p.before p.log)
    (hat : ∀ i p, parts[i]? = some p → ∀ place,
      at? ((position + i) :: place) = p.before.met component edit place) :
    ∃ places : List Place, places.Pairwise (· < ·) ∧
      (∀ place, place ∈ places ↔ ∃ i p inner y, parts[i]? = some p ∧
        place = (position + i) :: inner ∧ p.before.met component edit inner = some y ∧
        y.isBlok component = true) ∧
      places.map at? = (parts.flatMap VisitPart.log).map fun blok => some (.obj blok) := by
  induction parts generalizing position with
  | nil => exact ⟨[], .nil, by simp, rfl⟩
  | cons p parts ih =>
    obtain ⟨⟨first, hfirst, hmemFirst, hlogFirst⟩, hparts⟩ := List.forall_mem_cons.1 hparts
    have hhead : ∀ place, at? (position :: place) = p.before.met component edit place :=
      hat 0 p rfl
    obtain ⟨rest, hrest, hmemRest, hlogRest⟩ := ih (position + 1) hparts fun i q hq place => by
      rw [Nat.add_assoc, Nat.add_comm 1]
      exact hat (i + 1) q hq place
    refine ⟨first.map (position :: ·) ++ rest, ?_, fun place => ?_, ?_⟩
    · refine List.pairwise_append.2 ⟨?_, hrest, fun a ha b hb => ?_⟩
      · refine List.pairwise_map.2 (hfirst.imp fun h => ?_)
        exact List.cons_lt_cons_iff.2 (.inr ⟨rfl, h⟩)
      · obtain ⟨inner, -, rfl⟩ := List.mem_map.1 ha
        obtain ⟨i, q, inner', z, -, rfl, -⟩ := (hmemRest b).1 hb
        exact List.cons_lt_cons_iff.2 (.inl (by omega))
    · rw [List.mem_append, List.mem_map, hmemRest]
      constructor
      · rintro (⟨inner, hinner, rfl⟩ | ⟨i, q, inner, z, hq, rfl, hz⟩)
        · obtain ⟨z, hz⟩ := (hmemFirst inner).1 hinner
          exact ⟨0, p, inner, z, rfl, rfl, hz⟩
        · exact ⟨i + 1, q, inner, z, hq, by rw [Nat.add_assoc, Nat.add_comm 1], hz⟩
      · rintro ⟨i, q, inner, z, hq, rfl, hz⟩
        cases i with
        | zero =>
          cases hq
          exact .inl ⟨inner, (hmemFirst inner).2 ⟨z, hz⟩, rfl⟩
        | succ i => exact .inr ⟨i, q, inner, z, hq, by rw [Nat.add_assoc, Nat.add_comm 1], hz⟩
    · rw [List.map_append, List.map_map, List.flatMap_cons, List.map_append, hlogRest, ← hlogFirst]
      exact congrArg (· ++ _) (List.map_congr_left fun place _ => hhead place)

/-- A visit edits each blok that it meets once, in the order of the document. -/
theorem inOrder (h : Visited component edit x log y) : EditedInOrder component edit x log := by
  induction h with
  | within x parts hparts _ ih =>
    have hmet (i : Nat) (place : Place) : x.met component edit (i :: place) =
        parts[i]?.bind fun p => p.before.met component edit place := by
      rw [met, ← hparts, List.getElem?_map]
      cases parts[i]? <;> rfl
    obtain ⟨inside, hinside, hmem, hlog⟩ :=
      exists_places 0 (fun place => x.met component edit place) ih fun i p hp place => by
        rw [Nat.zero_add, hmet, hp, Option.bind_some]
    have hcons (place : Place) : place ∈ inside ↔ ∃ i inner y, place = i :: inner ∧
        x.met component edit (i :: inner) = some y ∧ y.isBlok component = true := by
      rw [hmem]
      constructor
      · rintro ⟨i, p, inner, z, hp, rfl, hz⟩
        rw [Nat.zero_add]
        exact ⟨i, inner, z, rfl, by rw [hmet, hp]; exact hz⟩
      · rintro ⟨i, inner, z, rfl, hz, hblok⟩
        obtain ⟨p, hp, hz⟩ := Option.bind_eq_some_iff.1 ((hmet i inner).symm.trans hz)
        exact ⟨i, p, inner, z, hp, by rw [Nat.zero_add], hz, hblok⟩
    cases hblok : x.isBlok component with
    | false =>
      rw [ownBlok_of_not_isBlok hblok, List.nil_append]
      refine ⟨inside, hinside, fun place => ?_, hlog⟩
      cases place with
      | nil => simp [hcons, met, hblok]
      | cons i inner => simp [hcons]
    | true =>
      obtain ⟨ms, rfl, hms⟩ := isBlok_eq_true_iff.1 hblok
      rw [ownBlok_of_isBlok hms]
      refine ⟨[] :: inside, List.pairwise_cons.2 ⟨fun place hplace => ?_, hinside⟩,
        fun place => ?_, ?_⟩
      · obtain ⟨i, inner, -, rfl, -⟩ := (hcons place).1 hplace
        exact List.nil_lt_cons i inner
      · cases place with
        | nil => simp [met, hblok]
        | cons i inner => simp [hcons]
      · rw [List.map_cons, hlog]
        rfl

/-! ### Edited bloks were there before -/

theorem flatMap_subperm {α β : Type} {f g : α → List β} {xs : List α}
    (h : ∀ x ∈ xs, (f x).Subperm (g x)) : (xs.flatMap f).Subperm (xs.flatMap g) := by
  induction xs with
  | nil => exact .refl _
  | cons x xs ih =>
    obtain ⟨hx, hxs⟩ := List.forall_mem_cons.1 h
    rw [List.flatMap_cons, List.flatMap_cons]
    exact hx.append (ih hxs)

/-- When edits put no new bloks into a blok, every blok that is edited is one of the value, as it
was before, and none is edited twice. -/
theorem subperm
    (hedit : ∀ ms, isBlokOf component ms = true →
      (bloksOfMembers component (edit ms)).Subperm (bloksOfMembers component ms))
    (h : Visited component edit x log y) : log.Subperm (x.bloks component) := by
  induction h with
  | within x parts hparts _ ih =>
    have hturned : ((x.turned component edit).children.flatMap (bloks component)).Subperm
        (x.children.flatMap (bloks component)) := by
      cases hblok : x.isBlok component with
      | false => rw [turned_of_not_isBlok hblok]
      | true =>
        obtain ⟨ms, rfl, hms⟩ := isBlok_eq_true_iff.1 hblok
        simpa only [turned, hms, if_true, children, bloksOfMembers_eq] using hedit ms hms
    have hinside : (parts.flatMap VisitPart.log).Subperm
        ((x.turned component edit).children.flatMap (bloks component)) := by
      rw [← hparts, List.flatMap_map]
      exact flatMap_subperm ih
    rw [bloks_eq]
    exact (List.Subperm.refl _).append (hinside.trans hturned)

end Visited

end Blokwork.Json
