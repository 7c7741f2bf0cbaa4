import Blokwork.Json.Basic
import Blokwork.Proofs.Dict

/-!
# The objects of a value

`Json.EveryObject` asks something of every object in a value, at any depth. With distinct keys in
every object, as in all that is read from a text, a value is equal to itself (`Json.same_self`).
-/

namespace Blokwork

namespace Json

/-! ## Conditions on all objects -/

mutual

/-- Every object in the value is of that kind. -/
def EveryObject (P : Dict Json → Prop) : Json → Prop
  | .arr xs => EveryObjectItems P xs
  | .obj ms => P ms ∧ EveryObjectMembers P ms
  | _ => True

/-- `EveryObject` over items. -/
def EveryObjectItems (P : Dict Json → Prop) : List Json → Prop
  | [] => True
  | x :: xs => EveryObject P x ∧ EveryObjectItems P xs

/-- `EveryObject` over the values of members. -/
def EveryObjectMembers (P : Dict Json → Prop) : List (String × Json) → Prop
  | [] => True
  | (_, x) :: ms => EveryObject P x ∧ EveryObjectMembers P ms

end

variable {P : Dict Json → Prop}

/-- `EveryObjectItems` in the natural per-element form. -/
theorem EveryObjectItems_iff (xs : List Json) :
    EveryObjectItems P xs ↔ ∀ x ∈ xs, EveryObject P x := by
  induction xs with
  | nil => simp [EveryObjectItems]
  | cons x xs ih => simp [EveryObjectItems, ih]

/-- `EveryObjectMembers` in the natural per-element form. -/
theorem EveryObjectMembers_iff (ms : List (String × Json)) :
    EveryObjectMembers P ms ↔ ∀ m ∈ ms, EveryObject P m.2 := by
  induction ms with
  | nil => simp [EveryObjectMembers]
  | cons m ms ih => obtain ⟨k, x⟩ := m; simp [EveryObjectMembers, ih]

@[simp] theorem EveryObject_arr (xs : List Json) :
    EveryObject P (.arr xs) ↔ ∀ x ∈ xs, EveryObject P x := by
  rw [EveryObject, EveryObjectItems_iff]

@[simp] theorem EveryObject_obj (ms : List (String × Json)) :
    EveryObject P (.obj ms) ↔ P ms ∧ ∀ m ∈ ms, EveryObject P m.2 := by
  rw [EveryObject, EveryObjectMembers_iff]

theorem EveryObject.get? {ms : Dict Json} (h : EveryObject P (.obj ms)) {key : String} {x : Json}
    (hx : Dict.get? ms key = some x) : EveryObject P x :=
  ((EveryObject_obj ms).1 h).2 _ (Dict.mem_of_get? hx)

/-- The items of an array under a key. -/
theorem EveryObject.items {ms : Dict Json} (h : EveryObject P (.obj ms)) {key : String} {α : Type}
    {members : List (Json × α)}
    (hvalue : Dict.get? ms key = some (.arr (members.map Prod.fst))) :
    ∀ m ∈ members, EveryObject P m.1 :=
  fun _ hm => (EveryObject_arr _).1 (h.get? hvalue) _ (List.mem_map_of_mem hm)

section Decidable

variable [DecidablePred P]

mutual

instance decidableEveryObject : ∀ x : Json, Decidable (x.EveryObject P)
  | .null | .bool _ | .num _ | .str _ => inferInstanceAs (Decidable True)
  | .arr xs => decidableEveryObjectItems xs
  | .obj ms =>
    have := decidableEveryObjectMembers ms
    inferInstanceAs (Decidable (P ms ∧ EveryObjectMembers P ms))

instance decidableEveryObjectItems : ∀ xs : List Json, Decidable (EveryObjectItems P xs)
  | [] => inferInstanceAs (Decidable True)
  | x :: xs =>
    have := decidableEveryObject x
    have := decidableEveryObjectItems xs
    inferInstanceAs (Decidable (EveryObject P x ∧ EveryObjectItems P xs))

instance decidableEveryObjectMembers : ∀ ms : List (String × Json),
    Decidable (EveryObjectMembers P ms)
  | [] => inferInstanceAs (Decidable True)
  | (_, x) :: ms =>
    have := decidableEveryObject x
    have := decidableEveryObjectMembers ms
    inferInstanceAs (Decidable (EveryObject P x ∧ EveryObjectMembers P ms))

end

end Decidable

/-! ## Equality of values -/

mutual

/-- A value is equal to itself where no key is there twice. -/
theorem same_self : ∀ {x : Json}, x.EveryObject Dict.Distinct → x.same x = true
  | .null, _ => rfl
  | .bool _, _ | .str _, _ => decide_eq_true rfl
  | .num (.int _), _ => decide_eq_true rfl
  | .num (.real x), _ => by simp [same, Number.same, Binary64.sameValue]
  | .arr xs, h => sameItems_self (show EveryObjectItems Dict.Distinct xs from h)
  | .obj ms, h => by
    obtain ⟨hdistinct, hms⟩ := h
    have hfound : ∀ m ∈ ms, Dict.get? ms m.1 = some m.2 := fun m hm => hdistinct.get?_of_mem hm
    rw [same, sameMembers_self hfound hms, decide_eq_true rfl, Bool.and_true]

theorem sameItems_self : ∀ {xs : List Json}, EveryObjectItems Dict.Distinct xs →
    sameItems xs xs = true
  | [], _ => rfl
  | x :: xs, ⟨hx, hxs⟩ => by rw [sameItems, same_self hx, sameItems_self hxs, Bool.and_true]

/-- Members are equal to those that are found under their keys. -/
theorem sameMembers_self : ∀ {ms : List (String × Json)} {others : Dict Json},
    (∀ m ∈ ms, Dict.get? others m.1 = some m.2) → EveryObjectMembers Dict.Distinct ms →
    sameMembers ms others = true
  | [], _, _, _ => rfl
  | (k, x) :: ms, others, hfound, ⟨hx, hms⟩ => by
    obtain ⟨hfirst, hrest⟩ := List.forall_mem_cons.1 hfound
    simp only [sameMembers, hfirst, same_self hx, sameMembers_self hrest hms, Bool.and_true]

end

end Json

end Blokwork
