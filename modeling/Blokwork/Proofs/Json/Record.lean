import Blokwork.Json.Record
import Blokwork.Proofs.Json.Reading

/-!
# Records that are read from data

A record hands the values of its members, or the items of an array, to its fields, one after the
other. So what every field keeps of a draft holds of the record (`RecordShape.keeps_read`), and a
written record is read back member by member (`RecordShape.enterMembers_cons`).
-/

namespace Blokwork

/-! ## Lists that are read item by item -/

section MapM

variable {ε α β : Type} {f : α → Except ε β}

/-- What is read of a list is read of its items. -/
theorem exists_of_mapM_eq_ok {xs : List α} {ys : List β} (h : xs.mapM f = .ok ys) :
    ∀ y ∈ ys, ∃ x ∈ xs, f x = .ok y := by
  induction xs generalizing ys with
  | nil =>
    cases h
    exact List.forall_mem_nil _
  | cons x xs ih =>
    rw [List.mapM_cons] at h
    obtain ⟨y, hx, h⟩ := exists_of_bind_eq_ok h
    obtain ⟨ys', hxs, h⟩ := exists_of_bind_eq_ok h
    cases h
    refine List.forall_mem_cons.2 ⟨⟨x, List.mem_cons_self, hx⟩, fun z hz => ?_⟩
    obtain ⟨x', hx', hread⟩ := ih hxs z hz
    exact ⟨x', List.mem_cons_of_mem x hx', hread⟩

/-- What is read of a list is read item by item. -/
theorem forall₂_of_mapM_eq_ok {xs : List α} {ys : List β} (h : xs.mapM f = .ok ys) :
    List.Forall₂ (fun x y => f x = .ok y) xs ys := by
  induction xs generalizing ys with
  | nil =>
    cases h
    exact .nil
  | cons x xs ih =>
    rw [List.mapM_cons] at h
    obtain ⟨y, hx, h⟩ := exists_of_bind_eq_ok h
    obtain ⟨ys', hxs, h⟩ := exists_of_bind_eq_ok h
    cases h
    exact .cons hx (ih hxs)

/-- A list is read back when its items are. -/
theorem mapM_map_eq_ok {g : β → α} {ys : List β} (h : ∀ y ∈ ys, f (g y) = .ok y) :
    (ys.map g).mapM f = .ok ys := by
  induction ys with
  | nil => rfl
  | cons y ys ih =>
    obtain ⟨hy, hys⟩ := List.forall_mem_cons.1 h
    rw [List.map_cons, List.mapM_cons, hy, ih hys]
    rfl

end MapM

variable {α σ : Type}

/-- Entering a value of some kind into the draft keeps a property of drafts. -/
def RecordField.Keeps (P : σ → Prop) (Q : α → Prop) (f : RecordField α σ) : Prop :=
  ∀ ⦃a draft draft'⦄, Q a → f.enter a draft = .ok draft' → P draft → P draft'

/-- A field that puts what it reads in one place of the draft. -/
theorem RecordField.keeps_of_set {β : Type} {P : σ → Prop} {Q : α → Prop} {name : String}
    {required : Bool} {read : α → Shaped β} {set : β → σ → σ}
    (h : ∀ {a b draft}, Q a → read a = .ok b → P draft → P (set b draft)) :
    RecordField.Keeps P Q ⟨name, required, fun a draft => return set (← read a) draft⟩ := by
  intro a draft draft' ha henter hP
  obtain ⟨b, hread, heq⟩ := exists_of_bind_eq_ok henter
  cases heq
  exact h ha hread hP

namespace RecordShape

variable {shape : RecordShape α σ} {P : σ → Prop} {Q : α → Prop} {draft draft' : σ}
  {members : Dict α}

/-! ## What is kept -/

theorem keeps_enterMembers (hfields : ∀ f ∈ shape.fields, f.Keeps P Q)
    (hmembers : ∀ m ∈ members, Q m.2) (hP : P draft)
    (h : shape.enterMembers draft members = .ok draft') : P draft' := by
  induction members generalizing draft with
  | nil =>
    cases h
    exact hP
  | cons m rest ih =>
    obtain ⟨hm, hrest⟩ := List.forall_mem_cons.1 hmembers
    rw [enterMembers, List.foldlM_cons] at h
    obtain ⟨next, henter, h⟩ := exists_of_bind_eq_ok h
    refine ih hrest ?_ h
    cases hfield : shape.field? m.1 with
    | none =>
      simp only [hfield] at henter
      cases henter
      exact hP
    | some f =>
      simp only [hfield] at henter
      exact hfields f (List.mem_of_find?_eq_some hfield) hm henter hP

theorem keeps_readMembers (hfields : ∀ f ∈ shape.fields, f.Keeps P Q)
    (hmembers : ∀ m ∈ members, Q m.2) (hP : P draft)
    (h : shape.readMembers draft members = .ok draft') : P draft' := by
  obtain ⟨next, henter, h⟩ := exists_of_bind_eq_ok h
  split at h
  · cases h
  · cases h
    exact keeps_enterMembers hfields hmembers hP henter

theorem keeps_enterItems {fields : List (RecordField α σ)} (hfields : ∀ f ∈ fields, f.Keeps P Q)
    {items : List α} (hitems : ∀ x ∈ items, Q x) {total position : Nat} (hP : P draft)
    (h : shape.enterItems total position draft fields items = .ok draft') : P draft' := by
  induction fields generalizing items position draft with
  | nil =>
    cases items with
    | nil =>
      cases h
      exact hP
    | cons x items => cases h
  | cons f fields ih =>
    obtain ⟨hf, hfields⟩ := List.forall_mem_cons.1 hfields
    cases items with
    | nil =>
      rw [enterItems] at h
      split at h
      · cases h
      · exact ih hfields (List.forall_mem_nil _) hP h
    | cons x items =>
      obtain ⟨hx, hitems⟩ := List.forall_mem_cons.1 hitems
      obtain ⟨next, henter, h⟩ := exists_of_bind_eq_ok h
      exact ih hfields hitems (hf hx henter hP) h

/-- What every field keeps holds of the record that is read. -/
theorem keeps_read [Datum α] (hfields : ∀ f ∈ shape.fields, f.Keeps P Q) {a : α}
    (hmembers : ∀ m ∈ Datum.members a, Q m.2) (hitems : ∀ x ∈ Datum.items a, Q x) (hP : P draft)
    (h : shape.read draft a = .ok draft') : P draft' := by
  rw [read] at h
  split at h
  · exact keeps_readMembers hfields hmembers hP h
  · refine keeps_enterItems hfields (fun x hx => hitems x ?_) hP h
    split at hx
    · exact hx
    · exact List.mem_of_mem_take hx
  · cases h

/-! ## Member by member -/

/-- A member that can be read is put in the place of its field. -/
theorem enterMembers_cons {β : Type} {key : String} {required : Bool} {read : α → Shaped β}
    {set : β → σ → σ}
    (hfield : shape.field? key =
      some ⟨key, required, fun a draft => return set (← read a) draft⟩)
    {a : α} {b : β} (h : read a = .ok b) (rest : Dict α) :
    shape.enterMembers draft ((key, a) :: rest) = shape.enterMembers (set b draft) rest := by
  rw [enterMembers, List.foldlM_cons]
  simp only [hfield, h]
  rfl

/-- Members of no field are passed over. -/
theorem enterMembers_of_unknown (h : ∀ m ∈ members, shape.field? m.1 = none) :
    shape.enterMembers draft members = .ok draft := by
  induction members with
  | nil => rfl
  | cons m rest ih =>
    obtain ⟨hm, hrest⟩ := List.forall_mem_cons.1 h
    rw [enterMembers, List.foldlM_cons]
    simp only [hm]
    exact ih hrest

/-- A name is that of a field when it is among the names of the fields. -/
theorem isSome_field? {name : String} :
    (shape.field? name).isSome = true ↔ name ∈ shape.fields.map (·.name) := by
  simp [field?, List.find?_isSome]

end RecordShape

end Blokwork
