import Blokwork.Migration.Batch
import Blokwork.Proofs.Json.RoundTrip

/-!
# What edits of entries keep

`EntryTransform.KeepsIds` and `EntryTransform.KeepsLegible` are what an edit has to keep for the
entries to be found and read again. Scripts keep both (`Script.keepsIds`, `Script.keepsLegible`):
a visit of bloks keeps a value legible when the edit of each blok does (`Json.visitBloks_legible`).
-/

namespace Blokwork

/-- The edit leaves the identifier of every entry as it is. -/
def EntryTransform.KeepsIds (transform : EntryTransform) : Prop :=
  ∀ e u, transform e = .ok u → u.id? = e.id?

/-- The edit of a document that can be read back can be read back. -/
def EntryTransform.KeepsLegible (transform : EntryTransform) : Prop :=
  ∀ e u, e.doc.Legible → transform e = .ok u → u.doc.Legible

namespace Json

/-! ## Edits of an object -/

theorem Legible.insert {members : Dict Json} (h : Legible (.obj members)) (key : String)
    {value : Json} (hvalue : value.Legible) : Legible (.obj (Dict.insert members key value)) := by
  rw [Legible_obj] at h ⊢
  refine ⟨h.1.insert key value, fun m hm => ?_⟩
  rcases Dict.mem_of_mem_insert hm with rfl | hm
  · exact hvalue
  · exact h.2 m hm

theorem Legible.erase {members : Dict Json} (h : Legible (.obj members)) (key : String) :
    Legible (.obj (Dict.erase members key)) := by
  rw [Legible_obj] at h ⊢
  exact ⟨h.1.erase key, fun m hm => h.2 m ((Dict.erase_sublist members key).subset hm)⟩

theorem Legible.get? {members : Dict Json} (h : Legible (.obj members)) {key : String}
    {value : Json} (hget : Dict.get? members key = some value) : value.Legible :=
  ((Legible_obj members).1 h).2 (key, value) (Dict.mem_of_get? hget)

/-! ## Visits of bloks -/

section Visits

variable {σ : Type} {visit : σ → Json → Option (σ × Json)}

/-- What a visit keeps of each item, it keeps of all. -/
theorem visitItems_keeps {P : Json → Prop}
    (hvisit : ∀ s x s' x', P x → visit s x = some (s', x') → P x') {s s' : σ}
    {xs xs' : List Json} (hxs : ∀ x ∈ xs, P x) (h : visitItems visit s xs = some (s', xs')) :
    ∀ x ∈ xs', P x := by
  induction xs generalizing s xs' with
  | nil => cases h; exact hxs
  | cons x rest ih =>
    simp only [visitItems, bind, Option.bind_eq_some_iff, pure, Option.some.injEq, Prod.mk.injEq,
      Prod.exists] at h
    obtain ⟨s₁, x₁, hx, s₂, rest₁, hrest, rfl, rfl⟩ := h
    intro y hy
    rcases List.mem_cons.1 hy with rfl | hy
    · exact hvisit _ _ _ _ (hxs x List.mem_cons_self) hx
    · exact ih (fun z hz => hxs z (List.mem_cons_of_mem x hz)) hrest y hy

/-- What a visit keeps of each value, it keeps of all members; and it keeps the keys. -/
theorem visitMembers_keeps {P : Json → Prop}
    (hvisit : ∀ s x s' x', P x → visit s x = some (s', x') → P x') {s s' : σ}
    {ms ms' : List (String × Json)} (hms : ∀ m ∈ ms, P m.2)
    (h : visitMembers visit s ms = some (s', ms')) :
    Dict.keys ms' = Dict.keys ms ∧ ∀ m ∈ ms', P m.2 := by
  induction ms generalizing s ms' with
  | nil => cases h; exact ⟨rfl, hms⟩
  | cons m rest ih =>
    obtain ⟨k, x⟩ := m
    simp only [visitMembers, bind, Option.bind_eq_some_iff, pure, Option.some.injEq, Prod.mk.injEq,
      Prod.exists] at h
    obtain ⟨s₁, x₁, hx, s₂, rest₁, hrest, rfl, rfl⟩ := h
    obtain ⟨hkeys, hvalues⟩ := ih (fun n hn => hms n (List.mem_cons_of_mem _ hn)) hrest
    refine ⟨by rw [Dict.keys_cons, hkeys, Dict.keys_cons], fun n hn => ?_⟩
    rcases List.mem_cons.1 hn with rfl | hn
    · exact hvisit _ _ _ _ (hms (k, x) List.mem_cons_self) hx
    · exact hvalues n hn

/-- Edits that keep each blok legible keep the value legible. -/
theorem visitBloks_legible {component : String} {edit : σ → Dict Json → σ × Dict Json}
    (hedit : ∀ s members, Legible (.obj members) → Legible (.obj (edit s members).2)) {room : Nat}
    {s s' : σ} {j j' : Json} (hj : j.Legible)
    (h : visitBloks component edit room s j = some (s', j')) : j'.Legible := by
  induction room generalizing s s' j j' with
  | zero => cases j <;> cases h <;> exact hj
  | succ room ih =>
    have hvisit : ∀ s x s' x', Legible x → visitBloks component edit room s x = some (s', x') →
        Legible x' := fun _ _ _ _ hx hvisited => ih hx hvisited
    cases j with
    | null | bool | num | str => cases h; exact hj
    | arr items =>
      simp only [visitBloks, Option.map_eq_some_iff, Prod.exists, Prod.mk.injEq] at h
      obtain ⟨_, xs, hxs, -, rfl⟩ := h
      exact (Legible_arr xs).2 (visitItems_keeps hvisit ((Legible_arr items).1 hj) hxs)
    | obj members =>
      have hmembers : ∀ p : σ × Dict Json,
          p = (if isBlokOf component members then edit s members else (s, members)) →
          Legible (.obj p.2) := by
        rintro p rfl
        split
        · exact hedit s members hj
        · exact hj
      simp only [visitBloks, Option.map_eq_some_iff, Prod.exists, Prod.mk.injEq] at h
      obtain ⟨_, ms, hms, -, rfl⟩ := h
      have hedited := (Legible_obj _).1 (hmembers _ rfl)
      obtain ⟨hkeys, hvalues⟩ := visitMembers_keeps hvisit hedited.2 hms
      exact (Legible_obj ms).2 ⟨by rw [Dict.Distinct, hkeys]; exact hedited.1, hvalues⟩

end Visits

end Json

/-! ## Scripts -/

/-- The values that the operation writes can be read back. -/
def ScriptOp.Legible (op : ScriptOp) : Prop := ∀ value, op.value? = some value → value.Legible

/-- The values that the script writes can be read back. -/
def Script.Legible (script : Script) : Prop := ∀ op ∈ script.ops, op.Legible

/-- An operation keeps a blok legible. -/
theorem ScriptOp.apply_legible {op : ScriptOp} (hop : op.Legible) (fallback : String)
    {blok : Dict Json} (h : Json.Legible (.obj blok)) :
    Json.Legible (.obj (op.apply fallback blok)) := by
  cases op with
  | set field value => exact h.insert _ (hop value rfl)
  | remove field => exact h.erase _
  | rename field newName =>
    simp only [ScriptOp.apply]
    split
    · exact h
    · next hget => exact (h.erase _).insert _ (h.get? hget)
  | default field value =>
    simp only [ScriptOp.apply]
    split
    · exact h.insert _ (hop value rfl)
    · split
      · exact h.insert _ (hop value rfl)
      · exact h
  | wrapInArray field =>
    simp only [ScriptOp.apply]
    split
    · exact h
    · next old hget =>
      split
      · exact h
      · refine h.insert _ ((Json.Legible_arr [old]).2 fun x hx => ?_)
        rw [List.mem_singleton.1 hx]
        exact h.get? hget

namespace Script

variable {script : Script}

theorem applyToBlok_legible (hscript : script.Legible) {blok : Dict Json}
    (h : Json.Legible (.obj blok)) : Json.Legible (.obj (script.applyToBlok blok)) := by
  have hfold : ∀ (ops : List ScriptOp) (blok : Dict Json), (∀ op ∈ ops, op.Legible) →
      Json.Legible (.obj blok) →
      Json.Legible (.obj (ops.foldl (fun blok op => op.apply script.target.field blok) blok)) := by
    intro ops
    induction ops with
    | nil => exact fun _ _ h => h
    | cons op rest ih =>
      intro blok hops h
      exact ih _ (fun o ho => hops o (List.mem_cons_of_mem op ho))
        (ScriptOp.apply_legible (hops op List.mem_cons_self) _ h)
  exact hfold script.ops blok hscript h

end Script

namespace Entry

theorem doc_withContent {content : Json} {e : Entry} {members : Dict Json}
    (h : e.doc = .obj members) :
    (e.withContent content).doc = .obj (Dict.insert members "content" content) := by
  simp only [withContent, h]

/-- Another content leaves the identifier as it is. -/
theorem id?_withContent (content : Json) (e : Entry) : (e.withContent content).id? = e.id? := by
  cases h : e.doc with
  | obj members =>
    have hget : Dict.get? (Dict.insert members "content" content) "id" = Dict.get? members "id" :=
      Dict.get?_insert_of_ne content (by decide)
    simp only [id?, doc_withContent h, h, Json.member?, Json.members?, Option.bind_some, hget]
  | null | bool | num | str | arr => simp only [withContent, h]

/-- Another content that can be read back leaves the document so. -/
theorem withContent_legible {content : Json} (hcontent : content.Legible) {e : Entry}
    (he : e.doc.Legible) : (e.withContent content).doc.Legible := by
  cases h : e.doc with
  | obj members =>
    rw [doc_withContent h]
    exact (h ▸ he).insert "content" hcontent
  | null | bool | num | str | arr => simpa only [withContent, h] using he

/-- The content of a document that can be read back can be read back. -/
theorem content?_legible {e : Entry} (he : e.doc.Legible) {content : Json}
    (h : e.content? = some content) : content.Legible := by
  cases hdoc : e.doc with
  | obj members =>
    have hget : Dict.get? members "content" = some content := by
      simpa only [content?, hdoc, Json.member?, Json.members?, Option.bind_some] using h
    exact (hdoc ▸ he).get? hget
  | null | bool | num | str | arr =>
    simp [content?, hdoc, Json.member?, Json.members?] at h

end Entry

namespace Script

/-- The result of a script is the entry, or the entry with another content. -/
theorem transform_ok {script : Script} {e u : Entry} (h : script.transform e = .ok u) :
    u = e ∨ ∃ content visited s, e.content? = some content ∧
      content.visitBloks script.target.component
        (fun (state : Unit × Nat) blok => (((), state.2 + 1), script.applyToBlok blok))
        (e.room script.growth) ((), 0) = some (s, visited) ∧ u = e.withContent visited := by
  unfold transform Entry.visitBloks at h
  cases hcontent : e.content? with
  | none =>
    simp only [hcontent] at h
    cases h
    exact .inl rfl
  | some content =>
    simp only [hcontent] at h
    cases hvisit : content.visitBloks script.target.component
        (fun (state : Unit × Nat) blok => (((), state.2 + 1), script.applyToBlok blok))
        (e.room script.growth) ((), 0) with
    | none =>
      simp only [hvisit] at h
      cases h
    | some p =>
      simp only [hvisit] at h
      cases h
      exact .inr ⟨content, p.2, p.1, rfl, hvisit, rfl⟩

/-- Scripts edit the content only. -/
theorem keepsIds (script : Script) : EntryTransform.KeepsIds script.transform := by
  intro e u h
  rcases transform_ok h with rfl | ⟨content, visited, s, -, -, rfl⟩
  · rfl
  · exact Entry.id?_withContent visited e

/-- Scripts whose values can be read back write what can be read back. -/
theorem keepsLegible {script : Script} (hscript : script.Legible) :
    EntryTransform.KeepsLegible script.transform := by
  intro e u he h
  rcases transform_ok h with rfl | ⟨content, visited, s, hcontent, hvisit, rfl⟩
  · exact he
  · refine Entry.withContent_legible ?_ he
    exact Json.visitBloks_legible (fun _ _ hblok => applyToBlok_legible hscript hblok)
      (Entry.content?_legible he hcontent) hvisit

end Script

end Blokwork
