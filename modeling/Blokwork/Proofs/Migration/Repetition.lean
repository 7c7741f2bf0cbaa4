import Blokwork.Proofs.Json.Objects
import Blokwork.Proofs.Migration.ScriptVisits

/-!
# Operations that run again

An operation that ran on a blok leaves the blok as it is when it runs once more
(`ScriptOp.apply_apply`). In an entry there is more to it: between the two runs the visit goes on
into what the operation left, and edits the bloks there. But what a visit does to the values of a
blok an operation cannot see: it asks of a value only whether it is `null` and whether it is an
array, and otherwise moves it as it is (`ScriptOp.related_apply`). So the operation does to the
visited blok what it does to the blok before the visit of its values, which is nothing
(`Json.Visited.kept`), and a script of one operation changes nothing the second time
(`Script.transform_again`).
-/

namespace Blokwork

/-! ## One blok -/

namespace ScriptOp

variable {op : ScriptOp}

/-- An operation that ran on a blok changes it no more. -/
theorem apply_apply (op : ScriptOp) (fallback : String) {blok : Dict Json}
    (hblok : Dict.Distinct blok) :
    op.apply fallback (op.apply fallback blok) = op.apply fallback blok := by
  generalize hfield : op.field?.getD fallback = field
  cases op with
  | set _ value => exact Dict.insert_insert blok _ value value
  | remove _ =>
    simp only [apply, hfield]
    exact Dict.erase_of_get?_eq_none (Dict.get?_erase_self hblok field)
  | rename _ newName =>
    simp only [apply, hfield]
    cases hget : Dict.get? blok field with
    | none => simp only [hget]
    | some value =>
      have hgone : Dict.get? (Dict.erase blok field) field = none :=
        Dict.get?_erase_self hblok field
      dsimp only
      by_cases hname : newName = field
      · -- the field moved to the end, and it is taken from there and put there again
        subst hname
        rw [Dict.get?_insert_self]
        dsimp only
        rw [Dict.erase_insert hgone]
      · rw [Dict.get?_insert_of_ne value hname, hgone]
  | default _ value =>
    simp only [apply, hfield]
    cases hget : Dict.get? blok field with
    | none => simp only [Dict.get?_insert_self, Dict.insert_insert, ite_self]
    | some old =>
      dsimp only
      by_cases hnull : old.isNull = true
      · simp only [hnull, if_true, Dict.get?_insert_self, Dict.insert_insert, ite_self]
      · rw [if_neg hnull, hget]
        dsimp only
        rw [if_neg hnull]
  | wrapInArray _ =>
    simp only [apply, hfield]
    cases hget : Dict.get? blok field with
    | none => simp only [hget]
    | some old =>
      dsimp only
      by_cases hplain : (old.isArray || old.isNull) = true
      · simp only [hplain, if_true, hget]
      · rw [if_neg hplain, Dict.get?_insert_self]
        rfl

/-- An operation asks of the values in a blok only whether they are `null` or arrays. In bloks with
the same keys and values that are alike as far as this goes, it does the same. -/
theorem related_apply {R : Json → Json → Prop}
    (hkind : ∀ {x y}, R x y → x.isNull = y.isNull ∧ x.isArray = y.isArray)
    (hwrap : ∀ {x y}, R x y → R (.arr [x]) (.arr [y]))
    (hvalue : ∀ value, op.value? = some value → R value value) (fallback : String)
    {blok blok' : Dict Json} (h : Dict.Related R blok blok') :
    Dict.Related R (op.apply fallback blok) (op.apply fallback blok') := by
  generalize hfield : op.field?.getD fallback = field
  have hget := h.get? field
  cases op with
  | set _ value => exact h.insert _ (hvalue value rfl)
  | remove _ => exact h.erase _
  | rename _ newName =>
    simp only [apply, hfield]
    cases hold : Dict.get? blok field <;> cases hold' : Dict.get? blok' field <;>
      rw [hold, hold'] at hget
    case none.none => exact h
    case some.some =>
      cases hget with
      | some hR => exact (h.erase field).insert newName hR
    all_goals cases hget
  | default _ value =>
    simp only [apply, hfield]
    cases hold : Dict.get? blok field <;> cases hold' : Dict.get? blok' field <;>
      rw [hold, hold'] at hget
    case none.none => exact h.insert field (hvalue value rfl)
    case some.some old old' =>
      cases hget with
      | some hR =>
        dsimp only
        rw [(hkind hR).1]
        split
        · exact h.insert field (hvalue value rfl)
        · exact h
    all_goals cases hget
  | wrapInArray _ =>
    simp only [apply, hfield]
    cases hold : Dict.get? blok field <;> cases hold' : Dict.get? blok' field <;>
      rw [hold, hold'] at hget
    case none.none => exact h
    case some.some old old' =>
      cases hget with
      | some hR =>
        dsimp only
        rw [(hkind hR).1, (hkind hR).2]
        split
        · exact h
        · exact h.insert field (hwrap hR)
    all_goals cases hget

end ScriptOp

/-! ## What a visit leaves -/

namespace Json

variable {component : String} {edit : Dict Json → Dict Json} {x y : Json} {log : List (Dict Json)}

/-- A visit of the value leaves the other. -/
def VisitedTo (component : String) (edit : Dict Json → Dict Json) (x y : Json) : Prop :=
  ∃ log, Visited component edit x log y

namespace VisitedTo

/-- A visit leaves one value. -/
theorem unique (h : VisitedTo component edit x y) {z : Json} (h' : VisitedTo component edit x z) :
    y = z := by
  obtain ⟨_, hy⟩ := h
  obtain ⟨_, hz⟩ := h'
  exact (hy.unique hz).2

/-- A value whose bloks are left as they are is left as it is. -/
theorem of_kept (hkept : ∀ blok ∈ x.bloks component, edit blok = blok) :
    VisitedTo component edit x x := by
  have hvisit := visitBloks_of_kept (fun s _ => s) hkept (Nat.le_refl _) ()
  obtain ⟨log, h, -⟩ := visited_of_visitBloks hvisit
  exact ⟨log, h⟩

/-- A value in an array is visited as it is outside. -/
theorem wrapped (h : VisitedTo component edit x y) :
    VisitedTo component edit (.arr [x]) (.arr [y]) := by
  obtain ⟨log, h⟩ := h
  refine ⟨_, .within (.arr [x]) [⟨x, log, y⟩] rfl fun p hp => ?_⟩
  rw [List.mem_singleton.1 hp]
  exact h

/-- Objects stay objects, arrays stay arrays, and other values are left as they are. -/
theorem kind (h : VisitedTo component edit x y) :
    (∃ ms ns, x = .obj ms ∧ y = .obj ns) ∨ (∃ xs ys, x = .arr xs ∧ y = .arr ys) ∨ x = y := by
  obtain ⟨_, h⟩ := h
  cases h with
  | within _ parts _ _ =>
    cases x with
    | obj ms => exact .inl ⟨ms, _, rfl, rfl⟩
    | arr xs => exact .inr (.inl ⟨xs, _, rfl, rfl⟩)
    | null | bool | num | str => exact .inr (.inr rfl)

/-- A visit makes no value `null`, and no value an array. -/
theorem isNull_and_isArray (h : VisitedTo component edit x y) :
    x.isNull = y.isNull ∧ x.isArray = y.isArray := by
  rcases h.kind with ⟨ms, ns, rfl, rfl⟩ | ⟨xs, ys, rfl, rfl⟩ | rfl <;> exact ⟨rfl, rfl⟩

/-- A text was there before. -/
theorem eq_of_str {s : String} (h : VisitedTo component edit x (.str s)) : x = .str s := by
  rcases h.kind with ⟨_, _, -, ⟨⟩⟩ | ⟨_, _, -, ⟨⟩⟩ | h
  exact h

end VisitedTo

namespace Visited

theorem related_zipWith {ms : List (String × Json)} {parts : List VisitPart}
    (hbefore : parts.map VisitPart.before = ms.map Prod.snd)
    (hparts : ∀ p ∈ parts, VisitedTo component edit p.before p.after) :
    Dict.Related (VisitedTo component edit) ms
      (List.zipWith (fun m y => (m.1, y)) ms (parts.map VisitPart.after)) := by
  induction parts generalizing ms with
  | nil =>
    cases ms with
    | nil => exact .nil
    | cons m ms => cases hbefore
  | cons p parts ih =>
    cases ms with
    | nil => cases hbefore
    | cons m ms =>
      obtain ⟨hp, hrest⟩ := List.forall_mem_cons.1 hparts
      obtain ⟨hvalue, hvalues⟩ := List.cons.inj hbefore
      rw [hvalue] at hp
      exact .cons ⟨rfl, hp⟩ (ih hvalues hrest)

/-- What a visit goes into where an edit makes no new bloks was in the value before. -/
theorem mem_bloks_of_mem_turned
    (hinside : ∀ ms, (bloksOfMembers component (edit ms)).Subperm (bloksOfMembers component ms))
    {blok : Dict Json} {z : Json} (hz : z ∈ (x.turned component edit).children)
    (hblok : blok ∈ z.bloks component) : blok ∈ x.bloks component := by
  rw [bloks_eq, List.mem_append]
  right
  cases hown : x.isBlok component with
  | false =>
    rw [turned_of_not_isBlok hown] at hz
    exact List.mem_flatMap_of_mem hz hblok
  | true =>
    obtain ⟨ms, rfl, hms⟩ := isBlok_eq_true_iff.1 hown
    rw [turned, if_pos hms] at hz
    have hedited : blok ∈ bloksOfMembers component (edit ms) := by
      rw [bloksOfMembers_eq]
      exact List.mem_flatMap_of_mem hz hblok
    have hbefore := (hinside ms).subset hedited
    rwa [bloksOfMembers_eq] at hbefore

/-- A blok that a visit left was a blok when the visit went into it. -/
theorem isBlokOf_of_related {ms ns : Dict Json}
    (h : Dict.Related (VisitedTo component edit) ms ns) (hns : isBlokOf component ns = true) :
    isBlokOf component ms = true := by
  simp only [isBlokOf, decide_eq_true_eq] at hns ⊢
  have hget := h.get? "component"
  rw [hns] at hget
  cases hold : Dict.get? ms "component" with
  | none =>
    rw [hold] at hget
    cases hget
  | some old =>
    rw [hold] at hget
    cases hget with
    | some hvisited => rw [hvisited.eq_of_str]

section Kept

variable (hagain : ∀ ms, Dict.Distinct ms → edit (edit ms) = edit ms)
  (hrelated : ∀ ms ns, Dict.Related (VisitedTo component edit) ms ns →
    Dict.Related (VisitedTo component edit) (edit ms) (edit ns))
  (hinside : ∀ ms, (bloksOfMembers component (edit ms)).Subperm (bloksOfMembers component ms))

include hagain hrelated in
/-- A blok that a visit left has been edited before the visit went into it, and the edit does as
little now as it did then. -/
theorem edit_of_related {ms ns : Dict Json} (hms : isBlokOf component ms = true → Dict.Distinct ms)
    (h : Dict.Related (VisitedTo component edit)
      (if isBlokOf component ms then edit ms else ms) ns)
    (hns : isBlokOf component ns = true) : edit ns = ns := by
  have hblok : isBlokOf component ms = true := by
    have hturned := isBlokOf_of_related h hns
    split at hturned <;> assumption
  rw [if_pos hblok] at h
  have hedited := hrelated _ _ h
  rw [hagain ms (hms hblok)] at hedited
  exact Dict.Related.unique (fun hv hw => hv.unique hw) hedited h

include hagain hrelated hinside in
/-- An edit changes no blok of what its visit left, if it changes no blok that it has edited, does
the same before and after a visit of the values, and makes no new bloks. -/
theorem kept (h : Visited component edit x log y)
    (hx : ∀ blok ∈ x.bloks component, Dict.Distinct blok) :
    ∀ blok ∈ y.bloks component, edit blok = blok := by
  induction h with
  | within x parts hparts hvisited ih =>
    have hlength := length_after hparts
    rw [bloks_eq, children_withChildren hlength, List.forall_mem_append]
    constructor
    · intro blok hblok
      cases x with
      | null | bool | num | str | arr => cases hblok
      | obj ms =>
        have hleft := related_zipWith hparts fun p hp => ⟨p.log, hvisited p hp⟩
        simp only [turned, withChildren, ownBlok, List.mem_ite_nil_right, List.mem_singleton]
          at hblok
        obtain ⟨hblok, rfl⟩ := hblok
        refine edit_of_related hagain hrelated (fun hms => hx ms ?_) hleft hblok
        rw [bloks, if_pos hms]
        exact List.mem_cons_self
    · intro blok hblok
      obtain ⟨z, hz, hblok⟩ := List.mem_flatMap.1 hblok
      obtain ⟨p, hp, rfl⟩ := List.mem_map.1 hz
      refine ih p hp (fun blok hblok => hx blok ?_) blok hblok
      refine mem_bloks_of_mem_turned hinside ?_ hblok
      rw [← hparts]
      exact List.mem_map_of_mem hp

end Kept

end Visited

/-! ### Bloks are objects -/

section Objects

variable {P : Dict Json → Prop} {blok : Dict Json}

mutual

/-- What holds of every object in a value holds of its bloks. -/
theorem EveryObject.of_mem_bloks : ∀ {x : Json}, x.EveryObject P → blok ∈ x.bloks component →
    P blok
  | .null, _, h | .bool _, _, h | .num _, _, h | .str _, _, h => absurd h List.not_mem_nil
  | .arr _, hx, h => of_mem_bloksOfItems hx h
  | .obj ms, ⟨hms, hinside⟩, h => by
    rw [bloks, List.mem_append, List.mem_ite_nil_right, List.mem_singleton] at h
    rcases h with ⟨-, rfl⟩ | h
    · exact hms
    · exact of_mem_bloksOfMembers hinside h

theorem of_mem_bloksOfItems : ∀ {xs : List Json}, EveryObjectItems P xs →
    blok ∈ bloksOfItems component xs → P blok
  | [], _, h => absurd h List.not_mem_nil
  | _ :: _, ⟨hx, hxs⟩, h =>
    (List.mem_append.1 h).elim hx.of_mem_bloks (of_mem_bloksOfItems hxs)

theorem of_mem_bloksOfMembers : ∀ {ms : List (String × Json)}, EveryObjectMembers P ms →
    blok ∈ bloksOfMembers component ms → P blok
  | [], _, h => absurd h List.not_mem_nil
  | (_, _) :: _, ⟨hx, hms⟩, h =>
    (List.mem_append.1 h).elim hx.of_mem_bloks (of_mem_bloksOfMembers hms)

end

end Objects

end Json

/-! ## A script of one operation -/

namespace Entry

variable {e : Entry} {content y : Json}

theorem bloks_withContent (h : e.content? = some content) (component : String) :
    (e.withContent y).bloks component = y.bloks component := by
  have hafter : (e.withContent y).content? = some y := by
    rw [content?, doc_withContent (members_of_content? h).1]
    exact Dict.get?_insert_self _ _ _
  rw [bloks, hafter]
  rfl

theorem distinct_of_mem_bloks {component : String} (he : e.doc.EveryObject Dict.Distinct)
    {blok : Dict Json} (h : blok ∈ e.bloks component) : Dict.Distinct blok := by
  cases hcontent : e.content? with
  | none =>
    rw [bloks, hcontent] at h
    cases h
  | some content =>
    obtain ⟨hdoc, hget⟩ := members_of_content? hcontent
    rw [bloks, hcontent] at h
    rw [hdoc] at he
    exact (he.get? hget).of_mem_bloks h

end Entry

namespace Script

/-- **A script of one operation that runs again changes nothing**, not even the order of keys,
whatever its operation is, in whatever way the bloks stand in one another, and whether or not the
first run left them bloks. Its value, if it has one, holds no blok of the component. -/
theorem transform_again (target : Target) (op : ScriptOp)
    (hvalue : ∀ value, op.value? = some value → value.hasBlok target.component = false)
    (e : Entry) (he : e.doc.EveryObject Dict.Distinct) :
    ∃ u, Script.transform ⟨target, [op]⟩ e = .ok u ∧
      Script.transform ⟨target, [op]⟩ u = .ok u := by
  have hscript : BringsNoBlok ⟨target, [op]⟩ := by
    intro other hother
    rwa [List.mem_singleton.1 hother]
  cases hcontent : e.content? with
  | none =>
    have hkept : Script.transform ⟨target, [op]⟩ e = .ok e := by
      rw [transform, Entry.visitBloks, hcontent]
    exact ⟨e, hkept, hkept⟩
  | some content =>
    obtain ⟨log, y, hlog, hvisit⟩ := exists_visited hscript (room_suffices hcontent)
    refine ⟨e.withContent y, ?_, transform_of_kept ?_⟩
    · rw [transform, Entry.visitBloks, hcontent]
      dsimp only
      rw [hvisit fun state blok => (state.1, state.2 + 1)]
      rfl
    · rw [Entry.bloks_withContent hcontent]
      refine hlog.kept (fun ms hms => op.apply_apply _ hms) (fun ms ns h => ?_)
        (ScriptOp.bloksOfMembers_apply hvalue _) fun blok hblok => ?_
      · refine ScriptOp.related_apply Json.VisitedTo.isNull_and_isArray Json.VisitedTo.wrapped
          (fun value h => .of_kept fun blok hblok => ?_) _ h
        rw [Json.hasBlok_eq_false_iff.1 (hvalue value h)] at hblok
        cases hblok
      · have hbefore : blok ∈ e.bloks target.component := by
          rw [Entry.bloks, hcontent]
          exact hblok
        exact Entry.distinct_of_mem_bloks he hbefore

end Script

namespace Nested

/-- The body of a page takes the place of its component. -/
def replace : ScriptOp := .rename (some "body") "component"

/-- The outer page is no page after the first run, and the page that stands under its discriminator
then has no body to put there. -/
theorem transform_replaced_again :
    (∀ value, replace.value? = some value → value.hasBlok "page" = false) ∧
    entry.doc.EveryObject Dict.Distinct ∧
    ∃ u, Script.transform ⟨⟨"page", "body"⟩, [replace]⟩ entry = .ok u ∧
      Script.transform ⟨⟨"page", "body"⟩, [replace]⟩ u = .ok u ∧
      u.content? = some (.obj [("component", .str "root"),
        ("body", .arr [.obj [("component", .obj inner)]])]) := by
  have hvalue : ∀ value, replace.value? = some value → value.hasBlok "page" = false := nofun
  have hentry : entry.doc.EveryObject Dict.Distinct := by decide +kernel
  obtain ⟨u, hfirst, hagain⟩ := Script.transform_again ⟨"page", "body"⟩ replace hvalue entry hentry
  refine ⟨hvalue, hentry, u, hfirst, hagain, ?_⟩
  obtain rfl := Except.ok.inj hfirst
  rfl

end Nested

end Blokwork
