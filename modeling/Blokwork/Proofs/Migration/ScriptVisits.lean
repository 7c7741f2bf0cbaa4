import Blokwork.Proofs.Content.Visits
import Blokwork.Proofs.Migration.Transforms
import Mathlib.Data.List.Flatten

/-!
# What a script does to an entry

A script edits a blok and then goes into what its operations left there. Operations move the values
of a blok, drop them, put arrays around them and bring in the values of the script; they make no
blok of their component unless the script brings one in (`Script.bloksOfMembers_applyToBlok`). So
what is visited below a blok is what was there before, at most one array deeper, or a value of the
script, and the visit comes to an end within the room that `Script.transform` has
(`Script.visitBloks_succeeds`).

`Script.transform_within_bloks` says what comes out: the document is the same outside the outermost
bloks, and each blok that the visit meets is edited once, in the order of the document. A script
that leaves every blok as it is leaves the entry as it is (`Script.transform_of_kept`).
-/

namespace Blokwork

namespace Json

variable {component : String} {blok : Dict Json} {key : String} {value : Json}

/-! ## Bloks in a dictionary -/

theorem bloksOfMembers_perm {ms ns : List (String × Json)} (h : ms.Perm ns) :
    (bloksOfMembers component ms).Perm (bloksOfMembers component ns) := by
  rw [bloksOfMembers_eq, bloksOfMembers_eq]
  exact (h.map Prod.snd).flatMap_right _

theorem bloksOfMembers_subperm {ms ns : List (String × Json)} (h : ms.Sublist ns) :
    (bloksOfMembers component ms).Subperm (bloksOfMembers component ns) := by
  rw [bloksOfMembers_eq, bloksOfMembers_eq]
  exact ((h.map Prod.snd).flatMap _).subperm

/-- What is inserted brings its own bloks in. -/
theorem bloksOfMembers_insert (blok : Dict Json) (key : String) (value : Json) :
    (bloksOfMembers component (Dict.insert blok key value)).Perm
      (value.bloks component ++ bloksOfMembers component (Dict.erase blok key)) :=
  bloksOfMembers_perm (Dict.insert_perm blok key value)

/-- What is found holds its own bloks. -/
theorem bloksOfMembers_of_get? (h : Dict.get? blok key = some value) :
    (bloksOfMembers component blok).Perm
      (value.bloks component ++ bloksOfMembers component (Dict.erase blok key)) :=
  bloksOfMembers_perm (Dict.perm_of_get? h)

end Json

/-! ## Operations -/

namespace ScriptOp

variable {op : ScriptOp} {component : String}

/-- An operation whose value holds no blok of the component puts none into a blok. -/
theorem bloksOfMembers_apply
    (hvalue : ∀ value, op.value? = some value → value.hasBlok component = false)
    (fallback : String) (blok : Dict Json) :
    (Json.bloksOfMembers component (op.apply fallback blok)).Subperm
      (Json.bloksOfMembers component blok) := by
  have herase (blok : Dict Json) (key : String) :
      (Json.bloksOfMembers component (Dict.erase blok key)).Subperm
        (Json.bloksOfMembers component blok) :=
    Json.bloksOfMembers_subperm (Dict.erase_sublist blok key)
  have hconstant (key : String) (value : Json) (h : op.value? = some value) :
      (Json.bloksOfMembers component (Dict.insert blok key value)).Subperm
        (Json.bloksOfMembers component blok) := by
    refine (Json.bloksOfMembers_insert blok key value).subperm.trans ?_
    rw [Json.hasBlok_eq_false_iff.1 (hvalue value h), List.nil_append]
    exact herase blok key
  cases op with
  | set field value => exact hconstant _ value rfl
  | remove field => exact herase blok _
  | rename field newName =>
    simp only [apply]
    split
    · exact .refl _
    · next old hget =>
      -- the value is moved: it is taken out of the blok and put back in
      refine (Json.bloksOfMembers_insert _ newName old).subperm.trans ?_
      refine List.Subperm.trans ?_ (Json.bloksOfMembers_of_get? hget).symm.subperm
      exact (List.subperm_append_left _).2 (herase _ newName)
  | default field value =>
    simp only [apply]
    split
    · exact hconstant _ value rfl
    · split
      · exact hconstant _ value rfl
      · exact .refl _
  | wrapInArray field =>
    simp only [apply]
    split
    · exact .refl _
    · next old hget =>
      split
      · exact .refl _
      · have hwrapped : (Json.arr [old]).bloks component = old.bloks component :=
          List.append_nil _
        refine (Json.bloksOfMembers_insert blok _ (.arr [old])).subperm.trans ?_
        rw [hwrapped]
        exact (Json.bloksOfMembers_of_get? hget).symm.subperm

/-- What holds of the values in a blok holds of those that an operation leaves there. -/
theorem forall_apply {P : Json → Prop} (hvalue : ∀ value, op.value? = some value → P value)
    (hwrap : ∀ old, P old → old.isArray = false → P (.arr [old])) (fallback : String)
    {blok : Dict Json} (h : ∀ m ∈ blok, P m.2) : ∀ m ∈ op.apply fallback blok, P m.2 := by
  have hget {key : String} {old : Json} (hold : Dict.get? blok key = some old) : P old :=
    h _ (Dict.mem_of_get? hold)
  have herase (key : String) : ∀ m ∈ Dict.erase blok key, P m.2 :=
    fun m hm => h m ((Dict.erase_sublist blok key).subset hm)
  have hinsert {blok : Dict Json} {value : Json} (h : ∀ m ∈ blok, P m.2) (hP : P value)
      (key : String) : ∀ m ∈ Dict.insert blok key value, P m.2 := by
    intro m hm
    rcases Dict.mem_of_mem_insert hm with rfl | hm
    · exact hP
    · exact h m hm
  cases op with
  | set field value => exact hinsert h (hvalue value rfl) _
  | remove field => exact herase _
  | rename field newName =>
    simp only [apply]
    split
    · exact h
    · next hold => exact hinsert (herase _) (hget hold) _
  | default field value =>
    simp only [apply]
    split
    · exact hinsert h (hvalue value rfl) _
    · split
      · exact hinsert h (hvalue value rfl) _
      · exact h
  | wrapInArray field =>
    simp only [apply]
    split
    · exact h
    · next old hold =>
      split
      · exact h
      · next hplain =>
        have harray : old.isArray = false := by
          simp only [Bool.or_eq_true, not_or, Bool.not_eq_true] at hplain
          exact hplain.1
        exact hinsert h (hwrap old (hget hold) harray) _

end ScriptOp

/-! ## A script on a blok -/

namespace Script

variable {script : Script}

/-- No value of the script holds a blok of its component. -/
def BringsNoBlok (script : Script) : Prop :=
  ∀ op ∈ script.ops, ∀ value, op.value? = some value →
    value.hasBlok script.target.component = false

/-- The value stood in the blok or is one of the script's, or it is an array around such a
value. -/
def MayLeave (script : Script) (blok : Dict Json) (x : Json) : Prop :=
  ∃ value, ((∃ m ∈ blok, m.2 = value) ∨ ∃ op ∈ script.ops, op.value? = some value) ∧
    (x = value ∨ x = .arr [value])

/-- What every operation keeps, the script keeps. -/
theorem applyToBlok_keeps {P : Dict Json → Prop}
    (hop : ∀ op ∈ script.ops, ∀ blok, P blok → P (op.apply script.target.field blok))
    {blok : Dict Json} (h : P blok) : P (script.applyToBlok blok) := by
  rw [applyToBlok]
  generalize script.ops = ops at hop
  induction ops generalizing blok with
  | nil => exact h
  | cons op rest ih =>
    obtain ⟨hfirst, hrest⟩ := List.forall_mem_cons.1 hop
    exact ih (hfirst blok h) hrest

/-- A script puts no blok of its component into a blok. -/
theorem bloksOfMembers_applyToBlok (hscript : script.BringsNoBlok) (blok : Dict Json) :
    (Json.bloksOfMembers script.target.component (script.applyToBlok blok)).Subperm
      (Json.bloksOfMembers script.target.component blok) := by
  refine applyToBlok_keeps (P := fun edited =>
    (Json.bloksOfMembers script.target.component edited).Subperm
      (Json.bloksOfMembers script.target.component blok)) (fun op hop edited h => ?_) (.refl _)
  exact (ScriptOp.bloksOfMembers_apply (hscript op hop) _ edited).trans h

theorem mayLeave_applyToBlok (script : Script) (blok : Dict Json) :
    ∀ m ∈ script.applyToBlok blok, script.MayLeave blok m.2 := by
  refine applyToBlok_keeps (P := fun edited => ∀ m ∈ edited, script.MayLeave blok m.2)
    (fun op hop edited h => ScriptOp.forall_apply ?_ ?_ _ h) ?_
  · intro value hvalue
    exact ⟨value, .inr ⟨op, hop, hvalue⟩, .inl rfl⟩
  · rintro old ⟨value, hsource, rfl | rfl⟩ hplain
    · exact ⟨old, hsource, .inr rfl⟩
    · cases hplain
  · intro m hm
    exact ⟨m.2, .inl ⟨m, hm, rfl⟩, .inl rfl⟩

theorem depth_le_valueDepth {op : ScriptOp} (hop : op ∈ script.ops) {value : Json}
    (hvalue : op.value? = some value) : value.depth ≤ script.valueDepth := by
  have hfold (ops : List ScriptOp) (d : Nat) :
      let depth := ops.foldl (fun d op => max d ((op.value?.map Json.depth).getD 0)) d
      d ≤ depth ∧ ∀ op ∈ ops, (op.value?.map Json.depth).getD 0 ≤ depth := by
    induction ops generalizing d with
    | nil => exact ⟨Nat.le_refl d, nofun⟩
    | cons op rest ih =>
      obtain ⟨hstart, hrest⟩ := ih (max d ((op.value?.map Json.depth).getD 0))
      refine ⟨?_, List.forall_mem_cons.2 ⟨?_, hrest⟩⟩
      · exact Nat.le_trans (Nat.le_max_left _ _) hstart
      · exact Nat.le_trans (Nat.le_max_right _ _) hstart
  have h := (hfold script.ops 0).2 op hop
  rwa [hvalue] at h

/-! ## The visit comes to an end -/

section Visit

variable {σ : Type} {note : σ → Dict Json → σ} {x : Json} {room : Nat}

/-- The room of a script's visit: each container may be put into an array, and a value of the
script may stand at the innermost place. -/
theorem visitBloks_succeeds (hscript : script.BringsNoBlok)
    (hroom : 2 * x.depth + script.valueDepth ≤ room) (s : σ) :
    ∃ r, x.visitBloks script.target.component
      (fun s blok => (note s blok, script.applyToBlok blok)) room s = some r := by
  generalize hd : x.depth = d at hroom
  induction d using Nat.strongRecOn generalizing x room s with
  | _ d ih =>
    -- what stood in the value before has room, even with an array around it
    have hbefore : ∀ z ∈ x.children, ∀ less, room ≤ less + 2 → ∀ s, ∃ r,
        z.visitBloks script.target.component
          (fun s blok => (note s blok, script.applyToBlok blok)) less s = some r := by
      intro z hz less hless s
      have hdepth := Json.depth_lt_of_mem_children hz
      exact ih z.depth (by omega) s rfl (by omega)
    cases room with
    | zero =>
      cases x with
      | null | bool | num | str => exact ⟨_, rfl⟩
      | arr | obj =>
        simp only [Json.depth] at hd
        omega
    | succ room =>
      refine Json.visitBloks_succeeds_of_children (fun z hz s => ?_) s
      cases hblok : x.isBlok script.target.component with
      | false =>
        rw [Json.turned_of_not_isBlok hblok] at hz
        exact hbefore z hz room (by omega) s
      | true =>
        obtain ⟨ms, rfl, hms⟩ := Json.isBlok_eq_true_iff.1 hblok
        simp only [Json.turned, hms, if_true, Json.children] at hz
        obtain ⟨m, hm, rfl⟩ := List.mem_map.1 hz
        obtain ⟨value, hsource, hleft⟩ := script.mayLeave_applyToBlok ms m hm
        have hpositive : 0 < d := by
          rw [← hd, Json.depth]
          omega
        have hvalue : ∀ less, room + 1 ≤ less + 2 → ∀ s, ∃ r,
            value.visitBloks script.target.component
              (fun s blok => (note s blok, script.applyToBlok blok)) less s = some r := by
          intro less hless s
          rcases hsource with ⟨n, hn, rfl⟩ | ⟨op, hop, hvalue⟩
          · exact hbefore n.2 (List.mem_map_of_mem hn) less hless s
          · have hdepth := depth_le_valueDepth hop hvalue
            have hnone := Json.hasBlok_eq_false_iff.1 (hscript op hop value hvalue)
            refine ⟨_, Json.visitBloks_of_kept note (fun blok hblok => ?_) (by omega) s⟩
            rw [hnone] at hblok
            cases hblok
        rcases hleft with hleft | hleft
        · rw [hleft]
          exact hvalue room (by omega) s
        · rw [hleft]
          cases room with
          | zero => omega
          | succ room =>
            refine Json.visitBloks_succeeds_of_children (fun z hz s => ?_) s
            rw [List.mem_singleton.1 hz]
            exact hvalue room (by omega) s

end Visit

/-- With room, the visit of a script is the visit without a bound, whatever it takes note of. -/
theorem exists_visited (hscript : script.BringsNoBlok) {x : Json} {room : Nat}
    (hroom : 2 * x.depth + script.valueDepth ≤ room) :
    ∃ log y, Json.Visited script.target.component script.applyToBlok x log y ∧
      ∀ {σ : Type} (note : σ → Dict Json → σ) (s : σ),
        x.visitBloks script.target.component
          (fun s blok => (note s blok, script.applyToBlok blok)) room s =
            some (log.foldl note s, y) := by
  have hvisited {σ : Type} (note : σ → Dict Json → σ) (s : σ) : ∃ log y,
      Json.Visited script.target.component script.applyToBlok x log y ∧
      x.visitBloks script.target.component
        (fun s blok => (note s blok, script.applyToBlok blok)) room s =
          some (log.foldl note s, y) := by
    obtain ⟨⟨s', y⟩, hvisit⟩ := visitBloks_succeeds hscript hroom s
    obtain ⟨log, hlog, rfl⟩ := Json.visited_of_visitBloks hvisit
    exact ⟨log, y, hlog, hvisit⟩
  obtain ⟨log, y, hlog, -⟩ := hvisited (fun (_ : Unit) _ => ()) ()
  refine ⟨log, y, hlog, fun note s => ?_⟩
  obtain ⟨log', y', hlog', hvisit⟩ := hvisited note s
  obtain ⟨rfl, rfl⟩ := hlog.unique hlog'
  exact hvisit

theorem foldl_counted {σ : Type} (note : σ → Dict Json → σ) (log : List (Dict Json)) (s : σ)
    (count : Nat) :
    log.foldl (fun state blok => (note state.1 blok, state.2 + 1)) (s, count) =
      (log.foldl note s, count + log.length) := by
  induction log generalizing s count with
  | nil => rfl
  | cons blok log ih => rw [List.foldl_cons, ih, List.foldl_cons, List.length_cons, Nat.add_assoc,
      Nat.add_comm 1]

end Script

/-! ## Entries -/

namespace Entry

/-- The members of the document. -/
def members (e : Entry) : Dict Json := e.doc.members?.getD []

/-- An outermost blok of the component stands at the place in the document, inside the content. -/
def outermostBlokAt (component : String) (e : Entry) : Json.Place → Bool
  | [] => false
  | i :: place =>
    i == (Dict.keys e.members).idxOf "content" &&
      e.content?.any (Json.outermostBlokAt component place)

/-- The bloks of the component in the content, each before those inside it. -/
def bloks (component : String) (e : Entry) : List (Dict Json) :=
  (e.content?.map (Json.bloks component)).getD []

/-- The entry that edits of bloks leave: the document is as before but for the values at the places
of the outermost bloks; the edited bloks were there before, and each blok that is met is edited
once, before those inside it. The content is the one that these edits leave. -/
structure EditedWithinBloks (component : String) (edit : Dict Json → Dict Json) (e u : Entry)
    (log : List (Dict Json)) : Prop where
  id : u.id? = e.id?
  keys : Dict.keys u.members = Dict.keys e.members
  others : ∀ (i : Nat) (member : String × Json), member.1 ≠ "content" →
    (u.members[i]? = some member ↔ e.members[i]? = some member)
  outside : u.doc.blank (e.outermostBlokAt component) = e.doc.blank (e.outermostBlokAt component)
  present : log.Subperm (e.bloks component)
  inOrder : ∀ content, e.content? = some content →
    Json.EditedInOrder component edit content log
  visited : ∀ content, e.content? = some content →
    ∃ edited, u.content? = some edited ∧ Json.Visited component edit content log edited

section Visited

variable {component : String} {edit : Dict Json → Dict Json} {e : Entry}

theorem members_of_content? {content : Json} (h : e.content? = some content) :
    e.doc = .obj e.members ∧ Dict.get? e.members "content" = some content := by
  obtain ⟨doc⟩ := e
  cases doc with
  | obj members => exact ⟨rfl, h⟩
  | null | bool | num | str | arr => cases h

/-- Where every blok is left as it is, a visit counts the bloks, takes note of each, and leaves the
entry as it is. -/
theorem visitBloks_of_kept {σ : Type} (note : σ → Dict Json → σ) {growth : Nat}
    (hkept : ∀ blok ∈ e.bloks component, edit blok = blok) (s : σ) :
    e.visitBloks component growth (fun s blok => (note s blok, edit blok)) s =
      some ((e.bloks component).foldl note s, (e.bloks component).length, e) := by
  cases hcontent : e.content? with
  | none =>
    rw [visitBloks, bloks, hcontent]
    rfl
  | some content =>
    obtain ⟨hdoc, hget⟩ := members_of_content? hcontent
    have hbloks : e.bloks component = content.bloks component := by
      rw [bloks, hcontent]
      rfl
    have hroom : content.depth ≤ e.room growth := by
      rw [room, hcontent, Option.map_some, Option.getD_some]
      omega
    have hsame : e.withContent content = e := by
      have hwith : (e.withContent content).doc = e.doc := by
        rw [doc_withContent hdoc, Dict.insert_of_get? hget]
        exact hdoc.symm
      exact congrArg Entry.mk hwith
    rw [hbloks] at hkept ⊢
    rw [visitBloks, hcontent]
    dsimp only
    rw [Json.visitBloks_of_kept (fun state blok => (note state.1 blok, state.2 + 1)) hkept hroom,
      Script.foldl_counted, Nat.zero_add, Option.map_some, hsame]

/-- Where the content is visited, the entry is edited within its bloks. -/
theorem editedWithinBloks_of_visited {content y : Json} {log : List (Dict Json)}
    (hcontent : e.content? = some content)
    (hedit : ∀ ms, isBlokOf component ms = true →
      (Json.bloksOfMembers component (edit ms)).Subperm (Json.bloksOfMembers component ms))
    (h : Json.Visited component edit content log y) :
    EditedWithinBloks component edit e (e.withContent y) log := by
  obtain ⟨hdoc, hget⟩ := members_of_content? hcontent
  obtain ⟨hold, hset⟩ := Dict.insert_eq_set hget y
  have hafter : (e.withContent y).doc =
      .obj (e.members.set ((Dict.keys e.members).idxOf "content") ("content", y)) := by
    rw [doc_withContent hdoc, hset]
  have hmembers : (e.withContent y).members =
      e.members.set ((Dict.keys e.members).idxOf "content") ("content", y) := by
    rw [members, hafter]
    rfl
  generalize hi : (Dict.keys e.members).idxOf "content" = i at *
  constructor
  case id => exact id?_withContent y e
  case keys =>
    rw [hmembers, ← hset]
    refine Dict.keys_insert_of_mem y (Dict.has_iff_mem_keys.1 (Dict.has_of_get? hget))
  case others =>
    rintro j member hother
    rw [hmembers]
    by_cases hj : i = j
    · subst hj
      have hlength : i < e.members.length := (List.getElem?_eq_some_iff.1 hold).1
      rw [List.getElem?_set_self hlength, hold]
      constructor
      · rintro ⟨⟩
        exact absurd rfl hother
      · rintro ⟨⟩
        exact absurd rfl hother
    · rw [List.getElem?_set_ne hj]
  case outside =>
    -- at the place of the content, the hidden places are those of its outermost bloks
    have hinside : (fun place => e.outermostBlokAt component (i :: place)) =
        fun place => content.outermostBlokAt component place := by
      funext place
      rw [outermostBlokAt, hi, hcontent, beq_self_eq_true, Bool.true_and, Option.any_some]
    rw [hafter, hdoc]
    refine Json.blank_obj_set hold ?_
    rw [hinside]
    exact h.blank
  case present =>
    rw [bloks, hcontent]
    exact h.subperm hedit
  case inOrder =>
    intro content' h'
    obtain rfl := Option.some.inj (hcontent.symm.trans h')
    exact h.inOrder
  case visited =>
    intro content' h'
    obtain rfl := Option.some.inj (hcontent.symm.trans h')
    refine ⟨y, ?_, h⟩
    rw [content?, doc_withContent hdoc]
    exact Dict.get?_insert_self _ _ _

/-- An entry without content is left as it is. -/
theorem editedWithinBloks_self (h : e.content? = none) :
    EditedWithinBloks component edit e e [] where
  id := rfl
  keys := rfl
  others _ _ _ := .rfl
  outside := rfl
  present := List.nil_subperm
  inOrder content hcontent := by
    rw [h] at hcontent
    cases hcontent
  visited content hcontent := by
    rw [h] at hcontent
    cases hcontent

end Visited

end Entry

/-! ## Results of scripts -/

namespace Script

variable {script : Script}

/-- A script that leaves every blok of its component as it is leaves the entry as it is. -/
theorem transform_of_kept {e : Entry}
    (hkept : ∀ blok ∈ e.bloks script.target.component, script.applyToBlok blok = blok) :
    script.transform e = .ok e := by
  rw [transform, Entry.visitBloks_of_kept (fun s _ => s) hkept]

/-- The room for a script's visit of the content. -/
theorem room_suffices {e : Entry} {content : Json} (h : e.content? = some content) :
    2 * content.depth + script.valueDepth ≤ e.room script.growth := by
  have hgrowth : script.valueDepth ≤ script.growth := by
    rw [growth, Nat.succ_mul]
    omega
  rw [Entry.room, h]
  simp only [Option.map_some, Option.getD_some]
  omega

/-- A script whose values hold no blok of its component comes to an end and changes nothing outside
the outermost bloks of the component. Its operations run once on each blok that the visit meets, a
blok before those inside it, and those bloks stood in the entry before; what they leave is the
content afterwards. -/
theorem transform_within_bloks (script : Script) (hscript : script.BringsNoBlok) (e : Entry) :
    ∃ u log, script.transform e = .ok u ∧
      e.visitBloks script.target.component script.growth
        (fun log blok => (log ++ [blok], script.applyToBlok blok)) [] =
          some (log, log.length, u) ∧
      Entry.EditedWithinBloks script.target.component script.applyToBlok e u log := by
  cases hcontent : e.content? with
  | none =>
    refine ⟨e, [], ?_, ?_, Entry.editedWithinBloks_self hcontent⟩
    · rw [transform, Entry.visitBloks, hcontent]
    · rw [Entry.visitBloks, hcontent]
      rfl
  | some content =>
    obtain ⟨log, y, hlog, hvisit⟩ := exists_visited hscript (room_suffices hcontent)
    have hentry {σ : Type} (note : σ → Dict Json → σ) (s : σ) :
        e.visitBloks script.target.component script.growth
          (fun s blok => (note s blok, script.applyToBlok blok)) s =
            some (log.foldl note s, log.length, e.withContent y) := by
      rw [Entry.visitBloks, hcontent]
      simp only []
      rw [hvisit (fun state blok => (note state.1 blok, state.2 + 1)), foldl_counted, Nat.zero_add]
      rfl
    refine ⟨e.withContent y, log, ?_, ?_, ?_⟩
    · rw [transform, hentry fun _ _ => ()]
    · rw [hentry fun log blok => log ++ [blok], List.foldl_append_eq_append, List.nil_append,
        ← List.flatMap_def, List.flatMap_singleton']
    · refine Entry.editedWithinBloks_of_visited hcontent (fun ms _ => ?_) hlog
      exact bloksOfMembers_applyToBlok hscript ms

end Script

namespace Nested

/-- A page without parts of its own. -/
def inner : Dict Json := [("component", .str "page")]

/-- A page whose body is another page. -/
def outer : Dict Json := [("component", .str "page"), ("body", .obj inner)]

/-- An entry with a page inside a page. -/
def entry : Entry :=
  ⟨.obj [("id", .int 7),
    ("content", .obj [("component", .str "root"), ("body", .arr [.obj outer])]),
    ("slug", .str "home")]⟩

/-- The pages get a list of parts and a note. -/
def script : Script where
  target := ⟨"page", "body"⟩
  ops := [.rename none "parts", .wrapInArray (some "parts"),
    .default (some "note") (.obj [("text", .str "new")])]

/-- The note of a page after the script. -/
def note : String × Json := ("note", .obj [("text", .str "new")])

/-- The inner page is moved into an array and edited there. -/
theorem transform_within_pages : script.BringsNoBlok ∧ ∃ u log, script.transform entry = .ok u ∧
    Entry.EditedWithinBloks "page" script.applyToBlok entry u log ∧ log = [outer, inner] ∧
    u.content? = some (.obj [("component", .str "root"), ("body", .arr [.obj
      [("component", .str "page"), ("parts", .arr [.obj (inner ++ [note])]), note]])]) := by
  have hscript : script.BringsNoBlok := by
    intro op hop value hvalue
    simp only [script, List.mem_cons, List.not_mem_nil, or_false] at hop
    rcases hop with rfl | rfl | rfl <;> cases hvalue
    rfl
  obtain ⟨u, log, htransform, hvisit, hwithin⟩ :=
    Script.transform_within_bloks script hscript entry
  have hrun : entry.visitBloks "page" script.growth
      (fun log blok => (log ++ [blok], script.applyToBlok blok)) [] =
        some ([outer, inner], 2, entry.withContent (.obj [("component", .str "root"),
          ("body", .arr [.obj [("component", .str "page"),
            ("parts", .arr [.obj (inner ++ [note])]), note]])])) := by
    rfl
  obtain ⟨rfl, hcount⟩ := Prod.mk.inj (Option.some.inj (hvisit.symm.trans hrun))
  obtain ⟨-, rfl⟩ := Prod.mk.inj hcount
  exact ⟨hscript, _, _, htransform, hwithin, rfl, rfl⟩

end Nested

end Blokwork
