import Blokwork.Proofs.Json.Record
import Blokwork.Schema.Json

/-!
# The normal form of component documents

A component is read from many documents: its fields may stand in an array, flags and lists may be
`null`, names may be blank, choices may be numbers, and attributes may have no meaning. What is
read is always *normal* (`Component.normal_of_ofJson`): the kind of a field is the one of its name,
a name that is there is not blank, and what is kept as a further attribute has no meaning. A normal
component is written so that it is read back (`Component.Normal.ofJson_toJson`). So the document it
is written to is a normal form (`Component.stable_normal_form`).

The text of that document is read back with it, as long as the numbers in it are what their texts
denote (`Component.readable_toJson`): writing neither repeats a key nor nests anything deeper than
the document that was read.
-/

namespace Blokwork

/-! ## Values -/

/-- The text is there only when it is not blank. -/
def Named (text : Option String) : Prop := ∀ s ∈ text, Text.isBlank s = false

namespace Json

/-- A text that is read as a name is not blank. -/
theorem named_of_asNamed {j : Json} {text : Option String} (h : j.asNamed = .ok text) :
    Named text := by
  obtain ⟨read, -, rfl⟩ := exists_of_map_eq_ok h
  intro s hs
  simpa using (Option.mem_filter_iff.1 hs).2

theorem asNamed_str {s : String} (h : Text.isBlank s = false) :
    (str s).asNamed = .ok (some s) := by
  have hread : Datum.asOption Datum.asString (str s) = .ok (some s) := rfl
  rw [asNamed, hread]
  simp [Except.map, h]

theorem orDefault_of_ok {β : Type} {default b : β} {item : Json → Shaped β} {j : Json}
    (hj : Datum.found j ≠ .null) (h : item j = .ok b) :
    Datum.orDefault default item j = .ok b := by
  have hoption : Datum.asOption item j = .ok (some b) := by
    rw [Datum.asOption, h]
    split
    · next hnull => exact absurd hnull hj
    · rfl
  rw [Datum.orDefault, hoption]
  rfl

/-- A list is read back when its items are. -/
theorem asItems_arr {β : Type} {item : Json → Shaped β} {g : β → Json} {xs : List β}
    (h : ∀ x ∈ xs, item (g x) = .ok x) : asItems item (arr (xs.map g)) = .ok xs :=
  orDefault_of_ok nofun (mapM_map_eq_ok h)

/-- A map is read from an object, unless it stands for the empty one. -/
theorem members_of_asDict {β : Type} {item : Json → Shaped β} {j : Json} {d : Dict β}
    (h : Datum.orDefault [] (Datum.asDict item) j = .ok d) :
    d = [] ∨ ∃ members, j = .obj members ∧
      members.mapM (fun m => (item m.2).map (m.1, ·)) = .ok d := by
  obtain ⟨read, hread, rfl⟩ := exists_of_map_eq_ok h
  cases j with
  | null =>
    cases hread
    exact .inl rfl
  | obj members =>
    obtain ⟨d, hd, rfl⟩ := exists_of_map_eq_ok hread
    exact .inr ⟨members, rfl, hd⟩
  | num n => cases n <;> cases hread
  | _ => cases hread

end Json

namespace FieldKind

/-- The kind of a name has that name. -/
theorem name_ofName (name : String) : (ofName name).name = name := by
  have hnamed : ∀ p ∈ named, p.2.name = p.1 := by decide
  rw [ofName]
  cases h : Dict.get? named name with
  | none => rfl
  | some kind => exact hnamed _ (Dict.mem_of_get? h)

/-- The kind is the one of its name. -/
def Canonical (kind : FieldKind) : Prop := ofName kind.name = kind

theorem canonical_of_ofJson {j : Json} {kind : FieldKind} (h : ofJson j = .ok kind) :
    kind.Canonical := by
  obtain ⟨name, -, rfl⟩ := exists_of_map_eq_ok h
  rw [Canonical, name_ofName]

theorem Canonical.ofJson_toJson {kind : FieldKind} (h : kind.Canonical) :
    ofJson kind.toJson = .ok kind := congrArg Except.ok h

end FieldKind

/-- A choice is read back. -/
theorem FieldOption.ofJson_toJson (o : FieldOption) : ofJson o.toJson = .ok o := rfl

/-! ## Fields -/

namespace Field

/-- The field has the form in which a field is read: its kind is the one of its name, its texts are
not blank, and its further attributes have no meaning. -/
structure Normal (f : Field) : Prop where
  kind : f.kind.Canonical
  restrictType : Named f.restrictType
  source : Named f.source
  fieldType : Named f.fieldType
  description : Named f.description
  extra : ∀ m ∈ f.extra, shape.field? m.1 = none

/-- Every attribute keeps a field normal. -/
theorem keeps_normal : ∀ f ∈ shape.fields, f.Keeps Normal fun _ => True := by
  simp only [shape, List.forall_mem_cons, List.not_mem_nil, IsEmpty.forall_iff, implies_true,
    and_true]
  refine ⟨?kind, ?_, ?_, ?restrictType, ?_, ?_, ?_, ?_, ?_, ?source, ?fieldType, ?description⟩
  case kind =>
    exact RecordField.keeps_of_set fun _ hread h =>
      ⟨FieldKind.canonical_of_ofJson hread, h.2, h.3, h.4, h.5, h.6⟩
  case restrictType =>
    exact RecordField.keeps_of_set fun _ hread h =>
      ⟨h.1, Json.named_of_asNamed hread, h.3, h.4, h.5, h.6⟩
  case source =>
    exact RecordField.keeps_of_set fun _ hread h =>
      ⟨h.1, h.2, Json.named_of_asNamed hread, h.4, h.5, h.6⟩
  case fieldType =>
    exact RecordField.keeps_of_set fun _ hread h =>
      ⟨h.1, h.2, h.3, Json.named_of_asNamed hread, h.5, h.6⟩
  case description =>
    exact RecordField.keeps_of_set fun _ hread h =>
      ⟨h.1, h.2, h.3, h.4, Json.named_of_asNamed hread, h.6⟩
  -- flags and lists are normal however they are read
  all_goals exact RecordField.keeps_of_set fun _ _ h => ⟨h.1, h.2, h.3, h.4, h.5, h.6⟩

/-- A field is read from an object, and is normal. -/
theorem exists_of_ofJson {j : Json} {f : Field} (h : ofJson j = .ok f) :
    ∃ members, j = .obj members ∧ f.Normal ∧
      f.extra = members.filter fun m => (shape.field? m.1).isNone := by
  cases j with
  | obj members =>
    obtain ⟨draft, hread, h⟩ := exists_of_bind_eq_ok h
    cases h
    have hstart : Normal { kind := .other "" } :=
      ⟨rfl, nofun, nofun, nofun, nofun, List.forall_mem_nil _⟩
    have hdraft := RecordShape.keeps_readMembers keeps_normal (fun _ _ => trivial) hstart hread
    refine ⟨members, rfl, ⟨hdraft.1, hdraft.2, hdraft.3, hdraft.4, hdraft.5, ?_⟩, rfl⟩
    intro m hm
    exact Option.isNone_iff_eq_none.1 (List.mem_filter.1 hm).2
  | _ => cases h

/-! ### Written attributes -/

section Written

variable {σ : Type} {record : RecordShape Json σ} {key : String} {draft : σ} (rest : Dict Json)

theorem keys_optionalMember (key : String) (value : Option String) :
    (Dict.keys (optionalMember key value)).Sublist [key] := by
  cases value with
  | none => exact List.nil_sublist _
  | some s => exact List.Sublist.refl _

theorem keys_listMember (key : String) (items : List Json) :
    (Dict.keys (listMember key items)).Sublist [key] := by
  unfold listMember
  split
  · exact List.nil_sublist _
  · exact List.Sublist.refl _

/-- A name that is left out when absent is read back into a draft in which it is absent. -/
theorem enterMembers_optionalMember (set : Option String → σ → σ)
    (hfield : record.field? key = some ⟨key, false, fun j d => return set (← j.asNamed) d⟩)
    {value : Option String} (hvalue : Named value) (hdraft : set none draft = draft) :
    record.enterMembers draft (optionalMember key value ++ rest) =
      record.enterMembers (set value draft) rest := by
  cases value with
  | none =>
    rw [hdraft]
    rfl
  | some s =>
    have hread : (Json.str s).asNamed = .ok (some s) := Json.asNamed_str (hvalue s rfl)
    exact RecordShape.enterMembers_cons hfield hread rest

/-- A list that is left out when empty is read back into a draft in which it is empty. -/
theorem enterMembers_listMember {β : Type} {item : Json → Shaped β} {g : β → Json}
    (set : List β → σ → σ)
    (hfield : record.field? key = some ⟨key, false, fun j d => return set (← j.asItems item) d⟩)
    {items : List β} (hitems : ∀ x ∈ items, item (g x) = .ok x) (hdraft : set [] draft = draft) :
    record.enterMembers draft (listMember key (items.map g) ++ rest) =
      record.enterMembers (set items draft) rest := by
  cases items with
  | nil =>
    rw [hdraft]
    rfl
  | cons x items =>
    have hread : Json.asItems item (.arr ((x :: items).map g)) = .ok (x :: items) :=
      Json.asItems_arr hitems
    exact RecordShape.enterMembers_cons hfield hread rest

end Written

/-- The attributes of a field that have a meaning, as they are written. -/
def attributes (f : Field) : Dict Json :=
  [("type", f.kind.toJson), ("required", .bool f.required),
    ("restrict_components", .bool f.restrictComponents)]
  ++ optionalMember "restrict_type" f.restrictType
  ++ listMember "component_whitelist" (f.componentWhitelist.map .str)
  ++ listMember "component_group_whitelist" (f.componentGroupWhitelist.map .str)
  ++ [("email_link_type", .bool f.emailLinkType), ("asset_link_type", .bool f.assetLinkType)]
  ++ listMember "options" (f.options.map FieldOption.toJson)
  ++ optionalMember "source" f.source
  ++ optionalMember "field_type" f.fieldType
  ++ optionalMember "description" f.description

theorem toJson_eq (f : Field) : f.toJson = .obj (f.attributes ++ f.extra) := rfl

/-- Attributes are written in the order of the shape. -/
theorem keys_attributes (f : Field) :
    (Dict.keys f.attributes).Sublist (shape.fields.map (·.name)) := by
  simp only [attributes, Dict.keys, List.map_append]
  exact ((((((((List.Sublist.refl _).append (keys_optionalMember _ _)).append
    (keys_listMember _ _)).append (keys_listMember _ _)).append (List.Sublist.refl _)).append
    (keys_listMember _ _)).append (keys_optionalMember _ _)).append
    (keys_optionalMember _ _)).append (keys_optionalMember _ _)

/-- The attributes of a normal field are read back. -/
theorem enterMembers_attributes {f : Field} (h : f.Normal) (rest : Dict Json) :
    shape.enterMembers { kind := .other "" } (f.attributes ++ rest) =
      shape.enterMembers { f with extra := [] } rest := by
  have htext : ∀ s : String, Datum.asString (Json.str s) = .ok s := fun _ => rfl
  have hflag : ∀ b : Bool, (Json.bool b).asFlag = .ok b := fun _ => rfl
  simp only [attributes, List.append_assoc, List.cons_append, List.nil_append]
  rw [RecordShape.enterMembers_cons rfl h.kind.ofJson_toJson,
    RecordShape.enterMembers_cons rfl (hflag f.required),
    RecordShape.enterMembers_cons rfl (hflag f.restrictComponents),
    enterMembers_optionalMember _ (fun v f => { f with restrictType := v }) rfl h.restrictType rfl,
    enterMembers_listMember _ (fun v f => { f with componentWhitelist := v }) rfl
      (fun s _ => htext s) rfl,
    enterMembers_listMember _ (fun v f => { f with componentGroupWhitelist := v }) rfl
      (fun s _ => htext s) rfl,
    RecordShape.enterMembers_cons rfl (hflag f.emailLinkType),
    RecordShape.enterMembers_cons rfl (hflag f.assetLinkType),
    enterMembers_listMember _ (fun v f => { f with options := v }) rfl
      (fun o _ => o.ofJson_toJson) rfl,
    enterMembers_optionalMember _ (fun v f => { f with source := v }) rfl h.source rfl,
    enterMembers_optionalMember _ (fun v f => { f with fieldType := v }) rfl h.fieldType rfl,
    enterMembers_optionalMember _ (fun v f => { f with description := v }) rfl h.description rfl]

/-- An attribute that is written has a meaning. -/
theorem known_of_mem_attributes {f : Field} {m : String × Json} (hm : m ∈ f.attributes) :
    (shape.field? m.1).isSome = true :=
  RecordShape.isSome_field?.2 (f.keys_attributes.subset (List.mem_map_of_mem hm))

/-- A normal field is read back. -/
theorem Normal.ofJson_toJson {f : Field} (h : f.Normal) : ofJson f.toJson = .ok f := by
  have henter : shape.enterMembers { kind := .other "" } (f.attributes ++ f.extra) =
      .ok { f with extra := [] } := by
    rw [enterMembers_attributes h, RecordShape.enterMembers_of_unknown h.extra]
  have hmissing : shape.missing? (f.attributes ++ f.extra) = none := by
    refine List.find?_eq_none.2 fun g hg => ?_
    have hrequired : g.required = true → g.name = "type" := by
      revert g
      simp [shape]
    have htype : Dict.has (f.attributes ++ f.extra) "type" = true := rfl
    cases hg' : g.required with
    | false => simp
    | true => simp [hrequired hg', htype]
  have hextra :
      (f.attributes ++ f.extra).filter (fun m => (shape.field? m.1).isNone) = f.extra := by
    rw [List.filter_append, List.filter_eq_nil_iff.2, List.nil_append, List.filter_eq_self.2]
    · exact fun m hm => Option.isNone_iff_eq_none.2 (h.extra m hm)
    · intro m hm
      rw [Option.isNone_iff_eq_none, ← ne_eq, ← Option.isSome_iff_ne_none]
      exact known_of_mem_attributes hm
  have hread : shape.readMembers { kind := .other "" } (f.attributes ++ f.extra) =
      .ok { f with extra := [] } := by
    rw [RecordShape.readMembers, henter]
    simp only [hmissing, bind, Except.bind]
    rfl
  rw [toJson_eq, ofJson, hread]
  simp only [hextra, bind, Except.bind]
  rfl

end Field

/-! ## Components -/

namespace Component

/-- The component has the form in which a component is read. -/
structure Normal (c : Component) : Prop where
  group : Named c.group
  fields : ∀ m ∈ c.fields, m.2.Normal

/-- The fields of a component were read from the members of such an object, unless there are
none. -/
def FieldsFrom (Q : Json → Prop) (c : Component) : Prop :=
  c.fields = [] ∨ ∃ members, Q (.obj members) ∧
    members.mapM (fun m => (Field.ofJson m.2).map (m.1, ·)) = .ok c.fields

/-- A component is read with its fields from one of the values inside. -/
theorem fieldsFrom_of_ofJson {Q : Json → Prop} {j : Json} {c : Component} (h : ofJson j = .ok c)
    (hmembers : ∀ m ∈ Datum.members j, Q m.2) (hitems : ∀ x ∈ Datum.items j, Q x) :
    Named c.group ∧ c.FieldsFrom Q := by
  have hstart : Named none ∧ FieldsFrom Q { name := "" } := ⟨nofun, .inl rfl⟩
  refine RecordShape.keeps_read (P := fun c => Named c.group ∧ c.FieldsFrom Q) ?_ hmembers hitems
    hstart h
  simp only [shape, List.forall_mem_cons, List.not_mem_nil, IsEmpty.forall_iff, implies_true,
    and_true]
  refine ⟨?name, ?group, ?schema⟩
  case name => exact RecordField.keeps_of_set fun _ _ h => h
  case group => exact RecordField.keeps_of_set fun _ hread h => ⟨Json.named_of_asNamed hread, h.2⟩
  case schema =>
    refine RecordField.keeps_of_set fun hQ hread h => ⟨h.1, ?_⟩
    obtain rfl | ⟨members, rfl, hfields⟩ := Json.members_of_asDict hread
    · exact .inl rfl
    · exact .inr ⟨members, hQ, hfields⟩

/-- Each field was read from the member with its name. -/
theorem FieldsFrom.exists_field {Q : Json → Prop} {c : Component} (h : c.FieldsFrom Q)
    {m : String × Field} (hm : m ∈ c.fields) :
    ∃ members x, Q (.obj members) ∧ (m.1, x) ∈ members ∧ Field.ofJson x = .ok m.2 := by
  rcases h with hnone | ⟨members, hQ, hread⟩
  · rw [hnone] at hm
    cases hm
  · obtain ⟨⟨key, x⟩, hx, hread⟩ := exists_of_mapM_eq_ok hread m hm
    obtain ⟨f, hf, rfl⟩ := exists_of_map_eq_ok hread
    exact ⟨members, x, hQ, hx, hf⟩

theorem normal_of_ofJson {j : Json} {c : Component} (h : ofJson j = .ok c) : c.Normal := by
  obtain ⟨hgroup, hfields⟩ :=
    fieldsFrom_of_ofJson (Q := fun _ => True) h (fun _ _ => trivial) (fun _ _ => trivial)
  refine ⟨hgroup, fun m hm => ?_⟩
  obtain ⟨-, x, -, -, hread⟩ := hfields.exists_field hm
  obtain ⟨-, -, hnormal, -⟩ := Field.exists_of_ofJson hread
  exact hnormal

/-- The members of a component, as they are written. -/
def members (c : Component) : Dict Json :=
  ("name", .str c.name) :: (Field.optionalMember "component_group_uuid" c.group ++
    [("schema", .obj (c.fields.map fun m => (m.1, m.2.toJson)))])

theorem toJson_eq (c : Component) : c.toJson = .obj c.members := rfl

/-- A normal component is read back. -/
theorem Normal.ofJson_toJson {c : Component} (h : c.Normal) : ofJson c.toJson = .ok c := by
  have hname : Datum.asString (Json.str c.name) = .ok c.name := rfl
  have hfields : Datum.asDict Field.ofJson (.obj (c.fields.map fun m => (m.1, m.2.toJson))) =
      .ok c.fields :=
    mapM_map_eq_ok fun m hm => congrArg (Except.map (m.1, ·)) (h.fields m hm).ofJson_toJson
  have hschema : Datum.orDefault [] (Datum.asDict Field.ofJson)
      (.obj (c.fields.map fun m => (m.1, m.2.toJson))) = .ok c.fields :=
    Json.orDefault_of_ok nofun hfields
  have henter : shape.enterMembers { name := "" } c.members = .ok c := by
    rw [members, RecordShape.enterMembers_cons rfl hname,
      Field.enterMembers_optionalMember _ (fun v c => { c with group := v }) rfl h.group rfl,
      RecordShape.enterMembers_cons rfl hschema]
    rfl
  have hmissing : shape.missing? c.members = none := by
    simp [RecordShape.missing?, shape, members, Dict.has]
  have hread : ofJson c.toJson = shape.readMembers { name := "" } c.members := rfl
  rw [hread, RecordShape.readMembers, henter]
  simp only [hmissing, bind, Except.bind]
  rfl

end Component

/-! ## The text of a component -/

section Text

variable {room : Nat}

/-- The members of a map are read under their keys. -/
theorem Dict.keys_of_mapM_eq_ok {ε α β : Type} {item : α → Except ε β} {members : Dict α}
    {d : Dict β} (h : members.mapM (fun m => (item m.2).map (m.1, ·)) = .ok d) :
    Dict.keys d = Dict.keys members := by
  induction members generalizing d with
  | nil =>
    cases h
    rfl
  | cons m members ih =>
    rw [List.mapM_cons] at h
    obtain ⟨e, he, h⟩ := exists_of_bind_eq_ok h
    obtain ⟨d', hd', h⟩ := exists_of_bind_eq_ok h
    cases h
    obtain ⟨x, -, rfl⟩ := exists_of_map_eq_ok he
    rw [Dict.keys_cons, Dict.keys_cons, ih hd']

namespace Field

theorem readable_optionalMember (key : String) (value : Option String) :
    ∀ m ∈ optionalMember key value, m.2.Readable room := by
  cases value with
  | none => exact List.forall_mem_nil _
  | some s => simp [optionalMember, Json.readable_str]

theorem readable_listMember (key : String) {items : List Json}
    (h : ∀ x ∈ items, x.Readable room) :
    ∀ m ∈ listMember key items, m.2.Readable (room + 1) := by
  unfold listMember
  split
  · exact List.forall_mem_nil _
  · simpa using Json.readable_arr_iff.2 h

/-- Attributes with a meaning are nested at most two containers deep. -/
theorem readable_attributes (f : Field) : ∀ m ∈ f.attributes, m.2.Readable (room + 2) := by
  have hstrings (texts : List String) : ∀ x ∈ texts.map Json.str, x.Readable (room + 1) := by
    simp [Json.readable_str]
  have hoptions : ∀ x ∈ f.options.map FieldOption.toJson, x.Readable (room + 1) := by
    intro x hx
    obtain ⟨o, -, rfl⟩ := List.mem_map.1 hx
    refine Json.readable_obj_iff.2 ⟨?_, by simp [Json.readable_str]⟩
    show List.Nodup ["name", "value"]
    decide
  simp only [attributes, List.forall_mem_append]
  and_intros
  · simp [FieldKind.toJson, Json.readable_str, Json.readable_bool]
  · exact readable_optionalMember _ _
  · exact readable_listMember _ (hstrings f.componentWhitelist)
  · exact readable_listMember _ (hstrings f.componentGroupWhitelist)
  · simp [Json.readable_bool]
  · exact readable_listMember _ hoptions
  · exact readable_optionalMember _ _
  · exact readable_optionalMember _ _
  · exact readable_optionalMember _ _

/-- Attributes with a meaning have different names, and further attributes have others. -/
theorem Normal.distinct_attributes {f : Field} (h : f.Normal) (hextra : Dict.Distinct f.extra) :
    Dict.Distinct (f.attributes ++ f.extra) := by
  have hnames : (shape.fields.map (·.name) : List String).Nodup := by
    simp [shape]
  rw [Dict.Distinct, Dict.keys, List.map_append]
  refine List.nodup_append.2 ⟨hnames.sublist f.keys_attributes, hextra, ?_⟩
  intro key hkey other hother heq
  obtain ⟨m, hm, rfl⟩ := List.mem_map.1 hkey
  obtain ⟨m', hm', rfl⟩ := List.mem_map.1 hother
  have hknown := known_of_mem_attributes hm
  rw [heq, h.extra m' hm'] at hknown
  cases hknown

/-- A field that is read of a value that can be read back can be read back. -/
theorem readable_toJson {j : Json} {f : Field} (h : ofJson j = .ok f)
    (hj : j.Readable (room + 3)) : f.toJson.Readable (room + 3) := by
  obtain ⟨members, rfl, hnormal, hextra⟩ := exists_of_ofJson h
  obtain ⟨hdistinct, hmembers⟩ := Json.readable_obj_iff.1 hj
  have hextras : Dict.Distinct f.extra := by
    rw [hextra]
    exact List.Nodup.sublist (List.filter_sublist.map _) hdistinct
  rw [toJson_eq]
  refine Json.readable_obj_iff.2 ⟨hnormal.distinct_attributes hextras, ?_⟩
  refine List.forall_mem_append.2 ⟨f.readable_attributes, fun m hm => ?_⟩
  exact hmembers m (List.mem_of_mem_filter (hextra ▸ hm))

end Field

namespace Component

/-- The values inside one that can be read back can be read back. -/
theorem readable_inside {j : Json} (h : j.Readable (room + 1)) :
    (∀ m ∈ Datum.members j, m.2.Readable room) ∧ ∀ x ∈ Datum.items j, x.Readable room := by
  cases j with
  | arr xs => exact ⟨List.forall_mem_nil _, Json.readable_arr_iff.1 h⟩
  | obj ms => exact ⟨(Json.readable_obj_iff.1 h).2, List.forall_mem_nil _⟩
  | _ => exact ⟨List.forall_mem_nil _, List.forall_mem_nil _⟩

/-- A component that is read of a value that can be read back can be read back. -/
theorem readable_toJson {j : Json} {c : Component} (h : ofJson j = .ok c)
    (hj : j.Readable (room + 5)) : c.toJson.Readable (room + 5) := by
  obtain ⟨hmembers, hitems⟩ := readable_inside hj
  obtain ⟨-, hfields⟩ := fieldsFrom_of_ofJson h hmembers hitems
  have hschema : (Json.obj (c.fields.map fun m => (m.1, m.2.toJson))).Readable (room + 4) := by
    have hdistinct : Dict.Distinct c.fields := by
      rcases hfields with hnone | ⟨members, hQ, hread⟩
      · rw [hnone]
        exact List.nodup_nil
      · rw [Dict.Distinct, Dict.keys_of_mapM_eq_ok hread]
        exact (Json.readable_obj_iff.1 hQ).1
    refine Json.readable_obj_iff.2 ⟨?_, List.forall_mem_map.2 fun m hm => ?_⟩
    · rw [Dict.Distinct, Dict.keys, List.map_map]
      exact hdistinct
    · obtain ⟨members, x, hQ, hx, hread⟩ := hfields.exists_field hm
      exact Field.readable_toJson hread ((Json.readable_obj_iff.1 hQ).2 _ hx)
  rw [toJson_eq]
  refine Json.readable_obj_iff.2 ⟨?_, ?_⟩
  · have hkeys : (Dict.keys c.members).Sublist (shape.fields.map (·.name)) := by
      simp only [members, Dict.keys, List.map_cons, List.map_append]
      exact ((Field.keys_optionalMember _ _).append (List.Sublist.refl _)).cons_cons _
    exact List.Nodup.sublist hkeys (by simp [shape])
  · refine List.forall_mem_cons.2 ⟨Json.readable_str _ _, List.forall_mem_append.2 ⟨?_, ?_⟩⟩
    · exact Field.readable_optionalMember _ _
    · exact List.forall_mem_singleton.2 hschema

end Component

end Text

/-- **Component documents have a stable normal form.** Whatever document a component is read from,
the document that it is written to is read as the same component, with the same fields, attributes
and further attributes in the same order; and what is read is written to the same text. When the
document came from a text itself and its numbers are what their texts denote, then the text that is
written is that document again. -/
theorem Component.stable_normal_form {j : Json} {c : Component} (h : Component.ofJson j = .ok c) :
    Component.ofJson c.toJson = .ok c ∧
      (∀ again, Component.ofJson c.toJson = .ok again →
        again.toJson.compact = c.toJson.compact ∧ again.toJson.pretty = c.toJson.pretty) ∧
      ∀ text, Json.parse text = .ok j → j.NumbersReadBack →
        Json.parse c.toJson.pretty = .ok c.toJson := by
  have hagain : ofJson c.toJson = .ok c := (normal_of_ofJson h).ofJson_toJson
  refine ⟨hagain, fun again hread => ?_, fun text hparse hnumbers => ?_⟩
  · cases hagain.symm.trans hread
    exact ⟨rfl, rfl⟩
  · obtain ⟨hdepth, hlegible⟩ := Json.within_of_parse hparse
    have hj : j.Readable (122 + 5) := ⟨hlegible hnumbers, hdepth⟩
    obtain ⟨hlegible', hdepth'⟩ := readable_toJson h hj
    exact Json.parse_pretty hlegible' hdepth'

/-! ## A card -/

namespace Card

/-- A document with a `null`, blank texts, numbers for texts, an array for a choice and an
attribute without a meaning. -/
def document : Json :=
  .obj [("schema", .obj [("size", .obj [("hint", .int 3), ("type", .str "option"),
      ("required", .null), ("description", .str " "),
      ("options", .arr [.arr [.str "S"], .obj [("value", .int 1)]])])]),
    ("component_group_uuid", .str ""), ("name", .str "card")]

/-- The component in it. -/
def card : Component where
  name := "card"
  fields := [("size", {
    kind := .singleOption
    options := [⟨"S", ""⟩, ⟨"", "1"⟩]
    extra := [("hint", .int 3)] })]

/-- The card is written to another document, which is its normal form. -/
theorem stable_normal_form_card :
    Component.ofJson document = .ok card ∧ card.toJson ≠ document ∧
      Component.ofJson card.toJson = .ok card ∧
      Json.parse card.toJson.pretty = .ok card.toJson := by
  have hread : Component.ofJson document = .ok card := by decide +kernel
  have hint (n : Int) (h : n = 1 ∨ n = 3) : (Number.int n).ReadsBack := by
    unfold Number.ReadsBack
    rcases h with rfl | rfl <;> decide +kernel
  have hnumbers : document.NumbersReadBack := by
    simp [document, Json.NumbersReadBack, Json.numbers, Json.numbersMembers, Json.numbersItems,
      Json.int, hint]
  have hlegible : document.Legible := by
    simp [document, Dict.Distinct, Dict.keys, Json.int, hint]
  have htext : Json.parse document.pretty = .ok document :=
    Json.parse_pretty hlegible (by decide +kernel)
  obtain ⟨hagain, -, hparse⟩ := Component.stable_normal_form hread
  exact ⟨hread, by decide +kernel, hagain, hparse _ htext hnumbers⟩

end Card

end Blokwork
