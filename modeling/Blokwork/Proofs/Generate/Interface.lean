import Blokwork.Generate.ComponentType
import Blokwork.Proofs.Generate.Fragments

/-!
# Interfaces of components

The interface of a component has one member that identifies an instance and one that names the
component, both required, whatever fragments the caller's types return; the others are its data
fields (`generatedType_interface`). The members are read off the text, so a fragment must not bring
its own: every text that it gives as a type has to be self-contained. An `Article` has the members
it should with a fragment that is, and one too many with a fragment that is not.
-/

namespace Blokwork

open TypeScript

/-! ## Properties of a component -/

/-- Fields of the kind have a property, whatever the caller's types are. -/
def FieldKind.carriesProperty : FieldKind → Bool
  | .custom | .section | .tab | .other _ => false
  | _ => true

namespace FragmentContext

variable {ctx : FragmentContext}

theorem baseMembers?_isSome (field : Field) :
    (baseMembers? field).isSome = field.kind.carriesProperty := by
  obtain ⟨node, hnode, -⟩ := choiceSchema_givesText field
  unfold baseMembers?
  cases field.kind <;> first | rfl | simp [hnode, Json.members?, FieldKind.carriesProperty]

/-- Without types of the caller, a field has a property under its own name or none. -/
theorem exists_fragments (hcustom : ctx.custom = none) (name : String) (field : Field) :
    ∃ schema, (ctx.fragments name field).value.getD [] =
      if field.kind.carriesProperty then [(name, schema)] else [] := by
  rw [← baseMembers?_isSome]
  unfold fragments plainFragments
  rw [hcustom]
  split
  · next hkind =>
    have hnone : baseMembers? field = none := by rw [baseMembers?, hkind]
    exact ⟨.null, by simp [hnone]⟩
  · cases hmembers : baseMembers? field with
    | none => exact ⟨.null, rfl⟩
    | some members => exact ⟨_, rfl⟩

/-- Without types of the caller, fields with distinct names have their properties in order. -/
theorem keys_propertiesFrom (hcustom : ctx.custom = none) {properties : Dict Json}
    {fields : Dict Field} (h : (Dict.keys properties ++ Dict.keys fields).Nodup) :
    Dict.keys (ctx.propertiesFrom properties fields) =
      Dict.keys properties ++ Dict.keys (fields.filter fun e => e.2.kind.carriesProperty) := by
  induction fields generalizing properties with
  | nil => simp [propertiesFrom, Dict.keys]
  | cons e rest ih =>
    obtain ⟨name, field⟩ := e
    obtain ⟨schema, hfragments⟩ := exists_fragments hcustom name field
    rw [propertiesFrom, hfragments]
    cases hcarries : field.kind.carriesProperty with
    | false =>
      have hrest : (Dict.keys properties ++ Dict.keys rest).Nodup :=
        h.sublist (List.Sublist.append_left (List.sublist_cons_self _ _) _)
      simpa [hcarries, Dict.insertAll] using ih hrest
    | true =>
      have hnew : name ∉ Dict.keys properties := fun hmem =>
        (List.nodup_append.1 h).2.2 name hmem name List.mem_cons_self rfl
      have hkeys := Dict.keys_insert_of_not_mem schema hnew
      have hrest : (Dict.keys (Dict.insert properties name schema) ++ Dict.keys rest).Nodup := by
        rw [hkeys, List.append_assoc]
        exact h
      have hproperties := ih hrest
      rw [hkeys] at hproperties
      simpa [hcarries, Dict.insertAll, Dict.keys_cons] using hproperties

/-- Every property comes from a field. -/
theorem mem_of_mem_propertiesFrom {properties : Dict Json} {fields : Dict Field}
    {p : String × Json} (h : p ∈ ctx.propertiesFrom properties fields) :
    p ∈ properties ∨ ∃ e ∈ fields, ∃ fragments,
      (ctx.fragments e.1 e.2).value = some fragments ∧ p ∈ fragments := by
  induction fields generalizing properties with
  | nil => exact .inl h
  | cons e rest ih =>
    obtain ⟨name, field⟩ := e
    rcases ih h with h | ⟨e, he, hfragments⟩
    · rcases Dict.mem_of_mem_insertAll h with h | h
      · exact .inl h
      · cases hfragments : (ctx.fragments name field).value with
        | none => simp [hfragments] at h
        | some fragments =>
          exact .inr ⟨_, List.mem_cons_self, fragments, hfragments, by simpa [hfragments] using h⟩
    · exact .inr ⟨e, List.mem_cons_of_mem _ he, hfragments⟩

theorem distinct_propertiesFrom {properties : Dict Json} (h : Dict.Distinct properties)
    (fields : Dict Field) : Dict.Distinct (ctx.propertiesFrom properties fields) := by
  induction fields generalizing properties with
  | nil => exact h
  | cons e rest ih => exact ih (h.insertAll _)

/-- The properties depend on what the caller's types say of these fields. -/
theorem propertiesFrom_congr (ctx : FragmentContext) {custom : Option CustomTypes}
    {fields : Dict Field} (h : ∀ e ∈ fields, custom.bind (fun types => types e.1 e.2) =
      ctx.custom.bind fun types => types e.1 e.2) (properties : Dict Json) :
    ({ ctx with custom } : FragmentContext).propertiesFrom properties fields =
      ctx.propertiesFrom properties fields := by
  induction fields generalizing properties with
  | nil => rfl
  | cons e rest ih =>
    obtain ⟨name, field⟩ := e
    obtain ⟨hfield, hrest⟩ := List.forall_mem_cons.1 h
    have hfragments : ({ ctx with custom } : FragmentContext).fragments name field =
        ctx.fragments name field := by
      unfold fragments
      rw [hfield]
      rfl
    rw [propertiesFrom, propertiesFrom, hfragments, ih hrest]

end FragmentContext

namespace Component

variable {ctx : FragmentContext} {c : Component}

/-- The keys of the properties that every component has. -/
def injectedKeys : List String := [uidProperty, componentProperty]

/-- The schema of the property that names the component. -/
def componentSchema (name : String) : Json :=
  .obj [("type", .str "string"), ("enum", Json.strings [name])]

/-- The fields that have a property whatever the caller's types are. -/
def declaredFields (c : Component) : Dict Field :=
  c.dataFields.filter fun e => e.2.kind.carriesProperty

/-- The keys of a component without types of the caller, and which of them are optional. -/
def signatures (c : Component) : List (String × Bool) :=
  (c.declaredFields.map fun e => (e.1, !e.2.required && !injectedKeys.contains e.1))
    ++ (injectedKeys.filter fun key => !Dict.has c.declaredFields key).map (·, false)

/-- The texts that the caller's types give as types are self-contained. -/
def FragmentsContained (ctx : FragmentContext) (c : Component) : Prop :=
  ∀ types ∈ ctx.custom, ∀ e ∈ c.dataFields, e.2.kind = .custom →
    ∀ fragments ∈ types e.1 e.2, ∀ f ∈ fragments, f.2.EveryObject FragmentContext.TextContained

theorem mem_addName {names : List String} {name other : String} :
    other ∈ addName names name ↔ other ∈ names ∨ other = name := by
  unfold addName
  split
  · next h =>
    have hmem : name ∈ names := List.contains_iff_mem.1 h
    exact ⟨.inl, fun h => h.elim id fun heq => heq ▸ hmem⟩
  · simp

/-- A key is required when every component has it, or when its field is. -/
theorem mem_requiredNames {name : String} :
    name ∈ c.requiredNames ↔
      name ∈ injectedKeys ∨ ∃ field, (name, field) ∈ c.dataFields ∧ field.required = true := by
  have hfold (fields : Dict Field) (names : List String) :
      name ∈ fields.foldl
            (fun names e => if e.2.required then addName names e.1 else names) names ↔
        name ∈ names ∨ ∃ field, (name, field) ∈ fields ∧ field.required = true := by
    induction fields generalizing names with
    | nil => simp
    | cons e rest ih =>
      obtain ⟨k, field⟩ := e
      rw [List.foldl_cons, ih]
      by_cases hrequired : field.required = true
      · simp only [hrequired, if_true, mem_addName, List.mem_cons, Prod.mk.injEq]
        constructor
        · rintro ((h | rfl) | ⟨f, hf, hr⟩)
          · exact .inl h
          · exact .inr ⟨field, .inl ⟨rfl, rfl⟩, hrequired⟩
          · exact .inr ⟨f, .inr hf, hr⟩
        · rintro (h | ⟨f, ⟨rfl, rfl⟩ | hf, hr⟩)
          · exact .inl (.inl h)
          · exact .inl (.inr rfl)
          · exact .inr ⟨f, hf, hr⟩
      · simp only [hrequired, List.mem_cons, Prod.mk.injEq]
        constructor
        · rintro (h | ⟨f, hf, hr⟩)
          · exact .inl h
          · exact .inr ⟨f, .inr hf, hr⟩
        · rintro (h | ⟨f, ⟨-, rfl⟩ | hf, hr⟩)
          · exact .inl h
          · exact absurd hr hrequired
          · exact .inr ⟨f, hf, hr⟩
  exact hfold c.dataFields injectedKeys

theorem contains_requiredNames {key : String} (h : key ∈ injectedKeys) :
    c.requiredNames.contains key = true :=
  List.contains_iff_mem.2 (mem_requiredNames.2 (.inl h))

theorem distinct_properties (ctx : FragmentContext) (c : Component) :
    Dict.Distinct (c.properties ctx) := by
  have hnothing : Dict.Distinct ([] : Dict Json) := List.nodup_nil
  exact (FragmentContext.distinct_propertiesFrom hnothing _).insertAll _

theorem get?_properties_uid (ctx : FragmentContext) (c : Component) :
    Dict.get? (c.properties ctx) uidProperty = some (HelperType.typed "string") := by
  have hne : componentProperty ≠ uidProperty := by decide
  exact (Dict.get?_insert_of_ne _ hne).trans (Dict.get?_insert_self _ _ _)

theorem get?_properties_component (ctx : FragmentContext) (c : Component) :
    Dict.get? (c.properties ctx) componentProperty = some (componentSchema c.name) :=
  Dict.get?_insert_self _ _ _

/-- The texts given as types are self-contained in all properties. -/
theorem properties_contained (h : c.FragmentsContained ctx) :
    ∀ p ∈ c.properties ctx, p.2.EveryObject FragmentContext.TextContained := by
  intro p hp
  rcases Dict.mem_of_mem_insertAll hp with hp | hp
  · obtain hp | ⟨e, he, fragments, hfragments, hp⟩ := FragmentContext.mem_of_mem_propertiesFrom hp
    · cases hp
    · unfold FragmentContext.fragments at hfragments
      split at hfragments
      · next hkind =>
        obtain ⟨types, htypes, hfragments⟩ := Option.bind_eq_some_iff.1 hfragments
        exact h types htypes e he hkind fragments hfragments p hp
      · exact ctx.plainFragments_contained hfragments p hp
  · have htyped : ∀ s : String, Json.EveryObject FragmentContext.TextContained (.str s) :=
      fun _ => trivial
    rcases List.mem_cons.1 hp with rfl | hp
    · exact (Json.EveryObject_obj _).2 ⟨nofun, List.forall_mem_singleton.2 (htyped _)⟩
    · obtain rfl := List.mem_singleton.1 hp
      exact (Json.EveryObject_obj _).2 ⟨nofun, List.forall_mem_cons.2 ⟨htyped _,
        List.forall_mem_singleton.2 (FragmentContext.everyObject_strings _ _)⟩⟩

/-- Without types of the caller, the keys are those of the fields, and then what is left of the
keys that every component has. -/
theorem keys_properties (hcustom : ctx.custom = none) (h : Dict.Distinct c.fields) :
    Dict.keys (c.properties ctx) = Dict.keys c.declaredFields
      ++ injectedKeys.filter fun key => !Dict.has c.declaredFields key := by
  have hfields : (Dict.keys c.dataFields).Nodup := h.sublist (List.filter_sublist.map Prod.fst)
  have hkeys : Dict.keys (ctx.propertiesFrom [] c.dataFields) = Dict.keys c.declaredFields :=
    FragmentContext.keys_propertiesFrom hcustom hfields
  have hne : uidProperty ≠ componentProperty := by decide
  have hproperties : c.properties ctx =
      Dict.insert (Dict.insert (ctx.propertiesFrom [] c.dataFields) uidProperty
        (HelperType.typed "string")) componentProperty (componentSchema c.name) := rfl
  have hhas (key : String) := Dict.has_congr hkeys key
  have hcomponent : Dict.has (Dict.insert (ctx.propertiesFrom [] c.dataFields) uidProperty
      (HelperType.typed "string")) componentProperty =
        Dict.has c.declaredFields componentProperty := by
    rw [Dict.has, Dict.get?_insert_of_ne _ hne, ← Dict.has, hhas]
  rw [hproperties, Dict.keys_insert, Dict.keys_insert, hcomponent, hhas, hkeys, List.append_assoc]
  cases huid : Dict.has c.declaredFields uidProperty <;>
    cases hcomponent : Dict.has c.declaredFields componentProperty <;>
    simp [injectedKeys, huid, hcomponent]

/-! ## The members of the interface -/

theorem requiredIn_of_strings {node : Dict Json} {names : List String}
    (h : Dict.get? node "required" = some (Json.strings names)) : requiredIn node = names := by
  have hstring : (Json.string? ∘ Json.str : String → Option String) = some := rfl
  rw [requiredIn, h, Option.bind_some, Json.strings, Json.items?, Option.getD_some,
    List.filterMap_map, hstring, List.filterMap_some]

/-- What the node of a component says. -/
theorem exists_node (ctx : FragmentContext) (c : Component) :
    ∃ node, c.objectSchema ctx = .obj node ∧ leading? node = some "type" ∧
      Dict.get? node "type" = some (.str "object") ∧ requiredIn node = c.requiredNames ∧
      propertiesIn node = c.properties ctx ∧ Dict.get? node "additionalProperties" = none ∧
      isObjectNode node = true ∧ description? node = none :=
  ⟨_, rfl, rfl, rfl, requiredIn_of_strings rfl, rfl, rfl, rfl, rfl⟩

/-- The type of a component is an object with its properties. -/
theorem exists_members {options : CompileOptions} {t : TypeExpr}
    (h : Describes options none (c.objectSchema ctx) t) :
    ∃ (members : List (String × Json × TypeExpr)) (further : Option (Json × TypeExpr)),
      c.properties ctx = members.map (fun m => (m.1, m.2.1)) ∧
      (∀ m ∈ members, Describes options none m.2.1 m.2.2) ∧
      (∀ p ∈ further, p.1 = anything ∧ Describes options none p.1 p.2) ∧
      t = .object (members.map fun m =>
        (⟨m.1, m.2.1.members?.bind description?, !c.requiredNames.contains m.1⟩, m.2.2))
        (further.map Prod.snd) := by
  obtain ⟨node, hnode, hleading, htype, hrequired, hproperties, hadditional, -⟩ :=
    exists_node ctx c
  rw [hnode] at h
  obtain ⟨members, further, hmembersIn, hmembers, hkeys, hfurther, rfl⟩ :=
    (h.of_leading_type hleading htype).exists_object
  rw [hproperties] at hmembersIn
  refine ⟨members, further, hmembersIn, hmembers, fun p hp => ⟨?_, hfurther p hp⟩, ?_⟩
  · obtain rfl := Option.mem_def.1 hp
    rw [furtherKeys, hadditional] at hkeys
    dsimp only at hkeys
    split at hkeys
    · exact (Option.some.inj hkeys).symm
    · cases hkeys
  · simp only [headIn, hrequired]

/-- The member of a property that is found under its key is the only one with that key. -/
theorem filter_members {d : Dict Json} (hd : Dict.Distinct d)
    {members : List (String × Json × TypeExpr)} (h : d = members.map fun m => (m.1, m.2.1))
    {key : String} {schema : Json} (hget : Dict.get? d key = some schema) :
    ∃ t, members.filter (fun m => m.1 = key) = [(key, schema, t)] := by
  have hfilter := hd.filter_key hget
  rw [h, List.filter_map] at hfilter
  obtain ⟨m, hm, heq⟩ := List.map_eq_singleton_iff.1 hfilter
  obtain ⟨k, s, t⟩ := m
  obtain ⟨rfl, rfl⟩ := Prod.mk.inj heq
  exact ⟨t, hm⟩

/-- The members of an interface with a key. -/
theorem filter_membersOf {members : List (String × Json × TypeExpr)} (width : Nat)
    (index : Option TypeExpr) (head : String × Json × TypeExpr → PropertyHead)
    (hhead : ∀ m, (head m).key = m.1) (key : String) :
    (membersOf width 1 (members.map fun m => (head m, m.2.2)) index).filter (Member.hasKey key) =
      (members.filter (fun m => m.1 = key)).map fun m =>
        .property m.1 (head m).optional (m.2.2.tokens width 1) := by
  have hindex : (index.map fun t => Member.further (t.tokens width 1)).toList.filter
      (Member.hasKey key) = [] := by
    cases index <;> rfl
  rw [membersOf, List.filter_append, hindex, List.append_nil, List.map_map, List.filter_map]
  simp only [Function.comp_def, Member.ofProperty, Member.hasKey, hhead]

/-- Without types of the caller, these keys are optional. -/
theorem signatures_eq (hcustom : ctx.custom = none) (h : Dict.Distinct c.fields) :
    (Dict.keys (c.properties ctx)).map (fun key => (key, !c.requiredNames.contains key)) =
      c.signatures := by
  have hfields : (c.dataFields.map Prod.fst).Nodup := h.sublist (List.filter_sublist.map Prod.fst)
  have hdeclared : ∀ e ∈ c.declaredFields, (e.1, !c.requiredNames.contains e.1) =
      (e.1, !e.2.required && !injectedKeys.contains e.1) := by
    intro e he
    have hmem : e ∈ c.dataFields := List.mem_of_mem_filter he
    have hrequired : e.1 ∈ c.requiredNames ↔ e.2.required = true ∨ e.1 ∈ injectedKeys := by
      rw [mem_requiredNames, or_comm]
      refine or_congr_left ⟨?_, fun h => ⟨e.2, hmem, h⟩⟩
      rintro ⟨field, hfield, h⟩
      have heq : (e.1, field) = e := List.inj_on_of_nodup_map hfields hfield hmem rfl
      rwa [← heq]
    rw [Prod.mk.injEq, ← Bool.not_or, Bool.not_inj_iff, Bool.eq_iff_iff, List.contains_iff_mem,
      Bool.or_eq_true, List.contains_iff_mem]
    exact ⟨rfl, hrequired⟩
  have hinjected : ∀ key ∈ injectedKeys.filter fun key => !Dict.has c.declaredFields key,
      (key, !c.requiredNames.contains key) = (key, false) := by
    intro key hkey
    rw [contains_requiredNames (List.mem_of_mem_filter hkey), Bool.not_true]
  rw [keys_properties hcustom h, signatures, List.map_append, Dict.keys, List.map_map]
  exact congrArg₂ (· ++ ·) (List.map_congr_left hdeclared) (List.map_congr_left hinjected)

theorem filterMap_signature? (width level : Nat) (ps : List (PropertyHead × TypeExpr))
    (index : Option TypeExpr) :
    (membersOf width level ps index).filterMap Member.signature? =
      ps.map fun p => (p.1.key, p.1.optional) := by
  have hindex : (index.map fun t => Member.further (t.tokens width level)).toList.filterMap
      Member.signature? = [] := by
    cases index <;> rfl
  have hsome : (Member.signature? ∘ Member.ofProperty width level) =
      fun p => some (p.1.key, p.1.optional) := rfl
  rw [membersOf, List.filterMap_append, hindex, List.append_nil, List.filterMap_map, hsome,
    List.filterMap_eq_map']

/-- Fields that carry no data have no part in the declaration, and the caller's types are not asked
about them. -/
theorem generatedType_congr {options : CompileOptions} {other : Component}
    {custom : Option CustomTypes} (hname : other.name = c.name)
    (hfields : other.dataFields = c.dataFields)
    (hcustom : ∀ name field, isDataField name = true →
      custom.bind (fun types => types name field) =
        ctx.custom.bind fun types => types name field) :
    other.generatedType { ctx with custom } options = c.generatedType ctx options := by
  have hagree : ∀ e ∈ c.dataFields, custom.bind (fun types => types e.1 e.2) =
      ctx.custom.bind fun types => types e.1 e.2 :=
    fun e he => hcustom e.1 e.2 (List.mem_filter.1 he).2
  have hproperties := ctx.propertiesFrom_congr hagree []
  unfold generatedType objectSchema requiredNames properties
  rw [hname, hfields, hproperties]

/-- The lines above every declaration. -/
def bannerLines (options : CompileOptions) : String :=
  match options.bannerComment.filter (!Text.isBlank ·) with
  | some text => Text.trimEnd text ++ "\n"
  | none => ""

/-- The declaration of a schema without a description is one line below the banner. -/
theorem exists_line_of_compile {options : CompileOptions} {name text : String} {node : Dict Json}
    (hdescription : description? node = none) (h : compile options name (.obj node) = .ok text) :
    ∃ d : Declaration, text = bannerLines options ++ d.line options.indent ∧
      isIdentifier name = true ∧ d.name = name ∧
      d.form = (if isObjectNode node then .interfaceForm else .aliasForm) ∧
      Describes options none (.obj node) d.body := by
  obtain ⟨d, hd, rfl⟩ := exists_of_map_eq_ok h
  obtain ⟨hname, hdname, hbanner, hdescribes, -⟩ := exists_of_declare_eq_ok hd
  obtain ⟨hform, hcomment⟩ := form_of_declare hd
  rw [hdescription] at hcomment
  refine ⟨d, ?_, hname, hdname, hform, hdescribes⟩
  rw [Declaration.print_eq, Declaration.lead, hbanner, hcomment, bannerLines]
  cases options.bannerComment.filter (!Text.isBlank ·) <;> simp

theorem suits_textContained :
    Suits FragmentContext.TextContained TypeExpr.TextContained where
  anything := nofun
  keyword _ := trivial
  literal _ := trivial
  verbatim h hvalue := h _ hvalue
  union _ := trivial
  noNames _ _ := trivial
  intersection _ := trivial
  array _ := trivial
  tuple _ := trivial
  object _ _ := trivial

theorem isSome_lex_of_isSelfContained {text : String} (h : isSelfContained text = true) :
    (lex text.toList).isSome = true := by
  obtain ⟨ts, hts, -⟩ := isSelfContained_iff.1 h
  exact Option.isSome_of_eq_some hts

/-- The declaration of a component is that of its schema, under its type name. -/
theorem compile_of_generatedType {options : CompileOptions} {g : GeneratedType}
    (h : c.generatedType ctx options = .ok g) :
    g.typeName = ctx.namer.typeName c.name ∧
      compile options g.typeName (c.objectSchema ctx) = .ok g.declaration := by
  unfold generatedType at h
  dsimp only at h
  split at h
  · next hcompile =>
    cases h
    exact ⟨rfl, hcompile⟩
  · cases h

/-- The declaration of a component is an interface with its properties. -/
theorem exists_interfaceForm {options : CompileOptions} {g : GeneratedType}
    (h : c.generatedType ctx options = .ok g) :
    ∃ (d : Declaration) (members : List (String × Json × TypeExpr))
      (further : Option (Json × TypeExpr)),
      g.declaration = bannerLines options ++ d.line options.indent ∧
      d.name = g.typeName ∧ isIdentifier d.name = true ∧ d.form = .interfaceForm ∧
      c.properties ctx = members.map (fun m => (m.1, m.2.1)) ∧
      (∀ m ∈ members, Describes options none m.2.1 m.2.2) ∧
      (∀ p ∈ further, p.1 = anything ∧ Describes options none p.1 p.2) ∧
      d.body = .object (members.map fun m =>
        (⟨m.1, m.2.1.members?.bind description?, !c.requiredNames.contains m.1⟩, m.2.2))
        (further.map Prod.snd) := by
  obtain ⟨node, hnode, -, -, -, -, -, hobject, hdescription⟩ := exists_node ctx c
  obtain ⟨-, hcompile⟩ := compile_of_generatedType h
  rw [hnode] at hcompile
  obtain ⟨d, hline, hname, hdname, hform, hdescribes⟩ :=
    exists_line_of_compile hdescription hcompile
  rw [← hnode] at hdescribes
  rw [hobject, if_pos rfl] at hform
  rw [← hdname] at hname
  obtain ⟨members, further, hbody⟩ := exists_members hdescribes
  exact ⟨d, members, further, hline, hdname, hname, hform, hbody⟩

/-- The interface in the declaration of a component, with the properties that it is printed
from. -/
theorem exists_interface {options : CompileOptions} {g : GeneratedType}
    (hcontained : c.FragmentsContained ctx) (h : c.generatedType ctx options = .ok g) :
    ∃ (line : String) (members : List (String × Json × TypeExpr)) (index : Option TypeExpr),
      g.declaration = bannerLines options ++ line ∧
      interface? line = some (g.typeName, membersOf options.indent 1
        (members.map fun m =>
          (⟨m.1, m.2.1.members?.bind description?, !c.requiredNames.contains m.1⟩, m.2.2)) index) ∧
      c.properties ctx = members.map (fun m => (m.1, m.2.1)) ∧
      ∀ m ∈ members, Describes options none m.2.1 m.2.2 := by
  obtain ⟨d, members, further, hline, hdname, hname, hform, hproperties, hmembers, hfurther,
      hbody⟩ :=
    exists_interfaceForm h
  have hevery {P : TypeExpr → Prop} (hsuits : Suits FragmentContext.TextContained P) :
      d.body.Everywhere P := by
    have hcontainedIn := properties_contained hcontained
    rw [hproperties] at hcontainedIn
    rw [hbody]
    refine (TypeExpr.Everywhere_object _ _).2 ⟨hsuits.object _ _, ?_, ?_⟩
    · exact List.forall_mem_map.2 fun m hm =>
        (hmembers m hm).everywhere hsuits (hcontainedIn _ (List.mem_map_of_mem hm))
    · intro t ht
      obtain ⟨p, hp, rfl⟩ := Option.map_eq_some_iff.1 ht
      obtain ⟨hanything, hp⟩ := hfurther p hp
      refine hp.everywhere hsuits (hanything ▸ ?_)
      exact (Json.EveryObject_obj _).2 ⟨hsuits.anything, List.forall_mem_singleton.2 trivial⟩
  have hlexical := hevery (suits_lexical nofun fun h hvalue =>
    isSome_lex_of_isSelfContained (h _ hvalue))
  have htexts := hevery suits_textContained
  rw [hbody] at hlexical htexts
  rw [hdname] at hname
  have hinterface := interface?_of_object options.indent hname hlexical htexts
  refine ⟨d.line options.indent, members, further.map Prod.snd, hline, ?_, hproperties, hmembers⟩
  rw [Declaration.line, hform, hdname, hbody]
  exact hinterface

/-- **The interface of a component has the members that its fields declare.** Exactly one
identifies an instance and exactly one names the component, both are required and of their own
types, and without types of the caller the keys are those of the fields, in order, each optional
unless it is required. Fields have distinct names, as the entries of any dictionary that is built
by insertion. A field that holds no data changes nothing, whatever the caller's types say of it. -/
theorem generatedType_interface {options : CompileOptions} {g : GeneratedType}
    (hcontained : c.FragmentsContained ctx) (h : c.generatedType ctx options = .ok g) :
    (∃ line members, g.declaration = bannerLines options ++ line ∧
      interface? line = some (g.typeName, members) ∧
      members.filter (Member.hasKey uidProperty) =
        [.property uidProperty false [.word "string"]] ∧
      members.filter (Member.hasKey componentProperty) =
        [.property componentProperty false [.text (Json.quote c.name)]] ∧
      (ctx.custom = none → Dict.Distinct c.fields →
        members.filterMap Member.signature? = c.signatures)) ∧
    ∀ (other : Component) (custom : Option CustomTypes), other.name = c.name →
      other.dataFields = c.dataFields →
      (∀ name field, isDataField name = true →
        custom.bind (fun types => types name field) =
          ctx.custom.bind fun types => types name field) →
      other.generatedType { ctx with custom } options = .ok g := by
  obtain ⟨line, members, index, hline, hinterface, hproperties, hdescribes⟩ :=
    exists_interface hcontained h
  refine ⟨⟨line, _, hline, hinterface, ?_, ?_, ?_⟩, ?_⟩
  · obtain ⟨t, ht⟩ := filter_members (distinct_properties ctx c) hproperties
      (get?_properties_uid ctx c)
    have hmem : (uidProperty, HelperType.typed "string", t) ∈ members :=
      List.mem_of_mem_filter (ht ▸ List.mem_singleton_self _)
    have hinjected : uidProperty ∈ injectedKeys := by decide
    obtain rfl := (hdescribes _ hmem).unique (.named rfl rfl (.plain rfl))
    rw [filter_membersOf _ _ _ (fun _ => rfl), ht, List.map_singleton,
      contains_requiredNames hinjected]
    rfl
  · obtain ⟨t, ht⟩ := filter_members (distinct_properties ctx c) hproperties
      (get?_properties_component ctx c)
    have hmem : (componentProperty, componentSchema c.name, t) ∈ members :=
      List.mem_of_mem_filter (ht ▸ List.mem_singleton_self _)
    have hinjected : componentProperty ∈ injectedKeys := by decide
    obtain rfl := (hdescribes _ hmem).unique (.values rfl rfl)
    rw [filter_membersOf _ _ _ (fun _ => rfl), ht, List.map_singleton,
      contains_requiredNames hinjected]
    rfl
  · intro hcustom hdistinct
    rw [filterMap_signature?, ← signatures_eq hcustom hdistinct, hproperties, Dict.keys]
    simp only [List.map_map, Function.comp_def]
  · intro other custom hname hfields hagree
    rw [generatedType_congr hname hfields hagree, h]

end Component

namespace Article

/-- An article with a field under a key that every component has, a tab, and a custom field. -/
def article : Component where
  name := "article"
  fields := [("title", { kind := .text, required := true }), ("_uid", { kind := .number }),
    ("tab-more", { kind := .tab, required := true }), ("size", { kind := .custom })]

/-- What fragments depend on, without types of the caller. -/
def plain : FragmentContext where
  roster := Roster.ofComponents [article]
  namer := {}

/-- A caller whose types give every custom field that text as its type. -/
def giving (text : String) : FragmentContext :=
  { plain with custom := some fun name _ => some [(name, .obj [("tsType", .str text)])] }

/-- The declaration of an article, with what its custom field has. -/
def declaration (size : List (PropertyHead × TypeExpr)) : Declaration where
  name := "ArticleStoryblok"
  banner := none
  description := none
  form := .interfaceForm
  body := .object
    ([(⟨"title", none, false⟩, .keyword "string"), (⟨"_uid", none, false⟩, .keyword "string")]
      ++ size ++ [(⟨"component", none, false⟩, .union [.literal (.str "article")])])
    (some (.keyword "any"))

/-- What is generated for an article. -/
def generated (size : List (PropertyHead × TypeExpr)) : GeneratedType where
  typeName := "ArticleStoryblok"
  origin := .component "article"
  declaration := (declaration size).print 2

theorem generatedType_of_declare {ctx : FragmentContext} (hnamer : ctx.namer = {})
    {size : List (PropertyHead × TypeExpr)}
    (h : declare {} "ArticleStoryblok" (article.objectSchema ctx) = .ok (declaration size)) :
    article.generatedType ctx {} = .ok (generated size) := by
  have hname : TypeNamer.typeName {} "article" = "ArticleStoryblok" := by decide
  have hcompile : compile {} "ArticleStoryblok" (article.objectSchema ctx) =
      .ok ((declaration size).print 2) := by
    rw [compile, h]
    rfl
  simp only [Component.generatedType, hnamer, article, hname] at hcompile ⊢
  rw [hcompile]
  rfl

theorem generatedType_plain : article.generatedType plain {} = .ok (generated []) := by
  refine generatedType_of_declare rfl ?_
  have hschema : article.objectSchema plain = .obj [("$id", .str "#/article"),
      ("title", .str "article"), ("type", .str "object"),
      ("required", .arr [.str "_uid", .str "component", .str "title"]),
      ("properties", .obj [("title", HelperType.typed "string"),
        ("_uid", HelperType.typed "string"),
        ("component", Component.componentSchema "article")])] := rfl
  rw [hschema]
  simp [declare, typeOfObject, propertiesOf, typesOfProperties, typeOf, typeOfNode,
    typeOfName, indexOf, requiredOf, requiredNames, Dict.get?, HelperType.typed,
    Component.componentSchema, Json.strings]
  rfl

theorem generatedType_giving (text : String) :
    article.generatedType (giving text) {} =
      .ok (generated [(⟨"size", none, true⟩, .verbatim text)]) := by
  refine generatedType_of_declare rfl ?_
  have hschema : article.objectSchema (giving text) = .obj [("$id", .str "#/article"),
      ("title", .str "article"), ("type", .str "object"),
      ("required", .arr [.str "_uid", .str "component", .str "title"]),
      ("properties", .obj [("title", HelperType.typed "string"),
        ("_uid", HelperType.typed "string"), ("size", HelperType.verbatim text),
        ("component", Component.componentSchema "article")])] := rfl
  rw [hschema]
  simp [declare, typeOfObject, propertiesOf, typesOfProperties, typeOf, typeOfNode,
    typeOfName, indexOf, requiredOf, requiredNames, Dict.get?, HelperType.typed,
    HelperType.verbatim,
    Component.componentSchema, Json.strings]
  rfl

theorem fragmentsContained_giving {text : String} (h : isSelfContained text = true) :
    article.FragmentsContained (giving text) := by
  rintro types htypes e - - fragments hfragments f hf
  cases htypes
  cases hfragments
  obtain rfl := List.mem_singleton.1 hf
  refine (Json.EveryObject_obj _).2 ⟨?_, List.forall_mem_singleton.2 trivial⟩
  intro s hs
  cases hs
  exact h

/-- The interface of an article, with a type of the caller for its custom field and without. -/
theorem interface_of_article :
    (article.FragmentsContained (giving "string[]") ∧
      article.generatedType (giving "string[]") {} =
        .ok (generated [(⟨"size", none, true⟩, .verbatim "string[]")]) ∧
      ∃ line members,
        (generated [(⟨"size", none, true⟩, .verbatim "string[]")]).declaration =
          Component.bannerLines {} ++ line ∧
        interface? line = some ("ArticleStoryblok", members) ∧
        members.filter (Member.hasKey uidProperty) =
          [.property uidProperty false [.word "string"]]) ∧
    (article.FragmentsContained plain ∧ article.generatedType plain {} = .ok (generated []) ∧
      plain.custom = none ∧ Dict.Distinct article.fields ∧
      ∃ line members, (generated []).declaration = Component.bannerLines {} ++ line ∧
        interface? line = some ("ArticleStoryblok", members) ∧
        members.filterMap Member.signature? =
          [("title", false), ("_uid", false), ("component", false)]) := by
  have hgiving : article.FragmentsContained (giving "string[]") :=
    fragmentsContained_giving (by decide)
  have hplain : article.FragmentsContained plain := nofun
  have hdistinct : Dict.Distinct article.fields := by
    unfold Dict.Distinct
    decide
  refine ⟨⟨hgiving, generatedType_giving _, ?_⟩, hplain, generatedType_plain, rfl, hdistinct, ?_⟩
  · obtain ⟨⟨line, members, hline, hinterface, huid, -⟩, -⟩ :=
      Component.generatedType_interface hgiving (generatedType_giving _)
    exact ⟨line, members, hline, hinterface, huid⟩
  · obtain ⟨⟨line, members, hline, hinterface, -, -, hsignatures⟩, -⟩ :=
      Component.generatedType_interface hplain generatedType_plain
    exact ⟨line, members, hline, hinterface, hsignatures rfl hdistinct⟩

/-- A text that ends its member brings another one with it, under a key that is taken. -/
theorem interface_of_unclosed_text :
    article.generatedType (giving "string;\n  _uid?: number") {} =
        .ok (generated [(⟨"size", none, true⟩, .verbatim "string;\n  _uid?: number")]) ∧
      ∃ members, interface? (generated
          [(⟨"size", none, true⟩, .verbatim "string;\n  _uid?: number")]).declaration =
            some ("ArticleStoryblok", members) ∧
        members.filter (Member.hasKey uidProperty) =
          [.property "_uid" false [.word "string"], .property "_uid" true [.word "number"]] := by
  refine ⟨generatedType_giving _, [.property "title" false [.word "string"],
    .property "_uid" false [.word "string"], .property "size" true [.word "string"],
    .property "_uid" true [.word "number"],
    .property "component" false [.text "\"article\""], .further [.word "any"]], ?_, ?_⟩
  · decide +kernel
  · decide

end Article

end Blokwork
