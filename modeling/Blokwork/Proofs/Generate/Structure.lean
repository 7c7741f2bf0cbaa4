import Blokwork.Proofs.Generate.Run

/-!
# Fields that arrange the editor

A field holds no data when its name starts with the tab marker or its kind is a section, a tab or
unknown. Of such a field no more than its name can get into the schema of its component, among the
required names, and a required name that is no property changes no type
(`typesOfProperties_congr`). So a run without these fields is the same run
(`generate_withoutStructure`), as long as the caller's types come from a table: they give a custom
field a property under its own name and under no other.
-/

namespace Blokwork

open TypeScript

/-- Fields of the kind hold nothing: sections, tabs and what this library does not know. -/
def FieldKind.isStructural : FieldKind → Bool
  | .section | .tab | .other _ => true
  | _ => false

/-- The field of that name arranges the editor. -/
def Field.isStructural (name : String) (field : Field) : Bool :=
  !isDataField name || field.kind.isStructural

/-- The component without the fields that arrange the editor. -/
def Component.withoutStructure (c : Component) : Component :=
  { c with fields := c.fields.filter fun e => !e.2.isStructural e.1 }

/-! ## Required names that are no properties -/

namespace TypeScript

variable {options : CompileOptions} {path : SchemaPath}

/-- The required names decide which of the properties are optional, and nothing else. -/
theorem typesOfProperties_congr {required others : List String} {properties : Dict Json}
    (h : ∀ p ∈ properties, p.1 ∈ required ↔ p.1 ∈ others) :
    typesOfProperties options path required properties =
      typesOfProperties options path others properties := by
  induction properties with
  | nil => rw [typesOfProperties, typesOfProperties]
  | cons p rest ih =>
    obtain ⟨key, schema⟩ := p
    obtain ⟨hkey, hrest⟩ := List.forall_mem_cons.1 h
    have hcontains : required.contains key = others.contains key := by
      rw [Bool.eq_iff_iff, List.contains_iff_mem, List.contains_iff_mem, hkey]
    rw [typesOfProperties, typesOfProperties, ih hrest, hcontains]

/-- Objects with the same type have the same declaration, if they are described alike. -/
theorem compile_congr {name : String} {node other : Dict Json} (hnode : isObjectNode node = true)
    (hother : isObjectNode other = true) (hdescription : description? node = description? other)
    (htype : typeOfObject options [] node = typeOfObject options [] other) :
    compile options name (.obj node) = compile options name (.obj other) := by
  simp only [compile, declare, hnode, hother, hdescription, htype, if_true]

end TypeScript

/-! ## Fields without a fragment -/

namespace FieldKind

variable {kind : FieldKind}

theorem carriesProperty_of_isStructural (h : kind.isStructural = true) :
    kind.carriesProperty = false := by
  cases kind <;> first | rfl | cases h

theorem isShared_of_isStructural (h : kind.isStructural = true) : kind.isShared = false := by
  cases kind <;> first | rfl | cases h

theorem ne_custom_of_isStructural (h : kind.isStructural = true) : kind ≠ .custom := by
  rintro rfl
  cases h

end FieldKind

namespace FragmentContext

variable (ctx : FragmentContext)

theorem baseMembers?_of_isStructural {field : Field} (h : field.kind.isStructural = true) :
    baseMembers? field = none := by
  rw [← Option.not_isSome_iff_eq_none, baseMembers?_isSome,
    FieldKind.carriesProperty_of_isStructural h]
  exact Bool.false_ne_true

theorem fragments_of_isStructural {field : Field} (h : field.kind.isStructural = true)
    (name : String) : ctx.fragments name field = { value := none } := by
  rw [fragments, if_neg (FieldKind.ne_custom_of_isStructural h), plainFragments,
    baseMembers?_of_isStructural h]

theorem propertiesFrom_filter (fields : Dict Field) (properties : Dict Json) :
    ctx.propertiesFrom properties (fields.filter fun e => !e.2.kind.isStructural) =
      ctx.propertiesFrom properties fields := by
  induction fields generalizing properties with
  | nil => rfl
  | cons e rest ih =>
    obtain ⟨name, field⟩ := e
    cases hkind : field.kind.isStructural with
    | true => simp [propertiesFrom, hkind, ih, ctx.fragments_of_isStructural hkind, Dict.insertAll]
    | false => simp [propertiesFrom, hkind, ih]

theorem noticesOfFields_filter (fields : Dict Field) :
    ctx.noticesOfFields (fields.filter fun e => !e.2.kind.isStructural) =
      ctx.noticesOfFields fields := by
  unfold noticesOfFields
  induction fields with
  | nil => rfl
  | cons e rest ih =>
    cases hkind : e.2.kind.isStructural with
    | true => simp [hkind, ih, ctx.fragments_of_isStructural hkind]
    | false => simp [hkind, ih]

/-- The caller's types give a custom field a property under its own name and under no other. -/
def NamesOwn : Prop :=
  ∀ types ∈ ctx.custom, ∀ name field, ∀ fragments ∈ types name field, ∀ f ∈ fragments, f.1 = name

end FragmentContext

theorem HelperQueue.afterFields_filter (queue : HelperQueue) (fields : Dict Field) :
    queue.afterFields (fields.filter fun e => !e.2.kind.isStructural) =
      queue.afterFields fields := by
  unfold afterFields
  induction fields generalizing queue with
  | nil => rfl
  | cons e rest ih =>
    cases hkind : e.2.kind.isStructural with
    | true =>
      have hsame : queue.afterField e.2 = queue := by
        rw [afterField, FieldKind.isShared_of_isStructural hkind, if_neg Bool.false_ne_true]
      simp [hkind, ih, hsame]
    | false => simp [hkind, ih]

/-- A table has one fragment for a custom field, under the name of the field. -/
theorem PluginTable.namesOwn (ctx : FragmentContext) (table : Option PluginTable)
    (h : ctx.custom = table.map PluginTable.types) : ctx.NamesOwn := by
  intro types htypes name field fragments hfragments f hf
  rw [h] at htypes
  obtain ⟨table, -, rfl⟩ := Option.map_eq_some_iff.1 htypes
  obtain ⟨fragment, -, rfl⟩ := Option.map_eq_some_iff.1 hfragments
  rw [List.mem_singleton.1 hf]

/-! ## Components -/

namespace Component

variable {ctx : FragmentContext} {c : Component}

theorem dataFields_withoutStructure (c : Component) :
    c.withoutStructure.dataFields = c.dataFields.filter fun e => !e.2.kind.isStructural := by
  rw [dataFields, dataFields, withoutStructure, List.filter_filter, List.filter_filter]
  refine List.filter_congr fun e _ => ?_
  rw [Field.isStructural, Bool.not_or, Bool.not_not, Bool.and_self_left, Bool.and_comm]

/-- Every property has the name of a field that holds data, or one that every component has. -/
theorem exists_field_of_mem_properties (hown : ctx.NamesOwn) {p : String × Json}
    (h : p ∈ c.properties ctx) :
    p.1 ∈ injectedKeys ∨
      ∃ field, (p.1, field) ∈ c.dataFields ∧ field.kind.isStructural = false := by
  rcases properties_cases h with hinjected | ⟨⟨name, field⟩, he, -, fragments, hfragments, hp⟩ |
    ⟨types, htypes, ⟨name, field⟩, he, hkind, fragments, hfragments, hp⟩
  · exact .inl (List.mem_map_of_mem (f := Prod.fst) hinjected)
  · unfold FragmentContext.plainFragments at hfragments
    split at hfragments
    · cases hfragments
    · next members hmembers =>
      cases hfragments
      obtain rfl := List.mem_singleton.1 hp
      refine .inr ⟨field, he, Bool.eq_false_iff.2 fun hkind => ?_⟩
      cases (FragmentContext.baseMembers?_of_isStructural hkind).symm.trans hmembers
  · have hname : p.1 = name := hown types htypes name field fragments hfragments p hp
    have hcustom : field.kind = .custom := hkind
    exact .inr ⟨field, hname ▸ he, by rw [hcustom]; rfl⟩

/-- Of the properties, the same are required without the fields that arrange the editor. -/
theorem mem_requiredNames_withoutStructure (hown : ctx.NamesOwn)
    (hdistinct : Dict.Distinct c.fields) {p : String × Json} (h : p ∈ c.properties ctx) :
    p.1 ∈ c.withoutStructure.requiredNames ↔ p.1 ∈ c.requiredNames := by
  have hfields : (c.dataFields.map Prod.fst).Nodup :=
    hdistinct.sublist (List.filter_sublist.map Prod.fst)
  rw [mem_requiredNames, mem_requiredNames, dataFields_withoutStructure]
  rcases exists_field_of_mem_properties hown h with hinjected | ⟨field, hfield, hkind⟩
  · exact iff_of_true (.inl hinjected) (.inl hinjected)
  · refine or_congr_right (exists_congr fun other => and_congr_left fun _ => ?_)
    rw [List.mem_filter, and_iff_left_iff_imp]
    intro hother
    -- names are distinct, so the field of that name is the one that has the property
    have heq : (p.1, other) = (p.1, field) := List.inj_on_of_nodup_map hfields hother hfield rfl
    rw [heq, hkind]
    rfl

theorem properties_withoutStructure (ctx : FragmentContext) (c : Component) :
    c.withoutStructure.properties ctx = c.properties ctx := by
  rw [properties, dataFields_withoutStructure, ctx.propertiesFrom_filter]
  rfl

/-- The declaration of a component is the same without the fields that arrange the editor, and so
is its failure. -/
theorem generatedType_withoutStructure (hown : ctx.NamesOwn) (hdistinct : Dict.Distinct c.fields)
    (options : CompileOptions) :
    c.withoutStructure.generatedType ctx options = c.generatedType ctx options := by
  have htype (required : List String) : typeOfObject options [] [("$id", .str ("#/" ++ c.name)),
      ("title", .str c.name), ("type", .str "object"), ("required", Json.strings required),
      ("properties", .obj (c.properties ctx))] =
        (typesOfProperties options [] required (c.properties ctx)).map fun types =>
          .object types (if options.additionalProperties then some (.keyword "any") else none) :=
    typeOfObject_eq rfl (requiredNames_strings required) rfl
  have htypes : typesOfProperties options [] _ (c.properties ctx) = _ :=
    typesOfProperties_congr fun _ hp => mem_requiredNames_withoutStructure hown hdistinct hp
  have hcompile (name : String) :
      compile options name (c.withoutStructure.objectSchema ctx) =
        compile options name (c.objectSchema ctx) := by
    rw [objectSchema, objectSchema, properties_withoutStructure]
    refine compile_congr rfl rfl rfl ((htype _).trans ?_)
    rw [htypes]
    exact (htype _).symm
  rw [generatedType, hcompile]
  rfl

end Component

/-! ## Runs -/

namespace GeneratorConfig

variable (config : GeneratorConfig) {ctx : FragmentContext}

theorem componentsFrom_withoutStructure (hown : ctx.NamesOwn) {components : List Component}
    (hdistinct : ∀ c ∈ components, Dict.Distinct c.fields) (queue : HelperQueue) :
    config.componentsFrom ctx queue (components.map Component.withoutStructure) =
      config.componentsFrom ctx queue components := by
  induction components generalizing queue with
  | nil => rfl
  | cons c rest ih =>
    obtain ⟨hc, hrest⟩ := List.forall_mem_cons.1 hdistinct
    have hcomponent : config.component ctx c.withoutStructure = config.component ctx c := by
      unfold component
      rw [Component.generatedType_withoutStructure hown hc]
    rw [List.map_cons, componentsFrom, componentsFrom, Component.dataFields_withoutStructure,
      queue.afterFields_filter, ctx.noticesOfFields_filter, hcomponent, ih hrest]

theorem noticesFrom_withoutStructure (roster : Roster) (components : List Component) :
    roster.noticesFrom (components.map Component.withoutStructure) =
      roster.noticesFrom components := by
  induction components generalizing roster with
  | nil => rfl
  | cons c rest ih => exact congrArg (roster.noticesOf c ++ ·) (ih (roster.add c))

/-- **Fields that arrange the editor have no influence on the output.** Without them a run has the
same declarations in the same order, the same failures and the same notices. The caller's types
come from a table, if there are any, and the fields of a component have distinct names, as the
entries of any dictionary that is built by insertion. -/
theorem generate_withoutStructure (table : Option PluginTable)
    (hcustom : config.custom = table.map PluginTable.types) {components : List Component}
    (hdistinct : ∀ c ∈ components, Dict.Distinct c.fields) :
    config.generate (components.map Component.withoutStructure) = config.generate components := by
  have hlisting : (components.map Component.withoutStructure).map Component.listing =
      components.map Component.listing := by
    rw [List.map_map]
    rfl
  have hroster := Roster.ofComponents_congr hlisting
  have hown : (config.context components).NamesOwn :=
    PluginTable.namesOwn _ table hcustom
  rw [generate, generate, rosterNotices, rosterNotices, noticesFrom_withoutStructure, context,
    hroster, ← context, config.componentsFrom_withoutStructure hown hdistinct]

end GeneratorConfig

namespace Tinted

/-- A page with a tab, a section and a field of a kind that is not known, all of them required. -/
def page : Component where
  name := "page"
  fields := [("tab-seo", { kind := .custom, required := true }),
    ("layout", { kind := .section, required := true }), ("title", { kind := .text }),
    ("map", { kind := .other "map", required := true }), ("tint", { kind := .custom })]

/-- Every custom field is a text. -/
def table : PluginTable where
  fragments := [(PluginTable.fallback, HelperType.typed "string")]

/-- The types of custom fields come from the table. -/
def config : GeneratorConfig where
  custom := some table.types

/-- Two fields of the page are left, and two required names, with the same output. -/
theorem generate_withoutStructure_page :
    (config.custom = (some table).map PluginTable.types ∧
      ∀ c ∈ [page], Dict.Distinct c.fields) ∧
    Dict.keys page.withoutStructure.fields = ["title", "tint"] ∧
    page.requiredNames = ["_uid", "component", "layout", "map"] ∧
    page.withoutStructure.requiredNames = ["_uid", "component"] ∧
    config.generate ([page].map Component.withoutStructure) = config.generate [page] := by
  have hdistinct : ∀ c ∈ [page], Dict.Distinct c.fields := by decide
  exact ⟨⟨rfl, hdistinct⟩, by decide, by decide, by decide,
    config.generate_withoutStructure (some table) rfl hdistinct⟩

end Tinted

end Blokwork
