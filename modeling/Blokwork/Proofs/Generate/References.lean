import Blokwork.Artifact.Basic
import Blokwork.Proofs.Generate.Run

/-!
# References between declarations

A fragment of a field with a kind of its own refers to components of the roster, and to the helper
types that its field needs (`exists_of_mem_referredNames`); a helper type refers to those it
depends on and to itself (`HelperType.schema?_givesText`). The roster has the names of the
components, each of which has a declaration or a failure, and what the fields need is declared. So
nothing in a run refers to a type that is neither declared nor that of a failed component, but to
the type of a story, which every artifact imports (`generate_refersTo_known`).
-/

namespace Blokwork

open TypeScript

/-! ## Names in the roster -/

namespace Roster

/-- All names in the roster are of the kind, those in groups as well. -/
def Names (P : String → Prop) (roster : Roster) : Prop :=
  (∀ name ∈ roster.names, P name) ∧
    ∀ group members, roster.members? group = some members → ∀ name ∈ members, P name

/-- A roster with one more component has one more name. -/
theorem Names.add {P : String → Prop} {roster : Roster} (h : roster.Names P) {c : Component}
    (hc : P c.name) : (roster.add c).Names P := by
  obtain ⟨hnames, hgroups⟩ := h
  have haddName {names : List String} (hnames : ∀ name ∈ names, P name) :
      ∀ name ∈ addName names c.name, P name := by
    intro name hname
    rcases Component.mem_addName.1 hname with hname | rfl
    · exact hnames name hname
    · exact hc
  refine ⟨haddName hnames, fun group members hmembers => ?_⟩
  unfold members? Roster.add at hmembers
  dsimp only at hmembers
  split at hmembers
  · exact hgroups group members hmembers
  · next own _ =>
    rw [Dict.get?_insert] at hmembers
    split at hmembers
    · cases hmembers
      refine haddName ?_
      cases hown : Dict.get? roster.groups own with
      | none => exact nofun
      | some found => exact hgroups own found hown
    · exact hgroups group members hmembers

/-- The names in the roster are those of components. -/
theorem names_ofComponents (components : List Component) :
    (ofComponents components).Names fun name => ∃ c ∈ components, c.name = name := by
  have hfold (rest : List Component) (roster : Roster) (hrest : ∀ c ∈ rest, c ∈ components)
      (hroster : roster.Names fun name => ∃ c ∈ components, c.name = name) :
      (rest.foldl add roster).Names fun name => ∃ c ∈ components, c.name = name := by
    induction rest generalizing roster with
    | nil => exact hroster
    | cons c rest ih =>
      obtain ⟨hc, hrest⟩ := List.forall_mem_cons.1 hrest
      exact ih (roster.add c) hrest (hroster.add ⟨c, hc, rfl⟩)
  exact hfold components {} (fun _ hc => hc) ⟨nofun, nofun⟩

end Roster

/-! ## Names in fragments -/

namespace FragmentContext

variable {ctx : FragmentContext} {P : String → Prop}

/-- Names that are collected come from one side or from the other. -/
theorem mem_of_mem_foldl_addName {names more : List String} {name : String}
    (h : name ∈ more.foldl addName names) : name ∈ names ∨ name ∈ more := by
  induction more generalizing names with
  | nil => exact .inl h
  | cons first more ih =>
    rcases ih h with h | h
    · rcases Component.mem_addName.1 h with h | rfl
      · exact .inl h
      · exact .inr List.mem_cons_self
    · exact .inr (List.mem_cons_of_mem _ h)

/-- The members of groups are components of the roster. -/
theorem names_groupMembers (h : ctx.roster.Names P) (groups : List String) :
    ∀ name ∈ ctx.groupMembers groups, P name := by
  have hgroup (group : String) : ∀ name ∈ (ctx.roster.members? group).getD [], P name := by
    cases hmembers : ctx.roster.members? group with
    | none => exact nofun
    | some members => exact h.2 group members hmembers
  have hfold (found : List String) (hfound : ∀ name ∈ found, P name) :
      ∀ name ∈ groups.foldl (fun found group =>
        ((ctx.roster.members? group).getD []).foldl addName found) found, P name := by
    induction groups generalizing found with
    | nil => exact hfound
    | cons group groups ih =>
      refine ih _ fun name hname => ?_
      exact (mem_of_mem_foldl_addName hname).elim (hfound name) (hgroup group name)
  exact hfold [] nofun

/-- The components that may stand in a field are in the roster. -/
theorem names_allowedComponents (h : ctx.roster.Names P) {name : String} {field : Field}
    {allowed : List String} (hallowed : (ctx.allowedComponents name field).value = some allowed) :
    ∀ component ∈ allowed, P component := by
  unfold allowedComponents at hallowed
  split at hallowed
  · cases hallowed
    exact h.1
  split at hallowed
  · split at hallowed
    · cases hallowed
    · cases hallowed
      exact names_groupMembers h _
  · split at hallowed
    · cases hallowed
    · rw [List.partition_eq_filter_filter] at hallowed
      cases hallowed
      intro component hcomponent
      exact h.1 component (List.contains_iff_mem.1 (List.mem_filter.1 hcomponent).2)

/-- A field refers to components of the roster and to the kinds that it needs. -/
theorem exists_of_mem_referredNames (h : ctx.roster.Names P) {name referred : String}
    {field : Field}
    (hreferred : referred ∈ ctx.referredNames name field) :
    P referred ∨ ∃ kind ∈ field.helperKinds, kind.name = referred := by
  unfold referredNames at hreferred
  split at hreferred
  · cases hallowed : (ctx.allowedComponents name field).value with
    | none => simp [hallowed] at hreferred
    | some allowed =>
      rw [hallowed] at hreferred
      exact .inl (names_allowedComponents h hallowed referred hreferred)
  · split at hreferred
    · next hshared =>
      obtain rfl := List.mem_singleton.1 hreferred
      refine .inr ⟨field.kind, ?_, rfl⟩
      rw [Field.helperKinds, if_pos hshared]
      exact List.mem_append_right _ List.mem_cons_self
    · cases hreferred

end FragmentContext

/-! ## Names in helper types -/

/-- A field that needs a kind needs what this one depends on. -/
theorem Field.mem_helperKinds_of_mem_dependencies {field : Field} {kind needed : FieldKind}
    (h : kind ∈ field.helperKinds) (hneeded : needed ∈ HelperType.dependencies kind) :
    needed ∈ field.helperKinds := by
  unfold HelperType.dependencies at hneeded
  split at hneeded
  · obtain rfl := List.mem_singleton.1 hneeded
    unfold helperKinds at h ⊢
    cases hkind : field.kind <;> simp [hkind, FieldKind.isShared, HelperType.dependencies] at h ⊢
  · cases hneeded

namespace HelperType

section Texts

variable {T : String → Prop} {properties : List (String × Json)}

theorem givesText_typed (name : String) : (typed name).EveryObject (GivesText T) :=
  (Json.EveryObject_obj _).2 ⟨nofun, List.forall_mem_singleton.2 trivial⟩

theorem givesText_nullable (name : String) : (nullable name).EveryObject (GivesText T) :=
  (Json.EveryObject_obj _).2
    ⟨nofun, List.forall_mem_singleton.2 (FragmentContext.everyObject_strings _ _)⟩

theorem givesText_oneOfTexts (texts : List String) :
    (oneOfTexts texts).EveryObject (GivesText T) :=
  (Json.EveryObject_obj _).2
    ⟨nofun, List.forall_mem_singleton.2 (FragmentContext.everyObject_strings _ _)⟩

/-- A text that is given as a type is what has to refer to known types. -/
theorem givesText_verbatim {text : String} (h : T text) :
    (verbatim text).EveryObject (GivesText T) :=
  (Json.EveryObject_obj _).2
    ⟨fun other hother => by cases hother; exact h, List.forall_mem_singleton.2 trivial⟩

/-- Properties give the texts of their schemas; none of their keys is taken for a text of its
own. -/
theorem givesText_properties (hkey : Dict.get? properties "tsType" = none)
    (h : ∀ p ∈ properties, p.2.EveryObject (GivesText T)) :
    Json.EveryObject (GivesText T) (.obj properties) :=
  (Json.EveryObject_obj _).2 ⟨fun _ htext => by (rw [hkey] at htext; cases htext), h⟩

theorem givesText_looseObject (hkey : Dict.get? properties "tsType" = none)
    (h : ∀ p ∈ properties, p.2.EveryObject (GivesText T)) :
    (looseObject properties).EveryObject (GivesText T) :=
  (Json.EveryObject_obj _).2 ⟨nofun, List.forall_mem_cons.2
    ⟨trivial, List.forall_mem_singleton.2 (givesText_properties hkey h)⟩⟩

/-- An object gives the texts of its properties. -/
theorem givesText_object (required : List String) (hkey : Dict.get? properties "tsType" = none)
    (h : ∀ p ∈ properties, p.2.EveryObject (GivesText T)) :
    (object required properties).EveryObject (GivesText T) :=
  (Json.EveryObject_obj _).2 ⟨nofun, List.forall_mem_cons.2
    ⟨trivial, List.forall_mem_cons.2 ⟨FragmentContext.everyObject_strings _ _,
      List.forall_mem_singleton.2 (givesText_properties hkey h)⟩⟩⟩

/-- An array gives the texts of its item. -/
theorem givesText_arrayOf {item : Json} (h : item.EveryObject (GivesText T)) :
    (arrayOf item).EveryObject (GivesText T) :=
  (Json.EveryObject_obj _).2
    ⟨nofun, List.forall_mem_cons.2 ⟨trivial, List.forall_mem_singleton.2 h⟩⟩

theorem givesText_asset : asset.EveryObject (GivesText T) := by
  refine givesText_object _ rfl ?_
  simp [givesText_typed, givesText_nullable, givesText_oneOfTexts]

/-- A link may lead to a story, whose type every artifact imports. -/
theorem givesText_multilink (hstory : T "StoryblokStory<any>") :
    multilink.EveryObject (GivesText T) := by
  refine (Json.EveryObject_obj _).2 ⟨nofun, List.forall_mem_singleton.2 ?_⟩
  rw [Json.EveryObject_arr]
  simp [givesText_looseObject, givesText_typed, givesText_oneOfTexts, givesText_verbatim,
    linkTarget, hstory]

theorem givesText_tableCell (component : String) :
    (tableCell component).EveryObject (GivesText T) := by
  refine givesText_object _ rfl ?_
  simp [givesText_typed, givesText_oneOfTexts]

theorem givesText_table : table.EveryObject (GivesText T) := by
  have hcells (component : String) : (arrayOf (tableCell component)).EveryObject (GivesText T) :=
    givesText_arrayOf (givesText_tableCell component)
  refine givesText_object _ rfl ?_
  simp [givesText_object, givesText_arrayOf, givesText_typed, givesText_oneOfTexts, hcells]

/-- A rich text is made of rich texts. -/
theorem givesText_richtext {self : String} (hself : T self) (hany : T "any") :
    (richtext self).EveryObject (GivesText T) := by
  refine givesText_object _ rfl ?_
  simp [givesText_typed, givesText_arrayOf, givesText_verbatim, hself, hany]

end Texts

/-- A helper type gives as texts the types that it depends on, its own, and that of a story. -/
theorem schema?_givesText {namer : TypeNamer} {kind : FieldKind} {schema : Json}
    {T : String → Prop}
    (h : schema? namer kind = some schema) (hstory : T "StoryblokStory<any>") (hany : T "any")
    (htypes : ∀ needed ∈ dependencies kind ++ [kind], T (namer.typeName needed.name)) :
    schema.EveryObject (GivesText T) := by
  cases kind with
  | asset => cases h; exact givesText_asset
  | multiasset =>
    cases h
    exact givesText_arrayOf (givesText_verbatim (htypes _ List.mem_cons_self))
  | multilink => cases h; exact givesText_multilink hstory
  | table => cases h; exact givesText_table
  | richtext => cases h; exact givesText_richtext (htypes _ List.mem_cons_self) hany
  | _ => cases h

end HelperType

/-- The properties that every component has refer to no types. -/
theorem Component.givesText_injected {c : Component} {T : String → Prop} {p : String × Json}
    (h : p ∈ c.injectedProperties) : p.2.EveryObject (GivesText T) := by
  rcases List.mem_cons.1 h with rfl | h
  · exact HelperType.givesText_typed "string"
  · obtain rfl := List.mem_singleton.1 h
    exact (Json.EveryObject_obj _).2 ⟨nofun, List.forall_mem_cons.2
      ⟨trivial, List.forall_mem_singleton.2 (FragmentContext.everyObject_strings _ _)⟩⟩

/-! ## Names that a run knows -/

/-- The type of a story, which declarations take from elsewhere. -/
def storyType : String := "StoryblokStory"

/-- The run declares a type with that name, or leaves one out with its component, or the type is
that of a story. -/
def Generation.Knows (g : Generation) (namer : TypeNamer) (name : String) : Prop :=
  (∃ t ∈ g.types, t.typeName = name) ∨
    (∃ f ∈ g.failures, namer.typeName f.component = name) ∨ name = storyType

namespace GeneratorConfig

variable {config : GeneratorConfig} {components : List Component} {c : Component}

/-- A run knows the type of every component, as one that it declares or as one that failed. -/
theorem knows_component (hc : c ∈ components) :
    (config.generate components).Knows config.namer (config.namer.typeName c.name) := by
  cases hresult : c.generatedType (config.context components) config.compile with
  | ok t =>
    have hname := (Component.compile_of_generatedType hresult).1
    exact .inl ⟨t, Generation.mem_types_of_componentTypes (config.mem_componentTypes hc hresult),
      hname⟩
  | error f =>
    refine .inr (.inl ⟨f, config.mem_failures hc hresult, ?_⟩)
    rw [(Component.exists_of_generatedType_eq_error hresult).1]

/-- A run knows the helper types that its fields need. -/
theorem knows_helper (hc : c ∈ components) {e : String × Field} (he : e ∈ c.dataFields)
    {kind : FieldKind} (hkind : kind ∈ e.2.helperKinds) :
    (config.generate components).Knows config.namer (config.namer.typeName kind.name) := by
  obtain ⟨t, ht, hname, -⟩ :=
    config.exists_mem_of_mem_helperKinds hc (List.mem_flatMap.2 ⟨e, he, hkind⟩)
  exact .inl ⟨t, ht, hname⟩

/-- A fragment of a field with a kind of its own refers to types that the run knows. -/
theorem givesText_of_madeFor (hc : c ∈ components) {p : String × Json}
    (h : c.MadeFor (config.context components) p) :
    p.2.EveryObject
      (GivesText (TextRefersTo ((config.generate components).Knows config.namer))) := by
  obtain ⟨e, he, -, fragments, hfragments, hp⟩ := h
  refine FragmentContext.plainFragments_givesText _ hfragments (fun text htext => ?_) p hp
  obtain ⟨ts, hts, -, hrefers⟩ := FragmentContext.spellsTypeOf_typeText _ htext
  refine ⟨ts, hts, hrefers _ fun name hname => ?_⟩
  have hroster : (config.context components).roster.Names
      fun name => ∃ c ∈ components, c.name = name := Roster.names_ofComponents components
  rcases FragmentContext.exists_of_mem_referredNames hroster hname with h | ⟨kind, hkind, rfl⟩
  · obtain ⟨other, hother, rfl⟩ := h
    exact knows_component hother
  · exact knows_helper hc he hkind

/-- Where the declaration of a helper type comes from. -/
theorem exists_of_origin_helper {t : GeneratedType} (ht : t ∈ (config.generate components).types)
    {kind : FieldKind} (horigin : t.origin = .helper kind) :
    (∃ c ∈ components, ∃ e ∈ c.dataFields, kind ∈ e.2.helperKinds) ∧
      t.typeName = config.namer.typeName kind.name ∧
      ∃ schema, HelperType.schema? config.namer kind = some schema ∧
        TypeScript.compile config.compile t.typeName schema = .ok t.declaration := by
  obtain ⟨kinds, htypes, -, hmem⟩ := config.exists_helperTypes_generate components
  have hhelper : t ∈ (config.generate components).helperTypes :=
    List.mem_filter.2 ⟨ht, by rw [GeneratedType.isOfComponent, horigin]; rfl⟩
  rw [htypes, types_helpers, List.mem_flatMap] at hhelper
  obtain ⟨other, hother, ht⟩ := hhelper
  obtain ⟨c, hc, hneeded⟩ := (hmem other).1 hother
  obtain ⟨schema, declaration, hschema, hcompile, hhelper⟩ :=
    config.exists_helper (Component.isShared_of_mem_helperKinds hneeded)
  rw [hhelper] at ht
  obtain rfl := List.mem_singleton.1 ht
  cases horigin
  obtain ⟨e, he, hkind⟩ := List.mem_flatMap.1 hneeded
  exact ⟨⟨c, hc, e, he, hkind⟩, rfl, schema, hschema, hcompile⟩

/-- The schema of a helper type refers to types that the run knows. -/
theorem givesText_helper (hc : c ∈ components) {e : String × Field} (he : e ∈ c.dataFields)
    {kind : FieldKind} (hkind : kind ∈ e.2.helperKinds) {schema : Json}
    (hschema : HelperType.schema? config.namer kind = some schema) :
    schema.EveryObject
      (GivesText (TextRefersTo ((config.generate components).Knows config.namer))) := by
  have hstory : Spells "StoryblokStory<any>"
      [.word storyType, .mark '<', .word "any", .mark '>'] := by decide
  have hany : Spells "any" [.word "any"] := by decide
  have hanyWord : RefersTo ((config.generate components).Knows config.namer) [.word "any"] :=
    .of_mem_languageWords (by decide)
  refine HelperType.schema?_givesText hschema ⟨_, hstory, ?_⟩ ⟨_, hany, hanyWord⟩
    fun needed hneeded => ?_
  · exact (RefersTo.word (.inr (.inr rfl))).append
      ((RefersTo.mark '<').append (hanyWord.append (.mark '>')))
  · have hneededKind : needed ∈ e.2.helperKinds := by
      rcases List.mem_append.1 hneeded with hneeded | hneeded
      · exact Field.mem_helperKinds_of_mem_dependencies hkind hneeded
      · obtain rfl := List.mem_singleton.1 hneeded
        exact hkind
    exact ⟨_, lex_identifier (config.namer.isIdentifier_typeName _),
      .word (knows_helper hc he hneededKind)⟩

/-- The declaration of a helper type refers to types that the run knows. -/
theorem exists_line_of_origin_helper {t : GeneratedType}
    (ht : t ∈ (config.generate components).types) {kind : FieldKind}
    (horigin : t.origin = .helper kind) :
    ∃ line, t.declaration = Component.bannerLines config.compile ++ line ∧
      TextRefersTo ((config.generate components).Knows config.namer) line := by
  obtain ⟨⟨c, hc, e, he, hkind⟩, -, schema, hschema, hcompile⟩ :=
    exists_of_origin_helper ht horigin
  have hgives := givesText_helper hc he hkind hschema
  obtain ⟨node, rfl, hdescription⟩ := HelperType.exists_node_of_schema? hschema
  obtain ⟨d, hline, hname, hdname, -, hdescribes⟩ :=
    Component.exists_line_of_compile hdescription hcompile
  refine ⟨d.line config.compile.indent, hline, ?_⟩
  rw [← hdname] at hname
  refine Declaration.textRefersTo_line hname ?_ (hdescribes.textRefersTo hgives _ _)
  rw [hdname]
  exact .inl ⟨t, ht, rfl⟩

/-- The declaration of a component refers to types that the run knows, but for what the caller's
types returned. -/
theorem exists_line_of_origin_component {t : GeneratedType}
    (ht : t ∈ (config.generate components).types) {name : String}
    (horigin : t.origin = .component name) :
    ∃ c ∈ components, c.name = name ∧ ∃ ps index,
      t.declaration = Component.bannerLines config.compile ++ ("export interface " ++ t.typeName
        ++ " " ++ (TypeExpr.object ps index).print config.compile.indent 0 ++ "\n") ∧
      (∀ p ∈ ps,
        (∃ schema, c.ReturnedFor (config.context components) (p.1.key, schema) ∧
          Describes config.compile none schema p.2) ∨
        TextRefersTo ((config.generate components).Knows config.namer)
          (p.2.print config.compile.indent 1)) ∧
      ∀ u ∈ index, TextRefersTo ((config.generate components).Knows config.namer)
        (u.print config.compile.indent 1) := by
  have hcomponent : t ∈ (config.generate components).componentTypes :=
    List.mem_filter.2 ⟨ht, by rw [GeneratedType.isOfComponent, horigin]⟩
  obtain ⟨c, hc, hresult⟩ := config.exists_of_mem_componentTypes hcomponent
  have hown := c.hasOutcome_generatedType (config.context components) config.compile
  rw [hresult, Component.HasOutcome, horigin] at hown
  obtain ⟨d, members, further, hline, hdname, -, hform, hproperties, hmembers, hfurther, hbody⟩ :=
    Component.exists_interfaceForm hresult
  rw [Declaration.line, hform, hdname, hbody] at hline
  refine ⟨c, hc, (TypeOrigin.component.inj hown).symm, _, _, hline,
    List.forall_mem_map.2 fun m hm => ?_, ?_⟩
  · have hmem : (m.1, m.2.1) ∈ c.properties (config.context components) :=
      hproperties ▸ List.mem_map_of_mem hm
    rcases Component.properties_cases hmem with hinjected | hmade | hreturned
    · exact .inr ((hmembers m hm).textRefersTo (Component.givesText_injected hinjected) _ _)
    · exact .inr ((hmembers m hm).textRefersTo (givesText_of_madeFor hc hmade) _ _)
    · exact .inl ⟨m.2.1, hreturned, hmembers m hm⟩
  · intro u hu
    obtain ⟨p, hp, rfl⟩ := Option.map_eq_some_iff.1 hu
    obtain ⟨hanything, hp⟩ := hfurther p hp
    rw [hanything] at hp
    exact hp.textRefersTo (HelperType.givesText_typed "any") _ _

/-- **Nothing refers to a type that is missing.** The declarations of helper types, those of
components but for what the caller's types returned, and all other fragments, also those of
components without a declaration, refer to types that the run declares or leaves out with their
components, and to that of a story, which every artifact imports. -/
theorem generate_refersTo_known (config : GeneratorConfig) (components : List Component) :
    (∀ t ∈ (config.generate components).types, ∀ kind, t.origin = .helper kind →
      ∃ line, t.declaration = Component.bannerLines config.compile ++ line ∧
        TextRefersTo ((config.generate components).Knows config.namer) line) ∧
    (∀ t ∈ (config.generate components).types, ∀ name, t.origin = .component name →
      ∃ c ∈ components, c.name = name ∧ ∃ ps index,
        t.declaration = Component.bannerLines config.compile ++ ("export interface " ++ t.typeName
          ++ " " ++ (TypeExpr.object ps index).print config.compile.indent 0 ++ "\n") ∧
        (∀ p ∈ ps,
          (∃ schema, c.ReturnedFor (config.context components) (p.1.key, schema) ∧
            Describes config.compile none schema p.2) ∨
          TextRefersTo ((config.generate components).Knows config.namer)
            (p.2.print config.compile.indent 1)) ∧
        ∀ u ∈ index, TextRefersTo ((config.generate components).Knows config.namer)
          (u.print config.compile.indent 1)) ∧
    (∀ c ∈ components, ∀ p, c.MadeFor (config.context components) p →
      ∀ path, ∃ u, typeOf config.compile path p.2 = .ok u ∧
        ∀ level, TextRefersTo ((config.generate components).Knows config.namer)
          (u.print config.compile.indent level)) ∧
    Artifact.preamble.toList <+: (Artifact.emit (config.generate components).declarations).toList ∧
    Spells Artifact.preamble [.word "import", .word "type", .mark '\x7b', .word storyType,
      .mark '\x7d', .word "from", .text "\"storyblok-generate-ts\"", .mark ';', .lineBreak] := by
  refine ⟨fun t ht kind horigin => exists_line_of_origin_helper ht horigin,
    fun t ht name horigin => exists_line_of_origin_component ht horigin, ?_, ?_, ?_⟩
  · intro c hc p hp path
    obtain ⟨e, -, -, fragments, hfragments, hmem⟩ := id hp
    obtain ⟨u, hu⟩ := FragmentContext.accepted_of_plainFragments hfragments p hmem path
    exact ⟨u, hu, fun level =>
      (typeOf_describes hu).textRefersTo (givesText_of_madeFor hc hp) _ level⟩
  · cases hdeclarations : (config.generate components).declarations with
    | nil => exact List.prefix_refl _
    | cons first rest =>
      rw [Artifact.emit, String.intercalate_cons_cons, String.toList_append, String.toList_append,
        List.append_assoc]
      exact List.prefix_append _ _
  · decide

end GeneratorConfig

end Blokwork
