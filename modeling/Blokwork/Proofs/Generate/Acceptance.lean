import Blokwork.Generate.ComponentType
import Blokwork.Proofs.Generate.Interface
import Blokwork.Proofs.TypeScript.Errors

/-!
# Components without a declaration

The schemas of helper types have a type (`accepted_schema?`), and so has every fragment of a field
with a kind of its own (`accepted_of_plainFragments`). So a component is without a declaration only
because of a fragment that the caller's types return, and its error is below the property of this
fragment (`Component.exists_of_generatedType_eq_error`).
-/

namespace Blokwork

open TypeScript

variable {options : CompileOptions}

/-! ## Helper types -/

namespace HelperType

/-- A schema that only names a plain type has that type. -/
theorem accepted_typed {name : String} (h : (plainType? name).isSome = true) :
    Accepted options (typed name) := by
  obtain ⟨t, ht⟩ := Option.isSome_iff_exists.1 h
  exact accepted_of_plain (absent_of_any rfl) rfl ht

/-- A schema of a plain type or `null` has a type. -/
theorem accepted_nullable {name : String} (h : (plainType? name).isSome = true) :
    Accepted options (nullable name) :=
  accepted_of_names (absent_of_any rfl) rfl
    (List.forall_mem_cons.2 ⟨h, List.forall_mem_singleton.2 rfl⟩)

/-- Texts to choose from are literals. -/
theorem accepted_oneOfTexts (texts : List String) : Accepted options (oneOfTexts texts) :=
  accepted_of_enum rfl rfl rfl

/-- A text that is given as a type is not looked into. -/
theorem accepted_verbatim (text : String) : Accepted options (verbatim text) :=
  accepted_of_tsType rfl

/-- An object has a type when its properties have. -/
theorem accepted_object (required : List String) {properties : List (String × Json)}
    (h : ∀ p ∈ properties, Accepted options p.2) : Accepted options (object required properties) :=
  accepted_of_object (absent_of_any rfl) rfl (by rintro _ ⟨⟩; exact ⟨required, rfl⟩) rfl rfl h

/-- Keys beyond the properties bring no schema of their own. -/
theorem accepted_looseObject {properties : List (String × Json)}
    (h : ∀ p ∈ properties, Accepted options p.2) : Accepted options (looseObject properties) :=
  accepted_of_object (absent_of_any rfl) rfl nofun rfl rfl h

/-- An object may have no properties at all. -/
theorem accepted_typed_object : Accepted options (typed "object") :=
  accepted_of_bareObject (absent_of_any rfl) rfl nofun rfl rfl

/-- An array has a type when its item has. -/
theorem accepted_arrayOf {node : Dict Json} (h : Accepted options (.obj node)) :
    Accepted options (arrayOf (.obj node)) :=
  accepted_of_array (absent_of_any rfl) rfl (by rintro _ ⟨⟩; exact ⟨rfl, h⟩)

/-- The schema of an asset; none of its properties has properties of its own. -/
theorem accepted_asset : Accepted options asset := by
  refine accepted_object _ ?_
  simp [accepted_typed, accepted_typed_object, accepted_nullable, accepted_oneOfTexts, plainType?]

/-- The schema of a link. -/
theorem accepted_multilink : Accepted options multilink := by
  refine accepted_of_oneOf (absent_of_any rfl) rfl ?_
  simp [accepted_looseObject, accepted_typed, accepted_oneOfTexts, accepted_verbatim, plainType?,
    linkTarget]

/-- The schema of a cell of a table. -/
theorem accepted_tableCell (component : String) : Accepted options (tableCell component) := by
  refine accepted_object _ ?_
  simp [accepted_typed, accepted_oneOfTexts, plainType?]

/-- The schema of a table, whose cells are nested in arrays of rows. -/
theorem accepted_table : Accepted options table := by
  have hcells (component : String) : Accepted options (arrayOf (tableCell component)) :=
    accepted_arrayOf (accepted_tableCell component)
  have hrows : Accepted options (arrayOf (object ["_uid", "component", "body"]
      [("_uid", typed "string"), ("component", oneOfTexts ["_table_row"]),
        ("body", arrayOf (tableCell "_table_col"))])) := by
    refine accepted_arrayOf (accepted_object _ ?_)
    simp [accepted_typed, accepted_oneOfTexts, plainType?, hcells]
  refine accepted_object _ ?_
  simp [accepted_oneOfTexts, hcells, hrows]

/-- The schema of a rich text; it refers to itself by name, and so not by its schema. -/
theorem accepted_richtext (self : String) : Accepted options (richtext self) := by
  have hparts : Accepted options (arrayOf (verbatim self)) :=
    accepted_arrayOf (accepted_verbatim self)
  refine accepted_object _ ?_
  simp [accepted_typed, accepted_verbatim, plainType?, hparts]

/-- The schemas of helper types have a type. -/
theorem accepted_schema? (options : CompileOptions) {namer : TypeNamer} {kind : FieldKind}
    {schema : Json}
    (h : schema? namer kind = some schema) : Accepted options schema := by
  cases kind with
  | asset => cases h; exact accepted_asset
  | multiasset => cases h; exact accepted_arrayOf (accepted_verbatim _)
  | multilink => cases h; exact accepted_multilink
  | table => cases h; exact accepted_table
  | richtext => cases h; exact accepted_richtext _
  | _ => cases h

end HelperType

/-! ## Fragments of fields -/

namespace FragmentContext

variable {ctx : FragmentContext} {name : String} {field : Field}

/-- The schema of a choice, with a description or without. -/
theorem accepted_choiceSchema (options : CompileOptions) (field : Field)
    (description : Option String) :
    ∃ node, choiceSchema field = .obj node ∧
      Accepted options (.obj (node ++ textMember "description" description)) := by
  unfold choiceSchema
  split
  · refine ⟨_, rfl, ?_⟩
    cases description <;> exact accepted_of_plain (absent_of_any rfl) rfl rfl
  · refine ⟨_, rfl, ?_⟩
    cases description <;> exact accepted_of_enum rfl rfl rfl

/-- A fragment without a type as text. -/
theorem accepted_baseMembers {members : Dict Json} (h : baseMembers? field = some members)
    (htype : (ctx.typeText name field).value = none) (description : Option String) :
    Accepted options (.obj (members ++ textMember "description" description)) := by
  obtain ⟨node, hnode, hchoice⟩ := accepted_choiceSchema options field description
  obtain ⟨item, hitem, hplain⟩ := accepted_choiceSchema options field none
  rw [textMember, List.append_nil] at hplain
  unfold baseMembers? at h
  unfold typeText at htype
  cases hkind : field.kind with
  | text | textarea | markdown | datetime | number | boolean =>
    rw [hkind] at h
    cases h
    cases description <;> exact accepted_of_plain (absent_of_any rfl) rfl rfl
  | singleOption =>
    rw [hkind, hnode] at h
    cases h
    exact hchoice
  | multiOption =>
    rw [hkind, hitem] at h
    cases h
    cases description <;>
      exact accepted_of_array (absent_of_any rfl) rfl (by rintro _ ⟨⟩; exact ⟨rfl, hplain⟩)
  | bloks =>
    rw [hkind] at h
    cases h
    cases description <;>
      exact accepted_of_array (absent_of_any rfl) rfl (by rintro _ ⟨⟩)
  | asset | multiasset | multilink | table | richtext =>
    rw [hkind] at htype
    cases htype
  | _ =>
    rw [hkind] at h
    cases h

/-- The fragment of a field with a kind of its own has a type. -/
theorem accepted_of_plainFragments {fragments : Dict Json}
    (h : (ctx.plainFragments name field).value = some fragments) :
    ∀ f ∈ fragments, Accepted options f.2 := by
  unfold plainFragments at h
  split at h
  · cases h
  next members hmembers =>
  cases h
  refine List.forall_mem_singleton.2 ?_
  cases htype : (ctx.typeText name field).value with
  | none =>
    rw [textMember, List.append_nil]
    exact accepted_baseMembers hmembers htype _
  | some text =>
    have htext : Dict.get? (members ++ textMember "tsType" (some text)
        ++ textMember "description" field.description) "tsType" = some (.str text) := by
      rw [Dict.get?_append, Dict.get?_append, (baseMembers?_givesText hmembers).1]
      rfl
    exact accepted_of_tsType htext

end FragmentContext

/-! ## Components -/

namespace Component

variable {ctx : FragmentContext} {c : Component}

/-- The property was returned by the caller's types for a custom field. -/
def ReturnedFor (ctx : FragmentContext) (c : Component) (p : String × Json) : Prop :=
  ∃ types ∈ ctx.custom, ∃ e ∈ c.dataFields, e.2.kind = .custom ∧
    ∃ fragments ∈ types e.1 e.2, p ∈ fragments

/-- The property was made from a field with a kind of its own. -/
def MadeFor (ctx : FragmentContext) (c : Component) (p : String × Json) : Prop :=
  ∃ e ∈ c.dataFields, e.2.kind ≠ .custom ∧
    ∃ fragments, (ctx.plainFragments e.1 e.2).value = some fragments ∧ p ∈ fragments

/-- The properties that every component has. -/
def injectedProperties (c : Component) : Dict Json :=
  [(uidProperty, HelperType.typed "string"), (componentProperty, componentSchema c.name)]

/-- Where the properties of a component come from. -/
theorem properties_cases {p : String × Json} (h : p ∈ c.properties ctx) :
    p ∈ c.injectedProperties ∨ c.MadeFor ctx p ∨ c.ReturnedFor ctx p := by
  rcases Dict.mem_of_mem_insertAll h with h | h
  · obtain h | ⟨e, he, fragments, hfragments, hp⟩ := FragmentContext.mem_of_mem_propertiesFrom h
    · cases h
    unfold FragmentContext.fragments at hfragments
    split at hfragments
    · next hkind =>
      obtain ⟨types, htypes, hfragments⟩ := Option.bind_eq_some_iff.1 hfragments
      exact .inr (.inr ⟨types, htypes, e, he, hkind, fragments, hfragments, hp⟩)
    · next hkind => exact .inr (.inl ⟨e, he, hkind, fragments, hfragments, hp⟩)
  · exact .inl h

/-- The properties that every component has. -/
theorem accepted_injected {p : String × Json} (h : p ∈ c.injectedProperties) :
    Accepted options p.2 := by
  rcases List.mem_cons.1 h with rfl | h
  · exact HelperType.accepted_typed rfl
  · obtain rfl := List.mem_singleton.1 h
    exact accepted_of_enum rfl rfl rfl

/-- No other property stands under a key that every component has. -/
theorem mem_injectedProperties {p : String × Json} (h : p ∈ c.properties ctx)
    (hkey : p.1 ∈ injectedKeys) : p ∈ c.injectedProperties := by
  obtain ⟨key, schema⟩ := p
  have hdistinct := distinct_properties ctx c
  rcases List.mem_cons.1 hkey with rfl | hkey
  · obtain rfl := hdistinct.eq_of_mem (get?_properties_uid ctx c) h
    exact List.mem_cons_self
  · obtain rfl := List.mem_singleton.1 hkey
    obtain rfl := hdistinct.eq_of_mem (get?_properties_component ctx c) h
    exact List.mem_cons_of_mem _ List.mem_cons_self

/-- A component without a declaration has a property that the caller's types returned, below which
the error is. -/
theorem exists_of_generatedType_eq_error {f : ComponentFailure}
    (h : c.generatedType ctx options = .error f) :
    f.component = c.name ∧ ∃ p, c.ReturnedFor ctx p ∧ p.1 ∉ injectedKeys ∧
      f.error.Below [.key "properties", .key p.1] := by
  unfold generatedType at h
  dsimp only at h
  split at h
  · cases h
  next e hcompile =>
  cases h
  obtain ⟨p, hp, he⟩ := exists_of_compile_eq_error (ctx.namer.isIdentifier_typeName c.name) rfl rfl
    (by rintro _ ⟨⟩; exact ⟨c.requiredNames, rfl⟩) rfl hcompile
  have hnot : ¬ Accepted options p.2 := fun haccepted => haccepted.ne_error _ _ he
  obtain hinjected | ⟨e, he, -, fragments, hfragments, hmem⟩ | hreturned := properties_cases hp
  · exact absurd (accepted_injected hinjected) hnot
  · exact absurd (FragmentContext.accepted_of_plainFragments hfragments _ hmem) hnot
  · exact ⟨rfl, p, hreturned, fun hkey =>
      hnot (accepted_injected (mem_injectedProperties hp hkey)),
      typeOf_errorsBelow _ _ _ he⟩

/-- Without types of the caller, every component has a declaration. -/
theorem exists_generatedType (hcustom : ctx.custom = none) (options : CompileOptions)
    (c : Component) : ∃ t, c.generatedType ctx options = .ok t := by
  cases hresult : c.generatedType ctx options with
  | ok t => exact ⟨t, rfl⟩
  | error f =>
    obtain ⟨-, -, ⟨types, htypes, -⟩, -⟩ := exists_of_generatedType_eq_error hresult
    rw [hcustom] at htypes
    cases htypes

end Component

end Blokwork
