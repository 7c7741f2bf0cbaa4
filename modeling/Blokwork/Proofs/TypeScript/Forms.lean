import Blokwork.Proofs.TypeScript.Errors

/-!
# Forms of declarations

A declaration decides on its form before its schema gets a type, by a look of its own at the
keywords of the node. That look agrees with the order in which keywords count in types: a
declaration is an interface exactly where an object leads in the node (`isObjectNode_iff`), so that
nothing which takes precedence is passed over, and of the schemas that have a type these are the
ones whose type is an object (`Describes.isObject_iff`). In both forms the body is the text that
the schema has as a part of another one, and a declaration fails where that text does
(`compile_eq_render`).
-/

namespace Blokwork.TypeScript

/-! ## Texts of schemas -/

/-- The text of a schema that stands at a place of another one, on a nesting level. -/
def render (options : CompileOptions) (path : SchemaPath) (level : Nat) (schema : Json) :
    Except CompileError String :=
  (typeOf options path schema).map (TypeExpr.print options.indent level)

/-- The text of a node as an object, by its properties and the type of further keys. -/
def renderObject (options : CompileOptions) (path : SchemaPath) (level : Nat) (node : Dict Json) :
    Except CompileError String :=
  (typeOfObject options path node).map (TypeExpr.print options.indent level)

/-- What stands in front of the body of a declaration. -/
def DeclarationForm.head (name : String) : DeclarationForm → String
  | .interfaceForm => "export interface " ++ name ++ " "
  | .aliasForm => "export type " ++ name ++ " = "

/-- What stands behind the body of a declaration. -/
def DeclarationForm.tail : DeclarationForm → String
  | .interfaceForm => "\n"
  | .aliasForm => ";\n"

/-- What stands above the declaration of a node: the banner, and a comment on its description. -/
def leadOf (options : CompileOptions) (node : Dict Json) : String :=
  (match options.bannerComment.filter (!Text.isBlank ·) with
    | some text => Text.trimEnd text ++ "\n"
    | none => "")
  ++ (match description? node with
    | some text => docComment text ""
    | none => "")

/-! ## Interfaces -/

section Forms

variable {options : CompileOptions} {node : Dict Json}

/-- What leads in the node makes it an object: the name of that type, or its properties. -/
def LeadsToObject (node : Dict Json) : Prop :=
  (leading? node = some "type" ∧ Dict.get? node "type" = some (.str "object")) ∨
    leading? node = some "properties"

/-- A declaration is written as an interface where an object leads. -/
theorem isObjectNode_iff : isObjectNode node = true ↔ LeadsToObject node := by
  constructor
  · intro h
    obtain ⟨hany, htype⟩ := (Bool.and_eq_true _ _).mp h
    have habsent := absent_overridingKeywords_iff.1 (absent_of_any ((Bool.not_eq_true' _).mp hany))
    split at htype
    · next name hv =>
      obtain rfl := of_decide_eq_true htype
      exact .inl ⟨habsent.leading? (Dict.has_of_get? hv) rfl, hv⟩
    · next hv => exact .inr ((habsent.snoc hv).leading? htype rfl)
    · cases htype
  · rintro (⟨hleading, hvalue⟩ | hleading)
    · have habsent : Absent node ["tsType", "const", "enum", "anyOf", "oneOf", "allOf"] :=
        absent_of_leading hleading rfl (by decide)
      have hnone := (absent_overridingKeywords_iff.2 habsent).any
      simp [isObjectNode, hnone, hvalue]
    · have habsent : Absent node ["tsType", "const", "enum", "anyOf", "oneOf", "allOf", "type"] :=
        absent_of_leading hleading rfl (by decide)
      have hnone := (absent_overridingKeywords_iff.2 fun key hkey =>
        habsent key (List.mem_append_left ["type"] hkey)).any
      have htype : Dict.get? node "type" = none := habsent "type" (by decide)
      have hproperties : Dict.has node "properties" = true := List.find?_some hleading
      simp [isObjectNode, hnone, htype, hproperties]

/-- No keyword that takes precedence is present where an object leads. -/
theorem LeadsToObject.absent (h : LeadsToObject node) : Absent node overridingKeywords := by
  obtain ⟨hnone, -⟩ := (Bool.and_eq_true _ _).mp (isObjectNode_iff.2 h)
  exact absent_of_any ((Bool.not_eq_true' _).mp hnone)

/-- Where an object leads, the text of the schema is that of the object. -/
theorem LeadsToObject.render_eq (h : LeadsToObject node) (path : SchemaPath) (level : Nat) :
    render options path level (.obj node) = renderObject options path level node := by
  rw [render, renderObject, typeOf, typeOfNode_of_isObjectNode (isObjectNode_iff.2 h)]

/-! ## Types that are objects -/

/-- The type is that of an object. -/
def TypeExpr.IsObject (t : TypeExpr) : Prop := ∃ properties index, t = .object properties index

theorem not_isObject_keyword (word : String) : ¬ (TypeExpr.keyword word).IsObject := by
  rintro ⟨_, _, ⟨⟩⟩

theorem not_isObject_oneOf (members : List TypeExpr) : ¬ (TypeExpr.oneOf members).IsObject := by
  cases members <;> rintro ⟨_, _, ⟨⟩⟩

theorem not_isObject_allOf (members : List TypeExpr) : ¬ (TypeExpr.allOf members).IsObject := by
  cases members <;> rintro ⟨_, _, ⟨⟩⟩

/-- Another keyword leads to no object. -/
theorem not_leadsToObject {leading : Option String} (h : leading? node = leading)
    (htype : leading ≠ some "type") (hproperties : leading ≠ some "properties") :
    ¬ LeadsToObject node := by
  subst h
  rintro (⟨hleading, -⟩ | hleading)
  · exact htype hleading
  · exact hproperties hleading

/-- Of the types that are given by a name, that of objects is an object. -/
theorem Describes.isObject_iff_name {name : String} {t : TypeExpr}
    (h : Describes options (some name) (.obj node) t) : t.IsObject ↔ name = "object" := by
  cases h with
  | plain h =>
    obtain ⟨word, -, rfl⟩ := mem_typeKeywords_of_plainType? h
    refine iff_of_false (not_isObject_keyword word) ?_
    rintro rfl
    simp [plainType?] at h
  | list | tuple | array => exact iff_of_false (by rintro ⟨_, _, ⟨⟩⟩) (by decide)
  | object => exact iff_of_true ⟨_, _, rfl⟩ rfl

/-- The type of a schema is an object exactly where an object leads. -/
theorem Describes.isObject_iff {t : TypeExpr} (h : Describes options none (.obj node) t) :
    t.IsObject ↔ LeadsToObject node := by
  cases h with
  | untyped h =>
    exact iff_of_false (not_isObject_keyword _) (not_leadsToObject h (by simp) (by simp))
  | text h | constant h =>
    exact iff_of_false (by rintro ⟨_, _, ⟨⟩⟩) (not_leadsToObject h (by simp) (by simp))
  | values h =>
    exact iff_of_false (not_isObject_oneOf _) (not_leadsToObject h (by simp) (by simp))
  | alternatives h hkey =>
    refine iff_of_false (not_isObject_oneOf _) (not_leadsToObject h ?_ ?_) <;>
      rcases hkey with rfl | rfl <;> simp
  | parts h => exact iff_of_false (not_isObject_allOf _) (not_leadsToObject h (by simp) (by simp))
  | @named node name t h hvalue htype =>
    rw [htype.isObject_iff_name]
    constructor
    · rintro rfl
      exact .inl ⟨h, hvalue⟩
    · rintro (⟨-, hobject⟩ | hproperties)
      · exact Json.str.inj (Option.some.inj (hvalue.symm.trans hobject))
      · exact absurd (h.symm.trans hproperties) (by simp)
  | names h hvalue =>
    refine iff_of_false (by rintro ⟨_, _, ⟨⟩⟩) ?_
    rintro (⟨-, hobject⟩ | hproperties)
    · cases hvalue.symm.trans hobject
    · exact absurd (h.symm.trans hproperties) (by simp)
  | withProperties h htype => exact iff_of_true (htype.isObject_iff_name.2 rfl) (.inr h)
  | withItems h htype =>
    rw [htype.isObject_iff_name]
    exact iff_of_false (by decide) (not_leadsToObject h (by simp) (by simp))

/-! ## Declarations -/

/-- A declaration is its head, the text of the schema and its tail; it fails as that text does. -/
theorem compile_eq_map {name : String} (hname : isIdentifier name = true) :
    compile options name (.obj node) = (render options [] 0 (.obj node)).map fun body =>
      leadOf options node ++ ((formOf node).head name ++ body ++ (formOf node).tail) := by
  have hprint (body : TypeExpr) : (declarationOf options name node body).print options.indent =
      leadOf options node ++
        ((formOf node).head name ++ body.print options.indent 0 ++ (formOf node).tail) := by
    unfold Declaration.print declarationOf
    cases formOf node <;> rfl
  rw [compile, declare_eq_map hname, render]
  cases typeOf options [] (.obj node) with
  | error e => rfl
  | ok body => exact congrArg Except.ok (hprint body)

/-- **Declarations agree with the texts of their schemas.** A declaration is written exactly when
the text of its schema is, which then is the body behind its head, and otherwise it fails with the
same error. It is an interface exactly where an object leads: then no keyword that takes precedence
is present, and wherever the schema stands its text is that of an object. Of the schemas that have
a type, these are the ones whose type is an object. -/
theorem compile_eq_render {name : String} (hname : isIdentifier name = true)
    (options : CompileOptions) (node : Dict Json) :
    (compile options name (.obj node) = (render options [] 0 (.obj node)).map fun body =>
      leadOf options node ++ ((formOf node).head name ++ body ++ (formOf node).tail)) ∧
    (formOf node = .interfaceForm ↔ LeadsToObject node) ∧
    (formOf node = .interfaceForm → Absent node overridingKeywords ∧ ∀ path level,
      render options path level (.obj node) = renderObject options path level node) ∧
    ∀ path t, typeOf options path (.obj node) = .ok t →
      (formOf node = .interfaceForm ↔ t.IsObject) := by
  have hleads : formOf node = .interfaceForm ↔ LeadsToObject node :=
    formOf_eq_interfaceForm.trans isObjectNode_iff
  refine ⟨compile_eq_map hname, hleads, fun hform => ?_, fun path t ht => ?_⟩
  · have hobject := hleads.1 hform
    exact ⟨hobject.absent, hobject.render_eq⟩
  · rw [hleads, (typeOf_describes ht).isObject_iff]

end Forms

namespace Ticket

/-- An object with a property, over which the alternatives take precedence. -/
def node : Dict Json := [("type", .str "object"),
  ("properties", .obj [("code", .obj [("type", .str "string")])]),
  ("oneOf", .arr [.obj [("type", .str "integer")], .obj [("type", .str "null")]])]

theorem compile_eq_render_ticket :
    isIdentifier "Ticket" = true ∧
    compile {} "Ticket" (.obj node) = .ok "export type Ticket = number | null;\n" ∧
    (compile {} "Ticket" (.obj node) = (render {} [] 0 (.obj node)).map fun body =>
      leadOf {} node ++ ((formOf node).head "Ticket" ++ body ++ (formOf node).tail)) ∧
    (formOf node = .interfaceForm ↔ LeadsToObject node) ∧
    (formOf node = .interfaceForm → Absent node overridingKeywords ∧ ∀ path level,
      render {} path level (.obj node) = renderObject {} path level node) ∧
    ∀ path t, typeOf {} path (.obj node) = .ok t →
      (formOf node = .interfaceForm ↔ t.IsObject) := by
  have hname : isIdentifier "Ticket" = true := by decide
  have htype : typeOf {} [] (.obj node) = .ok (.union [.keyword "number", .keyword "null"]) := by
    simp [node, typeOf, typeOfNode, typesOfListed, typesOf, typeOfName, plainType?, TypeExpr.oneOf,
      bind, Except.bind, Except.map, pure, Except.pure]
  have htext : compile {} "Ticket" (.obj node) = .ok "export type Ticket = number | null;\n" := by
    rw [compile_eq_map hname, render, htype]
    rfl
  exact ⟨hname, htext, compile_eq_render hname {} node⟩

end Ticket

end Blokwork.TypeScript
