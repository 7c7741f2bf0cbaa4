import Blokwork.Proofs.TypeScript.Meaning

/-!
# Errors of schemas

An error that is met at a place of a schema is about this place or one below it, and never about
the name of the declaration (`typeOf_errorsBelow`). The errors of an object are those of its
properties (`exists_of_typesOfProperties_eq_error`), so that a schema has a type wherever its parts
have one: `Accepted` is kept by each form that a schema can take.
-/

namespace Blokwork.TypeScript

variable {α β : Type} {options : CompileOptions} {path : SchemaPath}

/-- The place that an error is about; the name of a declaration has none. -/
def CompileError.place? : CompileError → Option SchemaPath
  | .invalidName _ => none
  | .unsupportedType path _ => some path
  | .malformed path _ => some path

/-- The error is about the place or about one below it. -/
def CompileError.Below (path : SchemaPath) (e : CompileError) : Prop :=
  ∃ steps, e.place? = some (path ++ steps)

/-- All that can go wrong is at the place or below it. -/
def ErrorsBelow (path : SchemaPath) (r : Except CompileError α) : Prop :=
  ∀ e, r = .error e → e.Below path

/-! ## Places of errors -/

/-- The text of a place starts with the steps that lead to it. -/
theorem SchemaPath.prefix_text_properties (key : String) (steps : SchemaPath) :
    ("#/properties/" ++ key).toList <+:
      (SchemaPath.text (.key "properties" :: .key key :: steps)).toList := by
  refine ⟨(String.join (steps.map fun step => "/" ++ step.text)).toList, ?_⟩
  simp [SchemaPath.text, PathStep.text]

namespace ErrorsBelow

theorem ok (a : α) : ErrorsBelow path (.ok a) := nofun

theorem malformed (steps : SchemaPath) (rule : Malformation) :
    ErrorsBelow path (.error (.malformed (path ++ steps) rule) : Except CompileError α) := by
  rintro _ ⟨⟩
  exact ⟨steps, rfl⟩

theorem malformed_here (rule : Malformation) :
    ErrorsBelow path (.error (.malformed path rule) : Except CompileError α) := by
  have h : ErrorsBelow path (.error (.malformed (path ++ []) rule) : Except CompileError α) :=
    malformed [] rule
  rwa [List.append_nil] at h

theorem unsupportedType (steps : SchemaPath) (name : String) :
    ErrorsBelow path (.error (.unsupportedType (path ++ steps) name) : Except CompileError α) := by
  rintro _ ⟨⟩
  exact ⟨steps, rfl⟩

/-- What is below a place further down is below the place. -/
theorem above {steps : SchemaPath} {r : Except CompileError α}
    (h : ErrorsBelow (path ++ steps) r) :
    ErrorsBelow path r := by
  intro e he
  obtain ⟨more, hmore⟩ := h e he
  exact ⟨steps ++ more, by rw [hmore, List.append_assoc]⟩

theorem map {r : Except CompileError α} (h : ErrorsBelow path r) (f : α → β) :
    ErrorsBelow path (r.map f) := by
  cases r with
  | ok a => exact ok (f a)
  | error e =>
    rintro _ ⟨⟩
    exact h e rfl

theorem bind {r : Except CompileError α} (h : ErrorsBelow path r) {f : α → Except CompileError β}
    (hf : ∀ a, ErrorsBelow path (f a)) : ErrorsBelow path (r >>= f) := by
  cases r with
  | ok a => exact hf a
  | error e =>
    rintro _ ⟨⟩
    exact h e rfl

end ErrorsBelow

theorem requiredNames_errorsBelow (names : List Json) :
    ErrorsBelow path (requiredNames path names) := by
  induction names with
  | nil => exact .ok _
  | cons name names ih =>
    cases name with
    | str s => exact ih.map _
    | null | bool | num | arr | obj => exact .malformed_here _

theorem requiredOf_errorsBelow (node : Dict Json) : ErrorsBelow path (requiredOf path node) := by
  unfold requiredOf
  dsimp only
  split
  · exact .ok _
  · exact (requiredNames_errorsBelow _).above
  · exact .malformed _ _

theorem typesOfNames_errorsBelow {ofName : String → Except CompileError TypeExpr}
    (h : ∀ name, ErrorsBelow path (ofName name)) (start : Nat) (names : List Json) :
    ErrorsBelow path (typesOfNames path ofName start names) := by
  induction names generalizing start with
  | nil => exact .ok _
  | cons name names ih =>
    cases name with
    | str s => exact (h s).bind fun _ => (ih (start + 1)).bind fun _ => .ok _
    | null | bool | num | arr | obj => exact .malformed _ _

mutual

/-- The errors of a schema are at its place or below it. -/
theorem typeOf_errorsBelow (path : SchemaPath) (schema : Json) :
    ErrorsBelow path (typeOf options path schema) := by
  cases schema with
  | bool b => cases b <;> (rw [typeOf]; exact .ok _)
  | obj node =>
    rw [typeOf]
    exact typeOfNode_errorsBelow path node
  | null | num | str | arr => simpa [typeOf] using .malformed_here _
termination_by (sizeOf schema, 0)

theorem typeOfNode_errorsBelow (path : SchemaPath) (node : Dict Json) :
    ErrorsBelow path (typeOfNode options path node) := by
  rw [typeOfNode]
  split
  · exact .ok _
  · exact .malformed _ _
  split
  · exact .ok _
  split
  · exact .ok _
  · exact .malformed _ _
  split
  · exact (typesOfListed_errorsBelow _ _).above.map _
  split
  · exact (typesOfListed_errorsBelow _ _).above.map _
  split
  · exact (typesOfListed_errorsBelow _ _).above.map _
  split
  · exact typeOfName_errorsBelow path node _
  · exact (typesOfNames_errorsBelow (typeOfName_errorsBelow path node) 0 _).map _
  · exact .malformed _ _
  split
  · exact typeOfObject_errorsBelow path node
  split
  · exact typeOfArray_errorsBelow path node
  · exact .ok _
termination_by (sizeOf node, 3)
decreasing_by
  all_goals
    first
    | omega
    | have := sizeOf_lt_of_get? ‹Dict.get? node _ = some _›
      omega

theorem typeOfName_errorsBelow (path : SchemaPath) (node : Dict Json) (name : String) :
    ErrorsBelow path (typeOfName options path node name) := by
  rw [typeOfName]
  split
  · exact .ok _
  split
  · exact typeOfArray_errorsBelow path node
  split
  · exact typeOfObject_errorsBelow path node
  · exact .unsupportedType _ _
termination_by (sizeOf node, 2)

theorem typesOfListed_errorsBelow (path : SchemaPath) (schemas : Json) :
    ErrorsBelow path (typesOfListed options path schemas) := by
  cases schemas with
  | arr members =>
    rw [typesOfListed]
    exact typesOf_errorsBelow path 0 members
  | null | bool | num | str | obj => simpa [typesOfListed] using .malformed_here _
termination_by (sizeOf schemas, 0)

theorem typesOf_errorsBelow (path : SchemaPath) (start : Nat) (schemas : List Json) :
    ErrorsBelow path (typesOf options path start schemas) := by
  match schemas with
  | [] =>
    rw [typesOf]
    exact .ok _
  | schema :: rest =>
    rw [typesOf]
    exact (typeOf_errorsBelow _ schema).above.bind fun _ =>
      (typesOf_errorsBelow path (start + 1) rest).bind fun _ => .ok _
termination_by (sizeOf schemas, 0)

theorem typeOfArray_errorsBelow (path : SchemaPath) (node : Dict Json) :
    ErrorsBelow path (typeOfArray options path node) := by
  rw [typeOfArray]
  split
  · exact .ok _
  · exact (typesOf_errorsBelow _ 0 _).above.map _
  · exact (typeOf_errorsBelow _ _).above.map _
termination_by (sizeOf node, 0)
decreasing_by
  · have := sizeOf_lt_of_get? ‹Dict.get? node _ = some _›
    simp at this ⊢
    omega
  · exact Prod.Lex.left _ _ (sizeOf_lt_of_get? ‹Dict.get? node _ = some _›)

theorem typeOfObject_errorsBelow (path : SchemaPath) (node : Dict Json) :
    ErrorsBelow path (typeOfObject options path node) := by
  rw [typeOfObject]
  exact (propertiesOf_errorsBelow path node).bind fun _ =>
    (indexOf_errorsBelow path node).bind fun _ => .ok _
termination_by (sizeOf node, 1)

theorem propertiesOf_errorsBelow (path : SchemaPath) (node : Dict Json) :
    ErrorsBelow path (propertiesOf options path node) := by
  rw [propertiesOf]
  split
  · exact (requiredOf_errorsBelow node).map _
  · exact (requiredOf_errorsBelow node).bind fun required =>
      typesOfProperties_errorsBelow path required _
  · exact .malformed _ _
termination_by (sizeOf node, 0)
decreasing_by
  have := sizeOf_lt_of_get? ‹Dict.get? node _ = some _›
  simp at this ⊢
  omega

theorem indexOf_errorsBelow (path : SchemaPath) (node : Dict Json) :
    ErrorsBelow path (indexOf options path node) := by
  rw [indexOf]
  split
  · exact .ok _
  · exact .ok _
  · exact .ok _
  · exact (typeOfNode_errorsBelow _ _).above.map _
  · exact .malformed _ _
termination_by (sizeOf node, 0)
decreasing_by
  have := sizeOf_lt_of_get? ‹Dict.get? node _ = some _›
  simp at this ⊢
  omega

theorem typesOfProperties_errorsBelow (path : SchemaPath) (required : List String)
    (properties : List (String × Json)) :
    ErrorsBelow path (typesOfProperties options path required properties) := by
  match properties with
  | [] =>
    rw [typesOfProperties]
    exact .ok _
  | (key, schema) :: rest =>
    rw [typesOfProperties]
    exact (typeOf_errorsBelow _ schema).above.bind fun _ =>
      (typesOfProperties_errorsBelow path required rest).bind fun _ => .ok _
termination_by (sizeOf properties, 0)

end

/-! ## Errors of objects -/

/-- What goes wrong in two steps goes wrong in one of them. -/
theorem eq_error_or_of_bind_eq_error {ε : Type} {r : Except ε α} {f : α → Except ε β} {e : ε}
    (h : r >>= f = .error e) : r = .error e ∨ ∃ a, r = .ok a ∧ f a = .error e := by
  cases r with
  | error e' => exact .inl (congrArg _ (Except.error.inj h))
  | ok a => exact .inr ⟨a, rfl, h⟩

theorem eq_error_of_map_eq_error {ε : Type} {r : Except ε α} {f : α → β} {e : ε}
    (h : r.map f = .error e) : r = .error e := by
  cases r with
  | error e' => exact congrArg _ (Except.error.inj h)
  | ok a => cases h

/-- What goes wrong in properties goes wrong in one of them. -/
theorem exists_of_typesOfProperties_eq_error {required : List String} {properties : Dict Json}
    {e : CompileError} (h : typesOfProperties options path required properties = .error e) :
    ∃ p ∈ properties, typeOf options (path ++ [.key "properties", .key p.1]) p.2 = .error e := by
  induction properties with
  | nil => simp [typesOfProperties] at h
  | cons p rest ih =>
    obtain ⟨key, schema⟩ := p
    rw [typesOfProperties] at h
    rcases eq_error_or_of_bind_eq_error h with h | ⟨type, -, h⟩
    · exact ⟨_, List.mem_cons_self, h⟩
    rcases eq_error_or_of_bind_eq_error h with h | ⟨types, -, h⟩
    · obtain ⟨p, hp, h⟩ := ih h
      exact ⟨p, List.mem_cons_of_mem _ hp, h⟩
    · cases h

/-- The names of required properties are listed under their keyword, if at all. -/
def ListsRequired (node : Dict Json) : Prop :=
  ∀ value ∈ Dict.get? node "required", ∃ names, value = Json.strings names

theorem requiredNames_strings (names : List String) :
    requiredNames path (names.map .str) = .ok names := by
  induction names with
  | nil => rfl
  | cons name names ih => simp [requiredNames, ih, Except.map]

theorem exists_requiredOf {node : Dict Json} (h : ListsRequired node) (path : SchemaPath) :
    ∃ names, requiredOf path node = .ok names := by
  unfold requiredOf
  cases hvalue : Dict.get? node "required" with
  | none => exact ⟨[], rfl⟩
  | some value =>
    obtain ⟨names, rfl⟩ := h value hvalue
    exact ⟨names, requiredNames_strings names⟩

/-- Further keys that a node says nothing of are left to the options. -/
theorem indexOf_of_absent (options : CompileOptions) {node : Dict Json}
    (h : Dict.get? node "additionalProperties" = none) (path : SchemaPath) :
    indexOf options path node =
      .ok (if options.additionalProperties then some (.keyword "any") else none) := by
  rw [indexOf]
  split
  · rfl
  all_goals next hfound => cases h.symm.trans hfound

/-- The type of an object that says nothing of further keys has the types of its properties. -/
theorem typeOfObject_eq {node properties : Dict Json} {names : List String}
    (hproperties : Dict.get? node "properties" = some (.obj properties))
    (hrequired : requiredOf path node = .ok names)
    (hfurther : Dict.get? node "additionalProperties" = none) :
    typeOfObject options path node =
      (typesOfProperties options path names properties).map fun types =>
        .object types (if options.additionalProperties then some (.keyword "any") else none) := by
  have hpropertiesOf : propertiesOf options path node =
      typesOfProperties options path names properties := by
    rw [propertiesOf]
    split
    · next hnone => cases hproperties.symm.trans hnone
    · next found hfound =>
      obtain rfl := Json.obj.inj (Option.some.inj (hproperties.symm.trans hfound))
      rw [hrequired]
      rfl
    · next hother hfound =>
      exact absurd (Option.some.inj (hfound.symm.trans hproperties)) (hother _)
  rw [typeOfObject, hpropertiesOf, indexOf_of_absent options hfurther]
  rfl

/-- An object that lists what it requires and says nothing of further keys goes wrong in a
property. -/
theorem exists_of_typeOfObject_eq_error {node properties : Dict Json} {e : CompileError}
    (hproperties : Dict.get? node "properties" = some (.obj properties))
    (hrequired : ListsRequired node) (hfurther : Dict.get? node "additionalProperties" = none)
    (h : typeOfObject options path node = .error e) :
    ∃ p ∈ properties, typeOf options (path ++ [.key "properties", .key p.1]) p.2 = .error e := by
  obtain ⟨names, hnames⟩ := exists_requiredOf hrequired path
  rw [typeOfObject_eq hproperties hnames hfurther] at h
  exact exists_of_typesOfProperties_eq_error (eq_error_of_map_eq_error h)

/-- So does its declaration. -/
theorem exists_of_compile_eq_error {name : String} {node properties : Dict Json} {e : CompileError}
    (hname : isIdentifier name = true) (hnode : isObjectNode node = true)
    (hproperties : Dict.get? node "properties" = some (.obj properties))
    (hrequired : ListsRequired node) (hfurther : Dict.get? node "additionalProperties" = none)
    (h : compile options name (.obj node) = .error e) :
    ∃ p ∈ properties, typeOf options [.key "properties", .key p.1] p.2 = .error e := by
  have hdeclare := eq_error_of_map_eq_error h
  rw [declare_eq_map hname] at hdeclare
  have htype := eq_error_of_map_eq_error hdeclare
  rw [typeOf, typeOfNode_of_isObjectNode hnode] at htype
  exact exists_of_typeOfObject_eq_error hproperties hrequired hfurther htype

/-! ## Schemas without errors -/

/-- The schema has a type, wherever it stands. -/
def Accepted (options : CompileOptions) (schema : Json) : Prop :=
  ∀ path, ∃ t, typeOf options path schema = .ok t

/-- What cannot go wrong has a result. -/
theorem exists_of_forall_ne_error {r : Except CompileError α} (h : ∀ e, r ≠ .error e) :
    ∃ a, r = .ok a := by
  cases r with
  | ok a => exact ⟨a, rfl⟩
  | error e => exact absurd rfl (h e)

section Accepted

variable {node : Dict Json}

theorem Accepted.ne_error {schema : Json} (h : Accepted options schema) (path : SchemaPath)
    (e : CompileError) : typeOf options path schema ≠ .error e := by
  obtain ⟨t, ht⟩ := h path
  rw [ht]
  exact nofun

/-- A type given by its text. -/
theorem accepted_of_tsType {text : String} (h : Dict.get? node "tsType" = some (.str text)) :
    Accepted options (.obj node) := by
  intro path
  rw [typeOf, typeOfNode]
  simp [h]

/-- A choice among listed values. -/
theorem accepted_of_enum {values : List Json} (htext : Dict.get? node "tsType" = none)
    (hconst : Dict.get? node "const" = none) (h : Dict.get? node "enum" = some (.arr values)) :
    Accepted options (.obj node) := by
  intro path
  rw [typeOf, typeOfNode]
  simp [htext, hconst, h]

/-- A type given by its name. -/
theorem accepted_of_name {name : String} (habsent : Absent node overridingKeywords)
    (hname : Dict.get? node "type" = some (.str name))
    (h : ∀ path, ∃ t, typeOfName options path node name = .ok t) :
    Accepted options (.obj node) := by
  intro path
  rw [typeOf, typeOfNode_of_absent habsent, hname]
  exact h path

/-- A type that is named by a word of the language. -/
theorem accepted_of_plain {name : String} {t : TypeExpr} (habsent : Absent node overridingKeywords)
    (hname : Dict.get? node "type" = some (.str name)) (h : plainType? name = some t) :
    Accepted options (.obj node) :=
  accepted_of_name habsent hname fun path => ⟨t, by rw [typeOfName, h]⟩

/-- One of several types, each named by a word of the language. -/
theorem accepted_of_names {names : List String} (habsent : Absent node overridingKeywords)
    (hnames : Dict.get? node "type" = some (Json.strings names))
    (h : ∀ name ∈ names, (plainType? name).isSome = true) : Accepted options (.obj node) := by
  have htypes (path : SchemaPath) (start : Nat) : ∃ types, typesOfNames path
      (fun name => typeOfName options path node name) start (names.map .str) = .ok types := by
    clear hnames
    induction names generalizing start with
    | nil => exact ⟨[], rfl⟩
    | cons name names ih =>
      obtain ⟨hname, hnames⟩ := List.forall_mem_cons.1 h
      obtain ⟨t, ht⟩ := Option.isSome_iff_exists.1 hname
      obtain ⟨types, htypes⟩ := ih hnames (start + 1)
      refine ⟨t :: types, ?_⟩
      rw [List.map_cons, typesOfNames, htypes, typeOfName, ht]
      rfl
  intro path
  obtain ⟨types, htypes⟩ := htypes path 0
  rw [typeOf, typeOfNode_of_absent habsent, hnames]
  exact ⟨.union types, congrArg (Except.map TypeExpr.union) htypes⟩

/-- An array, of anything unless it says of what. -/
theorem accepted_of_array (habsent : Absent node overridingKeywords)
    (hname : Dict.get? node "type" = some (.str "array"))
    (h : ∀ item ∈ Dict.get? node "items", item.isArray = false ∧ Accepted options item) :
    Accepted options (.obj node) := by
  refine accepted_of_name habsent hname fun path => ?_
  rw [typeOfName_array, typeOfArray]
  split
  · exact ⟨_, rfl⟩
  · next items hitems => cases (h _ hitems).1
  · next item _ hitem =>
    obtain ⟨t, ht⟩ := (h _ hitem).2 (path ++ [.key "items"])
    exact ⟨.array t, by rw [ht]; rfl⟩

/-- An object of accepted properties, some of which it requires. -/
theorem accepted_of_object (habsent : Absent node overridingKeywords)
    (hname : Dict.get? node "type" = some (.str "object"))
    (hrequired : ListsRequired node) (hfurther : Dict.get? node "additionalProperties" = none)
    {properties : Dict Json} (hproperties : Dict.get? node "properties" = some (.obj properties))
    (h : ∀ p ∈ properties, Accepted options p.2) : Accepted options (.obj node) := by
  refine accepted_of_name habsent hname fun path => ?_
  rw [typeOfName_object]
  refine exists_of_forall_ne_error fun e he => ?_
  obtain ⟨p, hp, he⟩ := exists_of_typeOfObject_eq_error hproperties hrequired hfurther he
  exact (h p hp).ne_error _ e he

/-- An object without properties. -/
theorem accepted_of_bareObject (habsent : Absent node overridingKeywords)
    (hname : Dict.get? node "type" = some (.str "object")) (hrequired : ListsRequired node)
    (hfurther : Dict.get? node "additionalProperties" = none)
    (hproperties : Dict.get? node "properties" = none) : Accepted options (.obj node) := by
  refine accepted_of_name habsent hname fun path => ?_
  obtain ⟨names, hnames⟩ := exists_requiredOf hrequired path
  have hnone : propertiesOf options path node = .ok [] := by
    rw [propertiesOf]
    split
    · rw [hnames]
      rfl
    all_goals next hfound => cases hproperties.symm.trans hfound
  rw [typeOfName_object, typeOfObject, hnone, indexOf_of_absent options hfurther]
  exact ⟨_, rfl⟩

/-- One of several accepted alternatives. -/
theorem accepted_of_oneOf {members : List Json}
    (habsent : Absent node ["tsType", "const", "enum", "anyOf"])
    (hmembers : Dict.get? node "oneOf" = some (.arr members))
    (h : ∀ m ∈ members, Accepted options m) : Accepted options (.obj node) := by
  have htypes (path : SchemaPath) (start : Nat) :
      ∃ types, typesOf options path start members = .ok types := by
    clear hmembers
    induction members generalizing start with
    | nil => exact ⟨[], by rw [typesOf]⟩
    | cons m members ih =>
      obtain ⟨hm, hmembers⟩ := List.forall_mem_cons.1 h
      obtain ⟨t, ht⟩ := hm (path ++ [.index start])
      obtain ⟨types, htypes⟩ := ih hmembers (start + 1)
      refine ⟨t :: types, ?_⟩
      rw [typesOf, ht, htypes]
      rfl
  intro path
  obtain ⟨types, htypes⟩ := htypes (path ++ [.key "oneOf"]) 0
  simp only [Absent, List.forall_mem_cons] at habsent
  obtain ⟨htext, hconst, henum, hanyOf, -⟩ := habsent
  rw [typeOf, typeOfNode, htext, hconst, henum]
  dsimp only
  split
  · next hfound => cases hanyOf.symm.trans hfound
  split
  · next found hfound =>
    obtain rfl := Option.some.inj (hmembers.symm.trans hfound)
    exact ⟨.oneOf types, by rw [typesOfListed, htypes]; rfl⟩
  · next hnone => cases hmembers.symm.trans hnone

/-- A schema that has a type has a declaration under every identifier. -/
theorem exists_compile {name : String} (hname : isIdentifier name = true)
    (h : Accepted options (.obj node)) : ∃ text, compile options name (.obj node) = .ok text := by
  obtain ⟨t, ht⟩ := h []
  rw [compile, declare_eq_map hname, ht]
  exact ⟨_, rfl⟩

end Accepted

end Blokwork.TypeScript
