import Blokwork.Proofs.Json.Objects
import Blokwork.Proofs.Json.Reading
import Blokwork.Proofs.TypeScript.Printing
import Blokwork.TypeScript.Declaration

/-!
# What a declaration says about its schema

`Describes` says which type a schema describes, with one rule for each keyword and without a word
about how it is found: of the keywords of a node the first one in order counts (`leading?`),
alternatives make a union, parts an intersection, items an array or a tuple, and properties an
object in which a property is optional unless it is required. A schema describes no two types
(`Describes.unique`), and its type is the one it describes (`typeOf_describes`).

`compile_derives` puts this together with what printed types read as: the text of a declaration is
one, in the grammar of types, and the tree that is derived is that of the schema, up to parentheses
and chains inside chains.
-/

namespace Blokwork

namespace TypeScript

/-! ## Which type a schema describes -/

/-- The keywords that decide what a node is, the first one that is present. -/
def keywordOrder : List String :=
  ["tsType", "const", "enum", "anyOf", "oneOf", "allOf", "type", "properties", "items"]

/-- The keyword that decides what a node is. -/
def leading? (node : Dict Json) : Option String := keywordOrder.find? (Dict.has node)

/-- The properties of a node in order. -/
def propertiesIn (node : Dict Json) : Dict Json :=
  ((Dict.get? node "properties").bind Json.members?).getD []

/-- The names of the required properties of a node. -/
def requiredIn (node : Dict Json) : List String :=
  (((Dict.get? node "required").bind Json.items?).getD []).filterMap Json.string?

/-- What is known of a property besides its type: it is optional unless it is required. -/
def headIn (node : Dict Json) (key : String) (schema : Json) : PropertyHead where
  key := key
  description := schema.members?.bind description?
  optional := !(requiredIn node).contains key

/-- The schema of any value. -/
def anything : Json := .obj [("type", .str "any")]

/-- The schema of the keys of a node that have no property; `none` when there may be none. -/
def furtherKeys (options : CompileOptions) (node : Dict Json) : Option Json :=
  match Dict.get? node "additionalProperties" with
  | none => if options.additionalProperties then some anything else none
  | some (.bool false) => none
  | some (.bool true) => some anything
  | some schema => some schema

/-- The schema describes the type. With a name, the type that this name gives to the node. -/
inductive Describes (options : CompileOptions) : Option String → Json → TypeExpr → Prop where
  | everything : Describes options none (.bool true) options.untyped
  | nothing : Describes options none (.bool false) .never
  | untyped {node : Dict Json} (h : leading? node = none) :
    Describes options none (.obj node) options.untyped
  | text {node : Dict Json} {text : String} (h : leading? node = some "tsType")
      (hvalue : Dict.get? node "tsType" = some (.str text)) :
    Describes options none (.obj node) (.verbatim text)
  | constant {node : Dict Json} {value : Json} (h : leading? node = some "const")
      (hvalue : Dict.get? node "const" = some value) :
    Describes options none (.obj node) (.literal value)
  | values {node : Dict Json} {values : List Json} (h : leading? node = some "enum")
      (hvalue : Dict.get? node "enum" = some (.arr values)) :
    Describes options none (.obj node) (.oneOf (values.map .literal))
  | alternatives {node : Dict Json} {key : String} {members : List (Json × TypeExpr)}
      (h : leading? node = some key) (hkey : key = "anyOf" ∨ key = "oneOf")
      (hvalue : Dict.get? node key = some (.arr (members.map Prod.fst)))
      (hmembers : ∀ m ∈ members, Describes options none m.1 m.2) :
    Describes options none (.obj node) (.oneOf (members.map Prod.snd))
  | parts {node : Dict Json} {members : List (Json × TypeExpr)} (h : leading? node = some "allOf")
      (hvalue : Dict.get? node "allOf" = some (.arr (members.map Prod.fst)))
      (hmembers : ∀ m ∈ members, Describes options none m.1 m.2) :
    Describes options none (.obj node) (.allOf (members.map Prod.snd))
  | named {node : Dict Json} {name : String} {t : TypeExpr} (h : leading? node = some "type")
      (hvalue : Dict.get? node "type" = some (.str name))
      (htype : Describes options (some name) (.obj node) t) :
    Describes options none (.obj node) t
  | names {node : Dict Json} {members : List (String × TypeExpr)} (h : leading? node = some "type")
      (hvalue : Dict.get? node "type" = some (.arr (members.map fun m => .str m.1)))
      (hmembers : ∀ m ∈ members, Describes options (some m.1) (.obj node) m.2) :
    Describes options none (.obj node) (.union (members.map Prod.snd))
  | withProperties {node : Dict Json} {t : TypeExpr} (h : leading? node = some "properties")
      (htype : Describes options (some "object") (.obj node) t) :
    Describes options none (.obj node) t
  | withItems {node : Dict Json} {t : TypeExpr} (h : leading? node = some "items")
      (htype : Describes options (some "array") (.obj node) t) :
    Describes options none (.obj node) t
  | plain {node : Dict Json} {name : String} {t : TypeExpr} (h : plainType? name = some t) :
    Describes options (some name) (.obj node) t
  | list {node : Dict Json} (h : Dict.get? node "items" = none) :
    Describes options (some "array") (.obj node) (.array options.untyped)
  | tuple {node : Dict Json} {members : List (Json × TypeExpr)}
      (hvalue : Dict.get? node "items" = some (.arr (members.map Prod.fst)))
      (hmembers : ∀ m ∈ members, Describes options none m.1 m.2) :
    Describes options (some "array") (.obj node) (.tuple (members.map Prod.snd))
  | array {node : Dict Json} {item : Json} {t : TypeExpr}
      (hvalue : Dict.get? node "items" = some item) (hitem : Describes options none item t) :
    Describes options (some "array") (.obj node) (.array t)
  | object {node : Dict Json} {members : List (String × Json × TypeExpr)}
      {further : Option (Json × TypeExpr)}
      (hproperties : propertiesIn node = members.map fun m => (m.1, m.2.1))
      (hmembers : ∀ m ∈ members, Describes options none m.2.1 m.2.2)
      (hfurther : furtherKeys options node = further.map Prod.fst)
      (hindex : ∀ p ∈ further, Describes options none p.1 p.2) :
    Describes options (some "object") (.obj node)
      (.object (members.map fun m => (headIn node m.1 m.2.1, m.2.2)) (further.map Prod.snd))

/-! ## No schema describes two types -/

section Unique

variable {options : CompileOptions}

/-- Schemas that describe one type each describe one list of types. -/
theorem types_unique {α : Type} (D : α → TypeExpr → Prop) {ms ns : List (α × TypeExpr)}
    (hms : ∀ m ∈ ms, ∀ {u}, D m.1 u → m.2 = u) (hns : ∀ n ∈ ns, D n.1 n.2)
    (heq : ms.map Prod.fst = ns.map Prod.fst) : ms = ns := by
  induction ms generalizing ns with
  | nil =>
    cases ns with
    | nil => rfl
    | cons n ns => cases heq
  | cons m ms ih =>
    cases ns with
    | nil => cases heq
    | cons n ns =>
      obtain ⟨hm, hms⟩ := List.forall_mem_cons.1 hms
      obtain ⟨hn, hns⟩ := List.forall_mem_cons.1 hns
      obtain ⟨hfst, hrest⟩ := List.cons.inj heq
      rw [Prod.ext hfst (hm (hfst ▸ hn)), ih hms hns hrest]

/-- What describes an object. -/
theorem Describes.exists_object {node : Dict Json} {t : TypeExpr}
    (h : Describes options (some "object") (.obj node) t) :
    ∃ (members : List (String × Json × TypeExpr)) (further : Option (Json × TypeExpr)),
      propertiesIn node = members.map (fun m => (m.1, m.2.1)) ∧
      (∀ m ∈ members, Describes options none m.2.1 m.2.2) ∧
      furtherKeys options node = further.map Prod.fst ∧
      (∀ p ∈ further, Describes options none p.1 p.2) ∧
      t = .object (members.map fun m => (headIn node m.1 m.2.1, m.2.2))
        (further.map Prod.snd) := by
  generalize hname : "object" = name at h
  cases h with
  | plain h =>
    subst hname
    simp [plainType?] at h
  | object hproperties hmembers hfurther hindex =>
    exact ⟨_, _, hproperties, hmembers, hfurther, hindex, rfl⟩
  | list | tuple | array => simp at hname

/-- What describes an array. -/
theorem Describes.array_cases {node : Dict Json} {t : TypeExpr}
    (h : Describes options (some "array") (.obj node) t) :
    (Dict.get? node "items" = none ∧ t = .array options.untyped) ∨
    (∃ members : List (Json × TypeExpr),
      Dict.get? node "items" = some (.arr (members.map Prod.fst)) ∧
      (∀ m ∈ members, Describes options none m.1 m.2) ∧ t = .tuple (members.map Prod.snd)) ∨
    (∃ item u, Dict.get? node "items" = some item ∧ Describes options none item u ∧
      t = .array u) := by
  generalize hname : "array" = name at h
  cases h with
  | plain h =>
    subst hname
    simp [plainType?] at h
  | list h => exact .inl ⟨h, rfl⟩
  | tuple hvalue hmembers => exact .inr (.inl ⟨_, hvalue, hmembers, rfl⟩)
  | array hvalue hitem => exact .inr (.inr ⟨_, _, hvalue, hitem, rfl⟩)
  | object => simp at hname

/-- The type of a node whose name of a type leads. -/
theorem Describes.of_leading_type {node : Dict Json} {name : String} {t : TypeExpr}
    (hleading : leading? node = some "type") (hvalue : Dict.get? node "type" = some (.str name))
    (h : Describes options none (.obj node) t) : Describes options (some name) (.obj node) t := by
  cases h with
  | named _ hvalue' htype =>
    obtain rfl := Json.str.inj (Option.some.inj (hvalue.symm.trans hvalue'))
    exact htype
  | _ => simp_all

/-- A schema describes one type. -/
theorem Describes.unique {name : Option String} {schema : Json} {t u : TypeExpr}
    (h : Describes options name schema t) (h' : Describes options name schema u) : t = u := by
  induction h generalizing u with
  | everything => cases h'; rfl
  | nothing => cases h'; rfl
  | untyped h => cases h' <;> simp_all
  | text h hvalue => cases h' <;> simp_all
  | constant h hvalue => cases h' <;> simp_all
  | values h hvalue => cases h' <;> simp_all
  | @alternatives node key members h hkey hvalue hmembers ih =>
    cases h' with
    | alternatives h' _ hvalue' hmembers' =>
      obtain rfl := Option.some.inj (h.symm.trans h')
      have heq := Json.arr.inj (Option.some.inj (hvalue.symm.trans hvalue'))
      rw [types_unique (Describes options none) ih hmembers' heq]
    | _ => rcases hkey with rfl | rfl <;> simp_all
  | parts h hvalue hmembers ih =>
    cases h' with
    | parts h' hvalue' hmembers' =>
      have heq := Json.arr.inj (Option.some.inj (hvalue.symm.trans hvalue'))
      rw [types_unique (Describes options none) ih hmembers' heq]
    | _ => simp_all
  | named h hvalue htype ih =>
    cases h' with
    | named h' hvalue' htype' =>
      obtain rfl := Json.str.inj (Option.some.inj (hvalue.symm.trans hvalue'))
      exact ih htype'
    | _ => simp_all
  | @names node members h hvalue hmembers ih =>
    cases h' with
    | @names _ members' h' hvalue' hmembers' =>
      have heq := Json.arr.inj (Option.some.inj (hvalue.symm.trans hvalue'))
      have hnames : members.map Prod.fst = members'.map Prod.fst := by
        have hstr : Function.Injective Json.str := fun _ _ => Json.str.inj
        apply List.map_injective_iff.2 hstr
        simpa [List.map_map, Function.comp_def] using heq
      rw [types_unique (fun name => Describes options (some name) (.obj node)) ih hmembers' hnames]
    | _ => simp_all
  | withProperties h htype ih =>
    cases h' with
    | withProperties h' htype' => exact ih htype'
    | _ => simp_all
  | withItems h htype ih =>
    cases h' with
    | withItems h' htype' => exact ih htype'
    | _ => simp_all
  | @plain node name t h =>
    cases h' with
    | plain h' => exact Option.some.inj (h.symm.trans h')
    | list | tuple | array | object => simp [plainType?] at h
  | list h =>
    obtain ⟨-, rfl⟩ | ⟨members, hvalue', -⟩ | ⟨item, u, hvalue', -⟩ := h'.array_cases
    · rfl
    · cases h.symm.trans hvalue'
    · cases h.symm.trans hvalue'
  | tuple hvalue hmembers ih =>
    obtain ⟨h', -⟩ | ⟨members, hvalue', hmembers', rfl⟩ | ⟨item, u, hvalue', hitem', -⟩ :=
      h'.array_cases
    · cases h'.symm.trans hvalue
    · have heq := Json.arr.inj (Option.some.inj (hvalue.symm.trans hvalue'))
      rw [types_unique (Describes options none) ih hmembers' heq]
    · obtain rfl := Option.some.inj (hvalue.symm.trans hvalue')
      cases hitem'
  | array hvalue hitem ih =>
    obtain ⟨h', -⟩ | ⟨members, hvalue', -⟩ | ⟨item, u, hvalue', hitem', rfl⟩ := h'.array_cases
    · cases h'.symm.trans hvalue
    · obtain rfl := Option.some.inj (hvalue.symm.trans hvalue')
      cases hitem
    · obtain rfl := Option.some.inj (hvalue.symm.trans hvalue')
      rw [ih hitem']
  | @object node members further hproperties hmembers hfurther hindex ih ihindex =>
    obtain ⟨members', further', hproperties', hmembers', hfurther', hindex', rfl⟩ :=
      h'.exists_object
    let typed (m : String × Json × TypeExpr) : (String × Json) × TypeExpr := ((m.1, m.2.1), m.2.2)
    have hmembersEq : members.map typed = members'.map typed :=
      types_unique (fun p => Describes options none p.2) (List.forall_mem_map.2 ih)
        (List.forall_mem_map.2 hmembers')
        (by simpa [typed, List.map_map, Function.comp_def]
            using hproperties.symm.trans hproperties')
    have hheads := congrArg (List.map fun q => (headIn node q.1.1 q.1.2, q.2)) hmembersEq
    have hfurtherEq : further = further' := by
      rw [hfurther] at hfurther'
      match further, further' with
      | none, none => rfl
      | none, some p' => cases hfurther'
      | some p, none => cases hfurther'
      | some p, some p' =>
        have hfst : p.1 = p'.1 := Option.some.inj hfurther'
        rw [Prod.ext hfst (ihindex p rfl (hfst ▸ hindex' p' rfl))]
    simp only [List.map_map, typed, Function.comp_def] at hheads
    rw [hheads, hfurtherEq]
end Unique

/-! ## The type of a schema is the one it describes -/

section TypeOf

theorem requiredNames_eq {path : SchemaPath} {names : List Json} {required : List String}
    (h : requiredNames path names = .ok required) : required = names.filterMap Json.string? := by
  induction names generalizing required with
  | nil => cases h; rfl
  | cons name names ih =>
    cases name with
    | str s =>
      obtain ⟨rest, hrest, rfl⟩ := exists_of_map_eq_ok h
      rw [ih hrest]
      rfl
    | null | bool | num | arr | obj => cases h

/-- The required names that are found are those of the node. -/
theorem requiredOf_eq {path : SchemaPath} {node : Dict Json} {required : List String}
    (h : requiredOf path node = .ok required) : required = requiredIn node := by
  unfold requiredOf at h
  unfold requiredIn
  split at h
  · next hnode => cases h; simp [hnode]
  · next names hnode => simp [hnode, Json.items?, requiredNames_eq h]
  · cases h

theorem exists_of_typesOfNames {path : SchemaPath}
    {ofName : String → Except CompileError TypeExpr} {start : Nat} {names : List Json}
    {types : List TypeExpr} (h : typesOfNames path ofName start names = .ok types) :
    ∃ members : List (String × TypeExpr), names = members.map (fun m => .str m.1) ∧
      types = members.map Prod.snd ∧ ∀ m ∈ members, ofName m.1 = .ok m.2 := by
  induction names generalizing start types with
  | nil => cases h; exact ⟨[], rfl, rfl, nofun⟩
  | cons name names ih =>
    cases name with
    | str s =>
      rw [typesOfNames] at h
      obtain ⟨type, htype, h⟩ := exists_of_bind_eq_ok h
      obtain ⟨rest, hrest, h⟩ := exists_of_bind_eq_ok h
      cases h
      obtain ⟨members, rfl, rfl, hmembers⟩ := ih hrest
      exact ⟨(s, type) :: members, rfl, rfl, List.forall_mem_cons.2 ⟨htype, hmembers⟩⟩
    | null | bool | num | arr | obj => simp [typesOfNames] at h

/-- None of the keywords is present. -/
def Absent (node : Dict Json) (keys : List String) : Prop := ∀ k ∈ keys, Dict.get? node k = none

theorem absent_nil (node : Dict Json) : Absent node [] := nofun

theorem absent_of_any {node : Dict Json} {keys : List String}
    (h : keys.any (Dict.has node) = false) : Absent node keys := by
  simpa only [Absent, List.any_eq_false, Bool.not_eq_true, Dict.has_eq_false] using h

theorem Absent.any {node : Dict Json} {keys : List String} (h : Absent node keys) :
    keys.any (Dict.has node) = false := by
  simpa only [Absent, List.any_eq_false, Bool.not_eq_true, Dict.has_eq_false] using h

theorem Absent.snoc {node : Dict Json} {keys : List String} {key : String}
    (h : Absent node keys) (hkey : Dict.get? node key = none) : Absent node (keys ++ [key]) := by
  intro k hk
  rcases List.mem_append.1 hk with hk | hk
  · exact h k hk
  · exact List.mem_singleton.1 hk ▸ hkey

theorem Absent.find? {node : Dict Json} {keys : List String} (h : Absent node keys) :
    keys.find? (Dict.has node) = none := by
  rw [List.find?_eq_none]
  intro k hk
  rw [Bool.not_eq_true, Dict.has_eq_false]
  exact h k hk

/-- The keyword before which none is present leads. -/
theorem Absent.leading? {node : Dict Json} {before : List String} (hbefore : Absent node before)
    {key : String} (hkey : Dict.has node key = true) {after : List String}
    (horder : keywordOrder = before ++ key :: after) : leading? node = some key := by
  rw [TypeScript.leading?, horder, List.find?_append, hbefore.find?, Option.none_or,
    List.find?_cons, hkey]

/-- No keyword is present in front of the one that leads. -/
theorem absent_of_leading {node : Dict Json} {key : String} (h : leading? node = some key)
    {before after : List String} (horder : keywordOrder = before ++ key :: after)
    (hkey : key ∉ before) : Absent node before := by
  intro k hk
  rw [← Dict.has_eq_false, ← Bool.not_eq_true]
  intro hhas
  obtain ⟨first, hfirst⟩ := Option.isSome_iff_exists.1
    (List.find?_isSome.2 ⟨k, hk, hhas⟩ : (before.find? (Dict.has node)).isSome = true)
  rw [leading?, horder, List.find?_append, hfirst, Option.some_or, Option.some.injEq] at h
  exact hkey (h ▸ List.mem_of_find?_eq_some hfirst)

/-- The keywords in front of `type` are those that take precedence. -/
theorem absent_overridingKeywords_iff {node : Dict Json} : Absent node overridingKeywords ↔
    Absent node ["tsType", "const", "enum", "anyOf", "oneOf", "allOf"] := by
  have hkeys : ∀ key, key ∈ overridingKeywords ↔
      key ∈ ["tsType", "const", "enum", "anyOf", "oneOf", "allOf"] := by
    intro key
    simp only [overridingKeywords, List.mem_cons, List.not_mem_nil, or_false]
    tauto
  exact ⟨fun h key hkey => h key ((hkeys key).2 hkey),
    fun h key hkey => h key ((hkeys key).1 hkey)⟩

variable {options : CompileOptions}

/-- A node whose type is given by its names, or else by what it has. -/
theorem describes_of_types {path : SchemaPath} {node : Dict Json} {t : TypeExpr}
    {name : String → Except CompileError TypeExpr} {object array : Except CompileError TypeExpr}
    (habsent : Absent node ["tsType", "const", "enum", "anyOf", "oneOf", "allOf"])
    (hname : ∀ {s t}, name s = .ok t → Describes options (some s) (.obj node) t)
    (hobject : ∀ {t}, object = .ok t → Describes options (some "object") (.obj node) t)
    (harray : ∀ {t}, array = .ok t → Describes options (some "array") (.obj node) t)
    (h : (match Dict.get? node "type" with
      | some (.str s) => name s
      | some (.arr names) => (typesOfNames path name 0 names).map .union
      | some _ => .error (.malformed (path ++ [.key "type"]) .typeNotNames)
      | none =>
        if Dict.has node "properties" then object
        else if Dict.has node "items" then array
        else .ok options.untyped) = Except.ok (ε := CompileError) t) :
    Describes options none (.obj node) t := by
  split at h
  · next s hv => exact .named (habsent.leading? (Dict.has_of_get? hv) rfl) hv (hname h)
  · next names hv =>
    obtain ⟨types, htypes, rfl⟩ := exists_of_map_eq_ok h
    obtain ⟨members, rfl, rfl, hmembers⟩ := exists_of_typesOfNames htypes
    exact .names (habsent.leading? (Dict.has_of_get? hv) rfl) hv fun m hm => hname (hmembers m hm)
  · cases h
  · next hv =>
    have habsent := habsent.snoc hv
    split at h
    · next hproperties => exact .withProperties (habsent.leading? hproperties rfl) (hobject h)
    · next hproperties =>
      rw [Bool.not_eq_true, Dict.has_eq_false] at hproperties
      have habsent := habsent.snoc hproperties
      split at h
      · next hitems => exact .withItems (habsent.leading? hitems rfl) (harray h)
      · next hitems =>
        cases h
        rw [Bool.not_eq_true, Dict.has_eq_false] at hitems
        exact .untyped (habsent.snoc hitems).find?

/-- The schema of any value describes `any`. -/
theorem describes_anything : Describes options none anything (.keyword "any") :=
  .named rfl rfl (.plain rfl)

mutual

/-- The type of a schema is the one that it describes. -/
theorem typeOf_describes {path : SchemaPath} {schema : Json} {t : TypeExpr}
    (h : typeOf options path schema = .ok t) : Describes options none schema t := by
  cases schema with
  | bool b =>
    cases b <;> (rw [typeOf] at h; cases h)
    · exact .nothing
    · exact .everything
  | obj node =>
    rw [typeOf] at h
    exact typeOfNode_describes h
  | null | num | str | arr => simp [typeOf] at h
termination_by (sizeOf schema, 0)

theorem typeOfNode_describes {path : SchemaPath} {node : Dict Json} {t : TypeExpr}
    (h : typeOfNode options path node = .ok t) : Describes options none (.obj node) t := by
  rw [typeOfNode] at h
  have habsent := absent_nil node
  split at h
  · next text hv =>
    cases h
    exact .text (habsent.leading? (Dict.has_of_get? hv) rfl) hv
  · cases h
  next hv =>
  replace habsent := habsent.snoc hv
  split at h
  · next value hv =>
    cases h
    exact .constant (habsent.leading? (Dict.has_of_get? hv) rfl) hv
  next hv =>
  replace habsent := habsent.snoc hv
  split at h
  · next values hv =>
    cases h
    exact .values (habsent.leading? (Dict.has_of_get? hv) rfl) hv
  · cases h
  next hv =>
  replace habsent := habsent.snoc hv
  split at h
  · next members hv =>
    obtain ⟨types, htypes, rfl⟩ := exists_of_map_eq_ok h
    obtain ⟨pairs, rfl, rfl, hpairs⟩ := typesOfListed_describes htypes
    exact .alternatives (habsent.leading? (Dict.has_of_get? hv) rfl) (.inl rfl) hv hpairs
  next hv =>
  replace habsent := habsent.snoc hv
  split at h
  · next members hv =>
    obtain ⟨types, htypes, rfl⟩ := exists_of_map_eq_ok h
    obtain ⟨pairs, rfl, rfl, hpairs⟩ := typesOfListed_describes htypes
    exact .alternatives (habsent.leading? (Dict.has_of_get? hv) rfl) (.inr rfl) hv hpairs
  next hv =>
  replace habsent := habsent.snoc hv
  split at h
  · next members hv =>
    obtain ⟨types, htypes, rfl⟩ := exists_of_map_eq_ok h
    obtain ⟨pairs, rfl, rfl, hpairs⟩ := typesOfListed_describes htypes
    exact .parts (habsent.leading? (Dict.has_of_get? hv) rfl) hv hpairs
  next hv =>
  exact describes_of_types (habsent.snoc hv) typeOfName_describes typeOfObject_describes
    typeOfArray_describes h
termination_by (sizeOf node, 3)
decreasing_by
  all_goals
    first
    | omega
    | have := sizeOf_lt_of_get? ‹Dict.get? node _ = some _›
      omega

theorem typeOfName_describes {path : SchemaPath} {node : Dict Json} {name : String} {t : TypeExpr}
    (h : typeOfName options path node name = .ok t) :
    Describes options (some name) (.obj node) t := by
  rw [typeOfName] at h
  split at h
  · next hplain =>
    cases h
    exact .plain hplain
  split at h
  · next hname =>
    subst hname
    exact typeOfArray_describes h
  split at h
  · next hname =>
    subst hname
    exact typeOfObject_describes h
  · cases h
termination_by (sizeOf node, 2)

theorem typesOfListed_describes {path : SchemaPath} {schemas : Json} {types : List TypeExpr}
    (h : typesOfListed options path schemas = .ok types) :
    ∃ pairs : List (Json × TypeExpr), schemas = .arr (pairs.map Prod.fst) ∧
      types = pairs.map Prod.snd ∧ ∀ p ∈ pairs, Describes options none p.1 p.2 := by
  cases schemas with
  | arr members =>
    rw [typesOfListed] at h
    obtain ⟨pairs, rfl, rfl, hpairs⟩ := typesOf_describes h
    exact ⟨pairs, rfl, rfl, hpairs⟩
  | null | bool | num | str | obj => simp [typesOfListed] at h
termination_by (sizeOf schemas, 0)

theorem typesOf_describes {path : SchemaPath} {start : Nat} {schemas : List Json}
    {types : List TypeExpr} (h : typesOf options path start schemas = .ok types) :
    ∃ pairs : List (Json × TypeExpr), schemas = pairs.map Prod.fst ∧
      types = pairs.map Prod.snd ∧ ∀ p ∈ pairs, Describes options none p.1 p.2 := by
  match schemas with
  | [] =>
    rw [typesOf] at h
    cases h
    exact ⟨[], rfl, rfl, nofun⟩
  | schema :: rest =>
    rw [typesOf] at h
    obtain ⟨type, htype, h⟩ := exists_of_bind_eq_ok h
    obtain ⟨types, htypes, h⟩ := exists_of_bind_eq_ok h
    cases h
    obtain ⟨pairs, rfl, rfl, hpairs⟩ := typesOf_describes htypes
    exact ⟨(schema, type) :: pairs, rfl, rfl,
      List.forall_mem_cons.2 ⟨typeOf_describes htype, hpairs⟩⟩
termination_by (sizeOf schemas, 0)

theorem typeOfArray_describes {path : SchemaPath} {node : Dict Json} {t : TypeExpr}
    (h : typeOfArray options path node = .ok t) :
    Describes options (some "array") (.obj node) t := by
  rw [typeOfArray] at h
  split at h
  · next hv =>
    cases h
    exact .list hv
  · next items hv =>
    obtain ⟨types, htypes, rfl⟩ := exists_of_map_eq_ok h
    obtain ⟨pairs, rfl, rfl, hpairs⟩ := typesOf_describes htypes
    exact .tuple hv hpairs
  · next item _ hv =>
    obtain ⟨type, htype, rfl⟩ := exists_of_map_eq_ok h
    exact .array hv (typeOf_describes htype)
termination_by (sizeOf node, 0)
decreasing_by
  · have := sizeOf_lt_of_get? ‹Dict.get? node _ = some _›
    simp at this ⊢
    omega
  · exact Prod.Lex.left _ _ (sizeOf_lt_of_get? ‹Dict.get? node _ = some _›)

theorem typeOfObject_describes {path : SchemaPath} {node : Dict Json} {t : TypeExpr}
    (h : typeOfObject options path node = .ok t) :
    Describes options (some "object") (.obj node) t := by
  rw [typeOfObject] at h
  obtain ⟨properties, hproperties, h⟩ := exists_of_bind_eq_ok h
  obtain ⟨index, hindex, h⟩ := exists_of_bind_eq_ok h
  cases h
  obtain ⟨members, hnode, rfl, hmembers⟩ := propertiesOf_describes hproperties
  obtain ⟨further, hfurther, rfl, hdescribes⟩ := indexOf_describes hindex
  exact .object hnode hmembers hfurther hdescribes
termination_by (sizeOf node, 1)

theorem propertiesOf_describes {path : SchemaPath} {node : Dict Json}
    {properties : List (PropertyHead × TypeExpr)}
    (h : propertiesOf options path node = .ok properties) :
    ∃ members : List (String × Json × TypeExpr),
      propertiesIn node = members.map (fun m => (m.1, m.2.1)) ∧
      properties = members.map (fun m => (headIn node m.1 m.2.1, m.2.2)) ∧
      ∀ m ∈ members, Describes options none m.2.1 m.2.2 := by
  rw [propertiesOf] at h
  split at h
  · next hv =>
    obtain ⟨required, -, rfl⟩ := exists_of_map_eq_ok h
    exact ⟨[], by simp [propertiesIn, hv], rfl, nofun⟩
  · next members hv =>
    obtain ⟨required, hrequired, h⟩ := exists_of_bind_eq_ok h
    obtain ⟨entries, rfl, rfl, hentries⟩ := typesOfProperties_describes h
    refine ⟨entries, by simp [propertiesIn, hv, Json.members?], ?_, hentries⟩
    rw [requiredOf_eq hrequired]
    rfl
  · cases h
termination_by (sizeOf node, 0)
decreasing_by
  have := sizeOf_lt_of_get? ‹Dict.get? node _ = some _›
  simp at this ⊢
  omega

theorem indexOf_describes {path : SchemaPath} {node : Dict Json} {index : Option TypeExpr}
    (h : indexOf options path node = .ok index) :
    ∃ further : Option (Json × TypeExpr), furtherKeys options node = further.map Prod.fst ∧
      index = further.map Prod.snd ∧ ∀ p ∈ further, Describes options none p.1 p.2 := by
  have hany : ∀ p ∈ some (anything, TypeExpr.keyword "any"), Describes options none p.1 p.2 := by
    rintro _ ⟨⟩
    exact describes_anything
  rw [indexOf] at h
  split at h
  · next hv =>
    cases h
    by_cases hopen : options.additionalProperties = true
    · exact ⟨some (anything, .keyword "any"), by simp [furtherKeys, hv, hopen],
        by simp [hopen], hany⟩
    · exact ⟨none, by simp [furtherKeys, hv, hopen], by simp [hopen], nofun⟩
  · next hv =>
    cases h
    exact ⟨none, by simp [furtherKeys, hv], rfl, nofun⟩
  · next hv =>
    cases h
    exact ⟨some (anything, .keyword "any"), by simp [furtherKeys, hv], rfl, hany⟩
  · next schema hv =>
    obtain ⟨type, htype, rfl⟩ := exists_of_map_eq_ok h
    refine ⟨some (.obj schema, type), by simp [furtherKeys, hv], rfl, ?_⟩
    rintro _ ⟨⟩
    exact typeOfNode_describes htype
  · cases h
termination_by (sizeOf node, 0)
decreasing_by
  have := sizeOf_lt_of_get? ‹Dict.get? node _ = some _›
  simp at this ⊢
  omega

theorem typesOfProperties_describes {path : SchemaPath} {required : List String}
    {properties : List (String × Json)} {types : List (PropertyHead × TypeExpr)}
    (h : typesOfProperties options path required properties = .ok types) :
    ∃ members : List (String × Json × TypeExpr),
      properties = members.map (fun m => (m.1, m.2.1)) ∧
      types = members.map (fun m =>
        (⟨m.1, m.2.1.members?.bind description?, !required.contains m.1⟩, m.2.2)) ∧
      ∀ m ∈ members, Describes options none m.2.1 m.2.2 := by
  match properties with
  | [] =>
    rw [typesOfProperties] at h
    cases h
    exact ⟨[], rfl, rfl, nofun⟩
  | (key, schema) :: rest =>
    rw [typesOfProperties] at h
    obtain ⟨type, htype, h⟩ := exists_of_bind_eq_ok h
    obtain ⟨types, htypes, h⟩ := exists_of_bind_eq_ok h
    cases h
    obtain ⟨members, rfl, rfl, hmembers⟩ := typesOfProperties_describes htypes
    exact ⟨(key, schema, type) :: members, rfl, rfl,
      List.forall_mem_cons.2 ⟨typeOf_describes htype, hmembers⟩⟩
termination_by (sizeOf properties, 0)

end

end TypeOf

/-! ## Kinds of nodes and kinds of types -/

/-- What is asked of a kind of nodes and a kind of types when schemas of such nodes are to describe
types of such trees. -/
structure Suits (Q : Dict Json → Prop) (P : TypeExpr → Prop) : Prop where
  anything : Q [("type", .str "any")]
  keyword : ∀ {word}, word ∈ typeKeywords → P (.keyword word)
  literal : ∀ value, P (.literal value)
  verbatim : ∀ {node text}, Q node → Dict.get? node "tsType" = some (.str text) →
    P (.verbatim text)
  union : ∀ {members}, members ≠ [] → P (.union members)
  noNames : ∀ {node}, Q node → Dict.get? node "type" = some (.arr []) → P (.union [])
  intersection : ∀ {members}, members ≠ [] → P (.intersection members)
  array : ∀ item, P (.array item)
  tuple : ∀ items, P (.tuple items)
  object : ∀ properties index, P (.object properties index)

section Kinds

variable {options : CompileOptions} {Q : Dict Json → Prop} {P : TypeExpr → Prop}

theorem untyped_mem_typeKeywords (options : CompileOptions) :
    ∃ word ∈ typeKeywords, options.untyped = .keyword word := by
  unfold CompileOptions.untyped
  split
  · exact ⟨"any", by decide, rfl⟩
  · exact ⟨"unknown", by decide, rfl⟩

theorem mem_typeKeywords_of_plainType? {name : String} {t : TypeExpr}
    (h : plainType? name = some t) :
    ∃ word ∈ typeKeywords, t = .keyword word := by
  unfold plainType? at h
  split at h
  · exact ⟨"string", by decide, (Option.some.inj h).symm⟩
  split at h
  · exact ⟨"number", by decide, (Option.some.inj h).symm⟩
  split at h
  · exact ⟨"boolean", by decide, (Option.some.inj h).symm⟩
  split at h
  · exact ⟨"null", by decide, (Option.some.inj h).symm⟩
  split at h
  · exact ⟨"any", by decide, (Option.some.inj h).symm⟩
  · cases h

namespace Suits

variable (hsuits : Suits Q P)

include hsuits

theorem untyped (options : CompileOptions) : options.untyped.Everywhere P := by
  obtain ⟨word, hword, heq⟩ := untyped_mem_typeKeywords options
  rw [heq]
  exact hsuits.keyword hword

theorem never : TypeExpr.never.Everywhere P := hsuits.keyword (by decide)

theorem oneOf {members : List TypeExpr} (h : ∀ m ∈ members, m.Everywhere P) :
    (TypeExpr.oneOf members).Everywhere P := by
  cases members with
  | nil => exact hsuits.never
  | cons m ms => exact (TypeExpr.Everywhere_union _).2 ⟨hsuits.union (by simp), h⟩

theorem allOf {members : List TypeExpr} (h : ∀ m ∈ members, m.Everywhere P) :
    (TypeExpr.allOf members).Everywhere P := by
  cases members with
  | nil => exact hsuits.never
  | cons m ms => exact (TypeExpr.Everywhere_intersection _).2 ⟨hsuits.intersection (by simp), h⟩

end Suits

/-- The properties of a node. -/
theorem everyObject_properties {node : Dict Json} (h : Json.EveryObject Q (.obj node)) :
    ∀ p ∈ propertiesIn node, Json.EveryObject Q p.2 := by
  unfold propertiesIn
  cases hvalue : Dict.get? node "properties" with
  | none => exact nofun
  | some value =>
    cases value with
    | obj properties => exact ((Json.EveryObject_obj _).1 (h.get? hvalue)).2
    | null | bool | num | str | arr => exact nofun

/-- The schema of the keys without a property. -/
theorem everyObject_furtherKeys (options : CompileOptions) (hany : Q [("type", .str "any")])
    {node : Dict Json} (h : Json.EveryObject Q (.obj node)) :
    ∀ schema ∈ furtherKeys options node, Json.EveryObject Q schema := by
  have hanything : Json.EveryObject Q anything :=
    (Json.EveryObject_obj _).2 ⟨hany, List.forall_mem_singleton.2 trivial⟩
  intro schema hschema
  unfold furtherKeys at hschema
  split at hschema
  · split at hschema <;> cases hschema
    exact hanything
  · cases hschema
  · cases hschema
    exact hanything
  · next hvalue =>
    cases hschema
    exact h.get? hvalue

/-- The types of schemas with such nodes have such trees. -/
theorem Describes.everywhere (hsuits : Suits Q P) {name : Option String} {schema : Json}
    {t : TypeExpr} (h : Describes options name schema t) (hschema : schema.EveryObject Q) :
    t.Everywhere P := by
  induction h with
  | everything => exact hsuits.untyped options
  | nothing => exact hsuits.never
  | untyped => exact hsuits.untyped options
  | text _ hvalue => exact hsuits.verbatim ((Json.EveryObject_obj _).1 hschema).1 hvalue
  | constant => exact hsuits.literal _
  | values => exact hsuits.oneOf (List.forall_mem_map.2 fun value _ => hsuits.literal value)
  | alternatives _ _ hvalue _ ih =>
    have hitems := hschema.items hvalue
    exact hsuits.oneOf (List.forall_mem_map.2 fun m hm => ih m hm (hitems m hm))
  | parts _ hvalue _ ih =>
    have hitems := hschema.items hvalue
    exact hsuits.allOf (List.forall_mem_map.2 fun m hm => ih m hm (hitems m hm))
  | named _ _ _ ih => exact ih hschema
  | @names node members _ hvalue _ ih =>
    refine (TypeExpr.Everywhere_union _).2 ⟨?_, List.forall_mem_map.2 fun m hm => ih m hm hschema⟩
    cases members with
    | nil => exact hsuits.noNames ((Json.EveryObject_obj _).1 hschema).1 hvalue
    | cons m ms => exact hsuits.union (by simp)
  | withProperties _ _ ih => exact ih hschema
  | withItems _ _ ih => exact ih hschema
  | plain h =>
    obtain ⟨word, hword, rfl⟩ := mem_typeKeywords_of_plainType? h
    exact hsuits.keyword hword
  | list => exact ⟨hsuits.array _, hsuits.untyped options⟩
  | tuple hvalue _ ih =>
    have hitems := hschema.items hvalue
    exact (TypeExpr.Everywhere_tuple _).2
      ⟨hsuits.tuple _, List.forall_mem_map.2 fun m hm => ih m hm (hitems m hm)⟩
  | array hvalue _ ih => exact ⟨hsuits.array _, ih (hschema.get? hvalue)⟩
  | @object node members further hproperties _ hfurther _ ihProperties ihFurther =>
    have hmembers := everyObject_properties hschema
    have hkeys := everyObject_furtherKeys options hsuits.anything hschema
    rw [hproperties] at hmembers
    rw [hfurther] at hkeys
    refine (TypeExpr.Everywhere_object _ _).2 ⟨hsuits.object _ _, ?_, ?_⟩
    · exact List.forall_mem_map.2 fun m hm =>
        ihProperties m hm (hmembers _ (List.mem_map_of_mem hm))
    · intro t ht
      obtain ⟨p, hp, rfl⟩ := Option.map_eq_some_iff.1 ht
      exact ihFurther p hp (hkeys _ (Option.mem_map_of_mem Prod.fst hp))

end Kinds

/-! ## The text of a declaration -/

/-- The node takes no text as it is and names types where it lists them. -/
def Plain (node : Dict Json) : Prop :=
  Dict.get? node "tsType" = none ∧ Dict.get? node "type" ≠ some (.arr [])

theorem suits_plain_regular : Suits Plain TypeExpr.Regular where
  anything := ⟨rfl, by decide⟩
  keyword h := h
  literal _ := trivial
  verbatim h hvalue := by
    rw [h.1] at hvalue
    cases hvalue
  union h := h
  noNames h hvalue := absurd hvalue h.2
  intersection h := h
  array _ := trivial
  tuple _ := trivial
  object _ _ := trivial

/-- Only text that is taken as it is can end in an open string or comment. -/
theorem suits_lexical {Q : Dict Json → Prop} (hanything : Q [("type", .str "any")])
    (hverbatim : ∀ {node text}, Q node → Dict.get? node "tsType" = some (.str text) →
      (lex text.toList).isSome = true) : Suits Q TypeExpr.Lexical where
  anything := hanything
  keyword {word} h := by
    have hidentifier : ∀ w ∈ typeKeywords, isIdentifier w = true := by decide
    exact hidentifier word h
  literal _ := trivial
  verbatim := hverbatim
  union _ := trivial
  noNames _ _ := trivial
  intersection _ := trivial
  array _ := trivial
  tuple _ := trivial
  object _ _ := trivial

/-- The tokens of a text without its line breaks. -/
def significantTokens? (text : String) : Option (List Token) := (lex text.toList).map significant

/-- The grammar of declarations: the tokens declare the type under the name. -/
inductive Declares (name : String) : List Token → TypeExpr → Prop where
  | interfaceForm {ts : List Token} {ps : List (PropertyHead × TypeExpr)} {index : Option TypeExpr}
      (h : Derives .primary ts (.object ps index)) :
    Declares name ([.word "export", .word "interface", .word name] ++ ts) (.object ps index)
  | aliasForm {ts : List Token} {t : TypeExpr} (h : Derives .union ts t) :
    Declares name ([.word "export", .word "type", .word name, .mark '='] ++ (ts ++ [.mark ';'])) t

section Text

variable {name body : String} {ts : List Token}

/-- A part behind a name. -/
theorem spells_named {lead rest : String} {leading us : List Token}
    (hname : isIdentifier name = true)
    (hlead : Closed lead.toList leading) (hrest : Spells rest us)
    (hapart : StartsApart rest.toList) :
    Spells (lead ++ name ++ rest) (leading ++ .word name :: us) := by
  unfold Spells at hrest ⊢
  rw [String.toList_append, String.toList_append, List.append_assoc]
  exact hlead.lex_append (lex_append (lex_identifier hname) hrest hapart)

theorem spells_interface (hname : isIdentifier name = true) (hbody : Spells body ts) :
    Spells ("export interface " ++ name ++ " " ++ body ++ "\n")
      ([.word "export", .word "interface", .word name] ++ (ts ++ [.lineBreak])) := by
  have hblank : Closed " ".toList [] := by decide
  have hrest : Spells (" " ++ body ++ "\n") (ts ++ [.lineBreak]) := by
    have hbreak : Spells "\n" [.lineBreak] := by decide
    have hline := spells_append hbody hbreak (by decide)
    unfold Spells at hline ⊢
    simpa using hblank.lex_append hline
  have hlead : Closed "export interface ".toList [.word "export", .word "interface"] := by decide
  have happ := spells_named hname hlead hrest (by simp [StartsApart]; decide)
  simpa [String.append_assoc] using happ

theorem spells_alias (hname : isIdentifier name = true) (hbody : Spells body ts) :
    Spells ("export type " ++ name ++ " = " ++ body ++ ";\n")
      ([.word "export", .word "type", .word name, .mark '='] ++
        (ts ++ [.mark ';', .lineBreak])) := by
  have hequals : Closed " = ".toList [.mark '='] := by decide
  have hrest : Spells (" = " ++ body ++ ";\n") (.mark '=' :: (ts ++ [.mark ';', .lineBreak])) := by
    have hend : Spells ";\n" [.mark ';', .lineBreak] := by decide
    have hline := spells_append hbody hend (by decide)
    unfold Spells at hline ⊢
    simpa using hequals.lex_append hline
  have hlead : Closed "export type ".toList [.word "export", .word "type"] := by decide
  have happ := spells_named hname hlead hrest (by simp [StartsApart]; decide)
  simpa [String.append_assoc] using happ

end Text

namespace Declaration

variable (width : Nat) (d : Declaration)

/-- The lines above a declaration: its banner and its comment. -/
def lead : String :=
  (match d.banner with
    | some text => Text.trimEnd text ++ "\n"
    | none => "")
  ++ (match d.description with
    | some text => docComment text ""
    | none => "")

/-- A declaration below the lines above it. -/
def line : String :=
  match d.form with
  | .interfaceForm => "export interface " ++ d.name ++ " " ++ d.body.print width 0 ++ "\n"
  | .aliasForm => "export type " ++ d.name ++ " = " ++ d.body.print width 0 ++ ";\n"

theorem print_eq : d.print width = d.lead ++ d.line width := by
  unfold print lead line
  cases d.form <;> rfl

variable {d}

/-- A comment leaves no token but its line break. -/
theorem closed_lead (hbanner : d.banner = none) :
    Closed d.lead.toList (if d.description.isSome then [.lineBreak] else []) := by
  unfold lead
  rw [hbanner]
  cases d.description with
  | none => exact closed_nil
  | some text =>
    have hpad : ∀ c ∈ "".toList, c = ' ' := nofun
    simpa using closed_docComment text hpad

end Declaration

/-! ## Declarations of schemas -/

section Declarations

variable {options : CompileOptions} {node : Dict Json} {name : String} {d : Declaration}

/-- Without a keyword that takes precedence, a type is given by names, or else by what the node
has. -/
theorem typeOfNode_of_absent (h : Absent node overridingKeywords) (path : SchemaPath) :
    typeOfNode options path node =
      match Dict.get? node "type" with
      | some (.str name) => typeOfName options path node name
      | some (.arr names) =>
        (typesOfNames path (fun name => typeOfName options path node name) 0 names).map .union
      | some _ => .error (.malformed (path ++ [.key "type"]) .typeNotNames)
      | none =>
        if Dict.has node "properties" then typeOfObject options path node
        else if Dict.has node "items" then typeOfArray options path node
        else .ok options.untyped := by
  simp only [Absent, overridingKeywords, List.forall_mem_cons] at h
  obtain ⟨htext, henum, hconst, hanyOf, honeOf, hallOf, -⟩ := h
  rw [typeOfNode, htext, hconst, henum]
  dsimp only
  split
  · next hfound => cases hanyOf.symm.trans hfound
  split
  · next hfound => cases honeOf.symm.trans hfound
  split
  · next hfound => cases hallOf.symm.trans hfound
  rfl

theorem typeOfName_array (path : SchemaPath) :
    typeOfName options path node "array" = typeOfArray options path node := by
  rw [typeOfName]
  rfl

theorem typeOfName_object (path : SchemaPath) :
    typeOfName options path node "object" = typeOfObject options path node := by
  rw [typeOfName]
  rfl

/-- An object by its properties alone has the type of an object. -/
theorem typeOfNode_of_isObjectNode (h : isObjectNode node = true) (path : SchemaPath) :
    typeOfNode options path node = typeOfObject options path node := by
  obtain ⟨hany, htype⟩ := (Bool.and_eq_true _ _).mp h
  rw [typeOfNode_of_absent (absent_of_any ((Bool.not_eq_true' _).mp hany))]
  split at htype
  · next name hname =>
    rw [hname, of_decide_eq_true htype]
    exact typeOfName_object path
  · next hname =>
    rw [hname, htype]
    rfl
  · cases htype

/-- The form of the declaration of a node. -/
def formOf (node : Dict Json) : DeclarationForm :=
  if isObjectNode node then .interfaceForm else .aliasForm

theorem formOf_eq_interfaceForm : formOf node = .interfaceForm ↔ isObjectNode node = true := by
  unfold formOf
  split
  · next h => exact iff_of_true rfl h
  · next h => exact iff_of_false nofun h

/-- The declaration of a node with that body. -/
def declarationOf (options : CompileOptions) (name : String) (node : Dict Json) (body : TypeExpr) :
    Declaration where
  name := name
  banner := options.bannerComment.filter (!Text.isBlank ·)
  description := description? node
  form := formOf node
  body := body

/-- In either form the body of a declaration is the type of its schema. -/
theorem declare_eq_map (hname : isIdentifier name = true) : declare options name (.obj node) =
    (typeOf options [] (.obj node)).map (declarationOf options name node) := by
  unfold declare
  by_cases hobject : isObjectNode node = true
  · have hform := formOf_eq_interfaceForm.2 hobject
    simp only [hname, hobject, Bool.not_true, Bool.false_eq_true, if_false, if_true, typeOf,
      typeOfNode_of_isObjectNode hobject]
    cases typeOfObject options [] node with
    | error e => rfl
    | ok body => exact congrArg Except.ok (by rw [declarationOf, hform])
  · have hform : formOf node = .aliasForm := if_neg hobject
    simp only [hname, hobject, Bool.not_true, Bool.false_eq_true, if_false]
    cases typeOf options [] (.obj node) with
    | error e => rfl
    | ok body => exact congrArg Except.ok (by rw [declarationOf, hform])

theorem isIdentifier_of_declare {schema : Json} (h : declare options name schema = .ok d) :
    isIdentifier name = true := by
  unfold declare at h
  split at h
  · cases h
  · next hname => simpa using hname

/-- What a declaration takes from its schema. -/
theorem exists_of_declare_eq_ok {schema : Json} (h : declare options name schema = .ok d) :
    isIdentifier name = true ∧ d.name = name ∧
      d.banner = options.bannerComment.filter (!Text.isBlank ·) ∧
      Describes options none schema d.body ∧
      (d.form = .interfaceForm → ∃ ps index, d.body = .object ps index) := by
  have hname := isIdentifier_of_declare h
  cases schema with
  | obj node =>
    rw [declare_eq_map hname] at h
    obtain ⟨body, hbody, rfl⟩ := exists_of_map_eq_ok h
    refine ⟨hname, rfl, rfl, typeOf_describes hbody, fun hform => ?_⟩
    rw [typeOf, typeOfNode_of_isObjectNode (formOf_eq_interfaceForm.1 hform), typeOfObject]
      at hbody
    obtain ⟨ps, -, hbody⟩ := exists_of_bind_eq_ok hbody
    obtain ⟨index, -, hbody⟩ := exists_of_bind_eq_ok hbody
    cases hbody
    exact ⟨ps, index, rfl⟩
  | null | bool | num | str | arr =>
    simp only [declare, hname, Bool.not_true, Bool.false_eq_true, if_false] at h
    cases h

/-- The form and the comment of a declaration. -/
theorem form_of_declare (h : declare options name (.obj node) = .ok d) :
    d.form = (if isObjectNode node then .interfaceForm else .aliasForm) ∧
      d.description = description? node := by
  rw [declare_eq_map (isIdentifier_of_declare h)] at h
  obtain ⟨body, -, rfl⟩ := exists_of_map_eq_ok h
  exact ⟨rfl, rfl⟩

end Declarations

/-- The tokens of a declaration line declare the type that was printed. -/
theorem Declaration.exists_line_tokens (width : Nat) {d : Declaration}
    (hname : isIdentifier d.name = true) (hregular : d.body.Everywhere TypeExpr.Regular)
    (hlexical : d.body.Everywhere TypeExpr.Lexical)
    (hform : d.form = .interfaceForm → ∃ ps index, d.body = .object ps index) :
    ∃ ts u, Spells (d.line width) ts ∧ Declares d.name (significant ts) u ∧
      u.normal = d.body.normal := by
  have hbody : Spells (d.body.print width 0) (d.body.tokens width 0) :=
    TypeExpr.spells_print d.body 0 hlexical
  unfold line
  split
  · next hd =>
    obtain ⟨ps, index, hobject⟩ := hform hd
    rw [hobject] at hregular hbody ⊢
    obtain ⟨-, hps, hindex⟩ := (TypeExpr.Everywhere_object ps index).1 hregular
    obtain ⟨properties, further, hderives, hnormal⟩ :=
      TypeExpr.exists_object (TypeExpr.readsBackProperties ps width 1 hps)
        fun t ht => TypeExpr.readsBack t width 1 (hindex t ht)
    exact ⟨_, _, spells_interface hname hbody, by simpa using Declares.interfaceForm hderives,
      hnormal⟩
  · obtain ⟨u, hu, hnormal⟩ := (TypeExpr.readsBack d.body width 0 hregular).union_of_levelOf
    exact ⟨_, u, spells_alias hname hbody, by simpa using Declares.aliasForm hu, hnormal⟩

/-- **The text of a declaration means what its schema says.** It is derived in the grammar of
declarations, and the tree that is derived is that of the type which the schema describes. -/
theorem compile_derives {options : CompileOptions} {name : String} {schema : Json} {text : String}
    (hbanner : options.bannerComment = none) (hschema : schema.EveryObject Plain)
    (h : compile options name schema = .ok text) :
    ∃ t ts u, Describes options none schema t ∧ significantTokens? text = some ts ∧
      Declares name ts u ∧ u.normal = t.normal := by
  obtain ⟨d, hd, rfl⟩ := exists_of_map_eq_ok h
  obtain ⟨hname, rfl, hdbanner, hdescribes, hform⟩ := exists_of_declare_eq_ok hd
  rw [hbanner] at hdbanner
  have hregular := hdescribes.everywhere suits_plain_regular hschema
  have hlexical := hdescribes.everywhere
    (suits_lexical suits_plain_regular.anything fun hplain hvalue => by simp [hplain.1] at hvalue)
    hschema
  obtain ⟨ts, u, hts, hdeclares, hnormal⟩ :=
    Declaration.exists_line_tokens options.indent hname hregular hlexical hform
  have htokens := (Declaration.closed_lead hdbanner).lex_append hts
  refine ⟨d.body, significant ts, u, hdescribes, ?_, hdeclares, hnormal⟩
  rw [significantTokens?, Declaration.print_eq, String.toList_append, htokens, Option.map_some,
    significant_append]
  split <;> simp

namespace Page

/-- A list of strings, one of them with a separator in it, and a text that may be missing. -/
def schema : Json := .obj [("required", .arr [.str "tags"]),
  ("properties", .obj [("tags", .obj [("items", .obj [("enum", .arr [.str "a & b", .null])])]),
    ("sub title", .obj [("type", .arr [.str "string", .str "null"])])])]

/-- The declaration of the schema. -/
def declaration : Declaration where
  name := "Page"
  banner := none
  description := none
  form := .interfaceForm
  body := .object
    [(⟨"tags", none, false⟩, .array (.union [.literal (.str "a & b"), .literal .null])),
      (⟨"sub title", none, true⟩, .union [.keyword "string", .keyword "null"])]
    (some (.keyword "any"))

/-- The text of the declaration. -/
def text : String :=
  "export interface Page \x7b\n  tags: (\"a & b\" | null)[];\n  \"sub title\"?: string | null;\n"
    ++ "  [k: string]: any;\n\x7d\n"

theorem declare_schema : declare {} "Page" schema = .ok declaration := by
  simp [declare, schema, typeOfObject, propertiesOf, typesOfProperties, typeOf, typeOfNode,
    typeOfArray, typeOfName, typesOfNames, indexOf, requiredOf, requiredNames, Dict.get?, Dict.has]
  rfl

theorem print_declaration : declaration.print 2 = text := by decide +kernel

theorem schema_derives :
    schema.EveryObject Plain ∧ compile {} "Page" schema = .ok text ∧
      ∃ t ts u, Describes {} none schema t ∧ significantTokens? text = some ts ∧
        Declares "Page" ts u ∧ u.normal = t.normal := by
  have hplain : schema.EveryObject Plain := by
    simp [schema, Plain, Dict.get?, Json.EveryObject, Json.EveryObjectItems,
      Json.EveryObjectMembers]
  have htext : compile {} "Page" schema = .ok text := by
    rw [compile, declare_schema, Except.map, print_declaration]
  exact ⟨hplain, htext, compile_derives rfl hplain htext⟩

end Page

end TypeScript

end Blokwork
