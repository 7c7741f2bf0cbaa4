import Blokwork.Proofs.Json.Spelling
import Blokwork.Proofs.TypeScript.Errors

/-!
# Types without a text

A type has no text only if it is a union without members, or holds nothing but such a one
(`TypeExpr.Written`). Of the lists of alternatives that a schema may have, an empty one under
`enum`, `anyOf`, `oneOf` or `allOf` is the type `never`; but an empty list under `type` is a union
without members, and nothing is written for it (`typeOf_of_no_alternatives`). So all types in a
declaration have texts if and only if no node that is reached from the schema has such a list
(`Describes.writtenIff`, `compile_written_iff`).
-/

namespace Blokwork.TypeScript

/-! ## What is reached from a schema -/

/-- The schemas of the items of a node. -/
def itemsIn (node : Dict Json) : List Json :=
  match Dict.get? node "items" with
  | none => []
  | some (.arr items) => items
  | some item => [item]

/-- The names that a node has under `type`. -/
def typeNamesIn (node : Dict Json) : List String :=
  match Dict.get? node "type" with
  | some (.str name) => [name]
  | some (.arr names) => names.filterMap Json.string?
  | _ => []

section Parts

variable (options : CompileOptions)

/-- The schemas that the type of a node is made from, where a name gives the type. -/
def partsOfName (node : Dict Json) (name : String) : List Json :=
  if name = "array" then itemsIn node
  else if name = "object" then
    (propertiesIn node).map Prod.snd ++ (furtherKeys options node).toList
  else []

/-- The schemas that the type of a node is made from. -/
def partsOf (node : Dict Json) : List Json :=
  match leading? node with
  | none => []
  | some key =>
    if key ∈ ["anyOf", "oneOf", "allOf"] then ((Dict.get? node key).bind Json.items?).getD []
    else if key = "type" then (typeNamesIn node).flatMap (partsOfName options node)
    else if key = "properties" then partsOfName options node "object"
    else if key = "items" then partsOfName options node "array"
    else []

/-- The type of the schema is made from the other one, through any number of parts. -/
inductive Reaches : Json → Json → Prop where
  | self (schema : Json) : Reaches schema schema
  | inside {node : Dict Json} {part schema : Json} (hpart : part ∈ partsOf options node)
      (h : Reaches part schema) : Reaches (.obj node) schema

/-- Every node that is reached from the schema is of that kind. -/
def EveryReached (Q : Dict Json → Prop) (schema : Json) : Prop :=
  ∀ node, Reaches options schema (.obj node) → Q node

end Parts

section Reached

variable {options : CompileOptions} {Q : Dict Json → Prop} {node : Dict Json}

theorem everyObject_of_mem_partsOfName (hanything : Q [("type", .str "any")])
    (h : Json.EveryObject Q (.obj node)) {name : String} {part : Json}
    (hpart : part ∈ partsOfName options node name) : part.EveryObject Q := by
  unfold partsOfName at hpart
  split at hpart
  · unfold itemsIn at hpart
    split at hpart
    · cases hpart
    · next hvalue => exact (Json.EveryObject_arr _).1 (h.get? hvalue) part hpart
    · next hvalue =>
      obtain rfl := List.mem_singleton.1 hpart
      exact h.get? hvalue
  split at hpart
  · rcases List.mem_append.1 hpart with hpart | hpart
    · obtain ⟨p, hp, rfl⟩ := List.mem_map.1 hpart
      exact everyObject_properties h p hp
    · rw [Option.mem_toList] at hpart
      exact everyObject_furtherKeys options hanything h part hpart
  · cases hpart

theorem everyObject_of_mem_partsOf (hanything : Q [("type", .str "any")])
    (h : Json.EveryObject Q (.obj node)) {part : Json} (hpart : part ∈ partsOf options node) :
    part.EveryObject Q := by
  unfold partsOf at hpart
  split at hpart
  · cases hpart
  next key _ =>
  split at hpart
  · cases hvalue : Dict.get? node key with
    | none => simp [hvalue] at hpart
    | some value =>
      cases value with
      | arr items =>
        rw [hvalue] at hpart
        exact (Json.EveryObject_arr _).1 (h.get? hvalue) part hpart
      | null | bool | num | str | obj => simp [hvalue, Json.items?] at hpart
  split at hpart
  · obtain ⟨name, -, hpart⟩ := List.mem_flatMap.1 hpart
    exact everyObject_of_mem_partsOfName hanything h hpart
  split at hpart
  · exact everyObject_of_mem_partsOfName hanything h hpart
  split at hpart
  · exact everyObject_of_mem_partsOfName hanything h hpart
  · cases hpart

theorem everyReached_obj : EveryReached options Q (.obj node) ↔
    Q node ∧ ∀ part ∈ partsOf options node, EveryReached options Q part := by
  constructor
  · intro h
    exact ⟨h node (.self _), fun part hpart inner hinner => h inner (.inside hpart hinner)⟩
  · rintro ⟨hnode, hparts⟩ inner hinner
    cases hinner with
    | self => exact hnode
    | inside hpart hinner => exact hparts _ hpart inner hinner

/-- What holds of every object in a schema holds of the nodes that are reached. -/
theorem everyReached_of_everyObject (hanything : Q [("type", .str "any")]) {schema : Json}
    (h : schema.EveryObject Q) : EveryReached options Q schema := by
  intro node hreaches
  generalize htarget : Json.obj node = target at hreaches
  induction hreaches with
  | self =>
    subst htarget
    exact ((Json.EveryObject_obj node).1 h).1
  | inside hpart _ ih => exact ih (everyObject_of_mem_partsOf hanything h hpart) htarget

theorem everyReached_bool (b : Bool) : EveryReached options Q (.bool b) := by
  intro node h
  cases h

/-- Every node that is reached is of that kind; with a name, from the type that this name gives to
the node. -/
def EveryReachedUnder (options : CompileOptions) (Q : Dict Json → Prop) (name : Option String)
    (schema : Json) : Prop :=
  match name with
  | none => EveryReached options Q schema
  | some name =>
    ∀ node, schema = .obj node → ∀ part ∈ partsOfName options node name,
      EveryReached options Q part

theorem everyReachedUnder_name {name : String} :
    EveryReachedUnder options Q (some name) (.obj node) ↔
      ∀ part ∈ partsOfName options node name, EveryReached options Q part := by
  refine ⟨fun h => h node rfl, fun h other heq => ?_⟩
  cases heq
  exact h

theorem partsOf_value {leading : Option String} (h : leading? node = leading)
    (hleading : leading = none ∨ leading = some "const" ∨ leading = some "enum") :
    partsOf options node = [] := by
  rw [partsOf, h]
  rcases hleading with rfl | rfl | rfl <;> rfl

theorem partsOf_alternatives {key : String} {items : List Json}
    (h : leading? node = some key) (hkey : key ∈ ["anyOf", "oneOf", "allOf"])
    (hvalue : Dict.get? node key = some (.arr items)) : partsOf options node = items := by
  rw [partsOf, h]
  simp only [hkey, if_true, hvalue]
  rfl

theorem partsOf_type (h : leading? node = some "type") :
    partsOf options node = (typeNamesIn node).flatMap (partsOfName options node) := by
  rw [partsOf, h]
  rfl

theorem typeNamesIn_names {names : List String}
    (hvalue : Dict.get? node "type" = some (.arr (names.map .str))) :
    typeNamesIn node = names := by
  rw [typeNamesIn, hvalue]
  dsimp only
  rw [List.filterMap_map]
  exact List.filterMap_some

theorem partsOfName_of_plain {name : String} {t : TypeExpr} (h : plainType? name = some t) :
    partsOfName options node name = [] := by
  rw [partsOfName, if_neg, if_neg] <;> rintro rfl <;> simp [plainType?] at h

theorem partsOf_properties (h : leading? node = some "properties") :
    partsOf options node = partsOfName options node "object" := by
  rw [partsOf, h]
  rfl

theorem partsOf_items (h : leading? node = some "items") :
    partsOf options node = partsOfName options node "array" := by
  rw [partsOf, h]
  rfl

/-- What is reached from a node that lists the names of its types. -/
theorem everyReached_names {names : List String} (h : leading? node = some "type")
    (hvalue : Dict.get? node "type" = some (.arr (names.map .str))) :
    EveryReached options Q (.obj node) ↔
      Q node ∧ ∀ name ∈ names, EveryReachedUnder options Q (some name) (.obj node) := by
  rw [everyReached_obj, partsOf_type h, typeNamesIn_names hvalue, List.forall_mem_flatMap]
  exact and_congr_right fun _ => forall₂_congr fun name _ => everyReachedUnder_name.symm

/-- What is reached from an object. -/
theorem everyReachedUnder_object {members : List (String × Json × TypeExpr)}
    {further : Option (Json × TypeExpr)}
    (hproperties : propertiesIn node = members.map fun m => (m.1, m.2.1))
    (hfurther : furtherKeys options node = further.map Prod.fst) :
    EveryReachedUnder options Q (some "object") (.obj node) ↔
      (∀ m ∈ members, EveryReached options Q m.2.1) ∧
        ∀ p ∈ further, EveryReached options Q p.1 := by
  have hparts : partsOfName options node "object" =
      (members.map fun m => m.2.1) ++ (further.map Prod.fst).toList := by
    rw [partsOfName, if_neg (by decide), if_pos rfl, hproperties, hfurther, List.map_map]
    rfl
  rw [everyReachedUnder_name, hparts, List.forall_mem_append, List.forall_mem_map]
  cases further <;> simp

end Reached

/-! ## Types with a text -/

namespace TypeExpr

/-- Something is written for the type, wherever it stands. -/
def Written (t : TypeExpr) : Prop := ∀ width level, t.print width level ≠ ""

section Texts

variable {a b : String}

theorem append_ne_empty_left (h : a ≠ "") : a ++ b ≠ "" := fun heq =>
  h (String.append_eq_empty_iff.1 heq).1

theorem append_ne_empty_right (h : b ≠ "") : a ++ b ≠ "" := fun heq =>
  h (String.append_eq_empty_iff.1 heq).2

theorem intercalate_ne_empty (separator : String) (h : a ≠ "") (more : List String) :
    String.intercalate separator (a :: more) ≠ "" := by
  cases more with
  | nil => rwa [String.intercalate_singleton]
  | cons b more =>
    rw [String.intercalate_cons_cons]
    exact append_ne_empty_left (append_ne_empty_left h)

end Texts

variable {members : List TypeExpr}

theorem written_keyword {word : String} (h : word ≠ "") : Written (.keyword word) := by
  intro width level
  rwa [print]

theorem written_literal (value : Json) : Written (.literal value) := by
  intro width level
  rw [print]
  cases value with
  | null => decide
  | bool b => cases b <;> decide
  | num n => exact n.text_ne_empty
  | str s => exact append_ne_empty_right (by decide)
  | arr xs => exact append_ne_empty_right (by decide)
  | obj ms => exact append_ne_empty_right (by decide)

theorem written_array (item : TypeExpr) : Written (.array item) := by
  intro width level
  rw [print, printArray]
  split <;> exact append_ne_empty_right (by decide)

theorem written_tuple (items : List TypeExpr) : Written (.tuple items) := by
  intro width level
  rw [print]
  exact append_ne_empty_right (by decide)

theorem written_object (ps : List (PropertyHead × TypeExpr)) (index : Option TypeExpr) :
    Written (.object ps index) := by
  have hblock (lines closing : String) : printBlock lines closing ≠ "" := by
    rw [printBlock]
    split
    · decide
    · exact append_ne_empty_right (by decide)
  intro width level
  cases index <;> (rw [print]; exact hblock _ _)

/-- An intersection has a text when its first member has one, in parentheses or not. -/
theorem written_intersection {m : TypeExpr} (h : m.Written) (ms : List TypeExpr) :
    Written (.intersection (m :: ms)) := by
  intro width level
  rw [print, printAll, List.map_cons]
  refine intercalate_ne_empty _ ?_ _
  rw [printPart]
  split
  · exact append_ne_empty_right (by decide)
  · exact h width level

/-- A union has a text when its first member has one. -/
theorem written_union {m : TypeExpr} (h : m.Written) (ms : List TypeExpr) :
    Written (.union (m :: ms)) := by
  intro width level
  rw [print, printAll]
  exact intercalate_ne_empty _ (h width level) _

/-- Nothing is written for a union without members. -/
theorem print_union_nil (width level : Nat) : (TypeExpr.union []).print width level = "" := by
  rw [print, printAll]
  rfl

theorem not_written_union_nil : ¬ Written (.union []) := fun h => h 0 0 (print_union_nil 0 0)

/-- Something is written for a type wherever it stands, or nowhere. -/
theorem written_or_blank : ∀ t : TypeExpr, t.Written ∨ ∀ width level, t.print width level = ""
  | .keyword word => by
    by_cases h : word = ""
    · exact .inr fun width level => by rwa [print]
    · exact .inl (written_keyword h)
  | .verbatim text => by
    by_cases h : text = ""
    · exact .inr fun width level => by rwa [print]
    · exact .inl fun width level => by rwa [print]
  | .literal value => .inl (written_literal value)
  | .union [] => .inr print_union_nil
  | .union [m] => (written_or_blank m).imp (written_union · []) fun h width level => by
    rw [print, printAll, printAll, h]
    rfl
  | .union (a :: b :: ms) => .inl fun width level => by
    rw [print, printAll, printAll, String.intercalate_cons_cons]
    exact append_ne_empty_left (append_ne_empty_right (by decide))
  | .intersection [] => .inr fun width level => by
    rw [print, printAll]
    rfl
  | .intersection [m] =>
    (written_or_blank m).imp (written_intersection · []) fun h width level => by
    rw [print, printAll, printAll, h]
    rfl
  | .intersection (a :: b :: ms) => .inl fun width level => by
    rw [print, printAll, printAll, List.map_cons, List.map_cons, String.intercalate_cons_cons]
    exact append_ne_empty_left (append_ne_empty_right (by decide))
  | .array item => .inl (written_array item)
  | .tuple items => .inl (written_tuple items)
  | .object ps index => .inl (written_object ps index)

theorem written_iff (t : TypeExpr) (width level : Nat) :
    t.Written ↔ t.print width level ≠ "" := by
  refine ⟨fun h => h width level, fun h => ?_⟩
  exact t.written_or_blank.resolve_right fun hblank => h (hblank width level)

/-- The type itself has a text where all types in it have. -/
theorem Everywhere.self {P : TypeExpr → Prop} {t : TypeExpr} (h : t.Everywhere P) : P t := by
  cases t with
  | keyword | literal | verbatim => exact h
  | union | intersection | array | tuple => exact h.1
  | object => exact ((Everywhere_object _ _).1 h).1

theorem everywhere_written_union : (TypeExpr.union members).Everywhere Written ↔
    members ≠ [] ∧ ∀ m ∈ members, m.Everywhere Written := by
  rw [Everywhere_union]
  refine and_congr_left fun hmembers => ?_
  cases members with
  | nil => exact iff_of_false not_written_union_nil fun h => h rfl
  | cons m ms =>
    have hfirst := (hmembers m List.mem_cons_self).self
    exact iff_of_true (written_union hfirst ms) (List.cons_ne_nil m ms)

theorem everywhere_written_never : TypeExpr.never.Everywhere Written := written_keyword (by decide)

theorem everywhere_written_oneOf : (TypeExpr.oneOf members).Everywhere Written ↔
    ∀ m ∈ members, m.Everywhere Written := by
  cases members with
  | nil => exact iff_of_true everywhere_written_never (List.forall_mem_nil _)
  | cons m ms =>
    rw [oneOf, everywhere_written_union]
    · exact and_iff_right (List.cons_ne_nil m ms)
    · exact List.cons_ne_nil m ms

theorem everywhere_written_allOf : (TypeExpr.allOf members).Everywhere Written ↔
    ∀ m ∈ members, m.Everywhere Written := by
  cases members with
  | nil => exact iff_of_true everywhere_written_never (List.forall_mem_nil _)
  | cons m ms =>
    rw [allOf, Everywhere_intersection]
    · exact and_iff_right_of_imp fun h =>
        written_intersection (h m List.mem_cons_self).self ms
    · exact List.cons_ne_nil m ms

end TypeExpr

/-! ## Schemas whose types have texts -/

/-- The node is to have one of the types that it names, and names none. -/
def NamesNoType (node : Dict Json) : Prop :=
  leading? node = some "type" ∧ Dict.get? node "type" = some (.arr [])

/-- The node takes no text as it is. -/
def TextFree (node : Dict Json) : Prop := Dict.get? node "tsType" = none

instance : DecidablePred TextFree := fun node =>
  inferInstanceAs (Decidable (Dict.get? node "tsType" = none))

section Describes

variable {options : CompileOptions}

theorem written_untyped (options : CompileOptions) :
    options.untyped.Everywhere TypeExpr.Written := by
  obtain ⟨word, hword, heq⟩ := untyped_mem_typeKeywords options
  have hwords : ∀ word ∈ typeKeywords, word ≠ "" := by decide
  rw [heq]
  exact TypeExpr.written_keyword (hwords word hword)

/-- The type of a schema has texts everywhere if and only if none of the nodes that are reached
names no type. -/
def WrittenIff (options : CompileOptions) (name : Option String) (schema : Json) (t : TypeExpr) :
    Prop :=
  EveryReachedUnder options TextFree name schema → (t.Everywhere TypeExpr.Written ↔
    EveryReachedUnder options (fun node => ¬ NamesNoType node) name schema)

theorem not_namesNoType {node : Dict Json} {leading : Option String} (h : leading? node = leading)
    (hleading : leading ≠ some "type") : ¬ NamesNoType node := fun hnone =>
  hleading (h.symm.trans hnone.1)

namespace WrittenIff

variable {node : Dict Json} {t : TypeExpr}

/-- A node that does not lack names is as good as its parts. -/
theorem of_parts {parts : List Json} (hparts : partsOf options node = parts)
    (hnode : ¬ NamesNoType node)
    (h : (∀ part ∈ parts, EveryReached options TextFree part) →
      (t.Everywhere TypeExpr.Written ↔
        ∀ part ∈ parts, EveryReached options (fun node => ¬ NamesNoType node) part)) :
    WrittenIff options none (.obj node) t := by
  intro hplain
  obtain ⟨-, hplain⟩ := everyReached_obj.1 hplain
  rw [hparts] at hplain
  rw [h hplain]
  refine (Iff.trans ?_ everyReached_obj.symm)
  rw [hparts, and_iff_right hnode]

/-- A node without parts. -/
theorem of_written (hparts : partsOf options node = []) (hnode : ¬ NamesNoType node)
    (ht : t.Everywhere TypeExpr.Written) : WrittenIff options none (.obj node) t :=
  of_parts hparts hnode fun _ => iff_of_true ht nofun

/-- A node that is what a name makes of it. -/
theorem of_name {name : String} (hparts : partsOf options node = partsOfName options node name)
    (hnode : ¬ NamesNoType node) (h : WrittenIff options (some name) (.obj node) t) :
    WrittenIff options none (.obj node) t :=
  of_parts hparts hnode fun hplain =>
    (h (everyReachedUnder_name.2 hplain)).trans everyReachedUnder_name

/-- Types of schemas in a row. -/
theorem members {members : List (Json × TypeExpr)}
    (h : ∀ m ∈ members, WrittenIff options none m.1 m.2)
    (hplain : ∀ part ∈ members.map Prod.fst, EveryReached options TextFree part) :
    (∀ t ∈ members.map Prod.snd, t.Everywhere TypeExpr.Written) ↔
      ∀ part ∈ members.map Prod.fst,
        EveryReached options (fun node => ¬ NamesNoType node) part := by
  rw [List.forall_mem_map] at hplain
  rw [List.forall_mem_map, List.forall_mem_map]
  exact forall₂_congr fun m hm => h m hm (hplain m hm)

end WrittenIff

/-- What is written for the type that a schema describes. -/
theorem Describes.writtenIff {name : Option String} {schema : Json} {t : TypeExpr}
    (h : Describes options name schema t) : WrittenIff options name schema t := by
  induction h with
  | everything => exact fun _ => iff_of_true (written_untyped options) (everyReached_bool true)
  | nothing =>
    exact fun _ => iff_of_true TypeExpr.everywhere_written_never (everyReached_bool false)
  | untyped h =>
    exact .of_written (partsOf_value h (.inl rfl)) (not_namesNoType h nofun)
      (written_untyped options)
  | text h hvalue =>
    intro hplain
    cases hvalue.symm.trans (everyReached_obj.1 hplain).1
  | constant h hvalue =>
    exact .of_written (partsOf_value h (.inr (.inl rfl))) (not_namesNoType h (by decide))
      (TypeExpr.written_literal _)
  | values h hvalue =>
    refine .of_written (partsOf_value h (.inr (.inr rfl))) (not_namesNoType h (by decide)) ?_
    exact TypeExpr.everywhere_written_oneOf.2
      (List.forall_mem_map.2 fun value _ => TypeExpr.written_literal value)
  | @alternatives node key members h hkey hvalue hmembers ih =>
    have hlisted : key ∈ ["anyOf", "oneOf", "allOf"] := by
      rcases hkey with rfl | rfl <;> decide
    have hother : some key ≠ some "type" := by
      rcases hkey with rfl | rfl <;> decide
    refine .of_parts (partsOf_alternatives h hlisted hvalue) (not_namesNoType h hother)
      fun hplain => ?_
    rw [TypeExpr.everywhere_written_oneOf]
    exact WrittenIff.members ih hplain
  | parts h hvalue hmembers ih =>
    refine .of_parts (partsOf_alternatives h (by decide) hvalue) (not_namesNoType h (by decide))
      fun hplain => ?_
    rw [TypeExpr.everywhere_written_allOf]
    exact WrittenIff.members ih hplain
  | @named node name t h hvalue htype ih =>
    have hparts : partsOf options node = partsOfName options node name := by
      rw [partsOf_type h, typeNamesIn, hvalue]
      exact List.flatMap_singleton _ _
    refine .of_name hparts (fun hnone => ?_) ih
    cases hvalue.symm.trans hnone.2
  | @names node members h hvalue hmembers ih =>
    have hnames : Dict.get? node "type" = some (.arr ((members.map Prod.fst).map .str)) := by
      rw [hvalue, List.map_map]
      rfl
    have hsome : members.map Prod.snd ≠ [] ↔ ¬ NamesNoType node := by
      rw [NamesNoType, and_iff_right h, hvalue]
      cases members <;> simp
    intro hplain
    obtain ⟨-, hplain⟩ := (everyReached_names h hnames).1 hplain
    rw [List.forall_mem_map] at hplain
    refine Iff.trans ?_ (everyReached_names h hnames).symm
    rw [TypeExpr.everywhere_written_union, hsome, List.forall_mem_map, List.forall_mem_map]
    exact and_congr_right fun _ => forall₂_congr fun m hm => ih m hm (hplain m hm)
  | withProperties h htype ih =>
    exact .of_name (partsOf_properties h) (not_namesNoType h (by decide)) ih
  | withItems h htype ih =>
    exact .of_name (partsOf_items h) (not_namesNoType h (by decide)) ih
  | @plain node name t h =>
    obtain ⟨word, hword, rfl⟩ := mem_typeKeywords_of_plainType? h
    have hwords : ∀ word ∈ typeKeywords, word ≠ "" := by decide
    refine fun _ => iff_of_true (TypeExpr.written_keyword (hwords word hword)) ?_
    rw [everyReachedUnder_name, partsOfName_of_plain h]
    exact nofun
  | @list node h =>
    refine fun _ => iff_of_true ⟨TypeExpr.written_array _, written_untyped options⟩ ?_
    have hparts : partsOfName options node "array" = [] := by simp [partsOfName, itemsIn, h]
    rw [everyReachedUnder_name, hparts]
    exact nofun
  | @tuple node members hvalue hmembers ih =>
    intro hplain
    have hparts : partsOfName options node "array" = members.map Prod.fst := by
      simp [partsOfName, itemsIn, hvalue]
    rw [everyReachedUnder_name, hparts] at hplain ⊢
    rw [TypeExpr.Everywhere_tuple, and_iff_right (TypeExpr.written_tuple _)]
    exact WrittenIff.members ih hplain
  | @array node item t hvalue hitem ih =>
    intro hplain
    have hparts : partsOfName options node "array" = [item] := by
      simp [partsOfName, itemsIn, hvalue]
      cases hitem <;> rfl
    rw [everyReachedUnder_name, hparts, List.forall_mem_singleton] at hplain ⊢
    exact (and_iff_right (TypeExpr.written_array _)).trans (ih hplain)
  | @object node members further hproperties hmembers hfurther hindex ih ihindex =>
    intro hplain
    obtain ⟨hplainMembers, hplainFurther⟩ :=
      (everyReachedUnder_object hproperties hfurther).1 hplain
    rw [everyReachedUnder_object hproperties hfurther, TypeExpr.Everywhere_object,
      and_iff_right (TypeExpr.written_object _ _), List.forall_mem_map]
    refine and_congr (forall₂_congr fun m hm => ih m hm (hplainMembers m hm)) ?_
    cases further with
    | none => exact iff_of_true nofun nofun
    | some p =>
      have hp : p.2.Everywhere TypeExpr.Written ↔
          EveryReached options (fun node => ¬ NamesNoType node) p.1 :=
        ihindex p rfl (hplainFurther p rfl)
      simpa using hp

end Describes

/-! ## Empty lists of alternatives -/

section Empty

variable {options : CompileOptions} {node : Dict Json}

/-- The type of a node that lists its values. -/
theorem typeOfNode_of_enum {values : List Json} (h : leading? node = some "enum")
    (hvalue : Dict.get? node "enum" = some (.arr values)) (path : SchemaPath) :
    typeOfNode options path node = .ok (.oneOf (values.map .literal)) := by
  have habsent : Absent node ["tsType", "const"] := absent_of_leading h rfl (by decide)
  simp only [Absent, List.forall_mem_cons] at habsent
  obtain ⟨htext, hconst, -⟩ := habsent
  rw [typeOfNode, htext, hconst, hvalue]

/-- The type of a node that lists alternatives or parts. -/
theorem typeOfNode_of_alternatives {key : String} {listed : Json}
    (hkey : key ∈ ["anyOf", "oneOf", "allOf"]) (h : leading? node = some key)
    (hvalue : Dict.get? node key = some listed) (path : SchemaPath) :
    typeOfNode options path node = (typesOfListed options (path ++ [.key key]) listed).map
      (if key = "allOf" then .allOf else .oneOf) := by
  simp only [List.mem_cons, List.not_mem_nil, or_false] at hkey
  rcases hkey with rfl | rfl | rfl
  case inl =>
    have habsent : Absent node ["tsType", "const", "enum"] := absent_of_leading h rfl (by decide)
    simp only [Absent, List.forall_mem_cons] at habsent
    obtain ⟨htext, hconst, henum, -⟩ := habsent
    rw [typeOfNode, htext, hconst, henum]
    dsimp only
    split
    · next hfound =>
      cases hvalue.symm.trans hfound
      rfl
    · next hfound => cases hvalue.symm.trans hfound
  case inr.inl =>
    have habsent : Absent node ["tsType", "const", "enum", "anyOf"] :=
      absent_of_leading h rfl (by decide)
    simp only [Absent, List.forall_mem_cons] at habsent
    obtain ⟨htext, hconst, henum, hanyOf, -⟩ := habsent
    rw [typeOfNode, htext, hconst, henum]
    dsimp only
    split
    · next hfound => cases hanyOf.symm.trans hfound
    split
    · next hfound =>
      cases hvalue.symm.trans hfound
      rfl
    · next hfound => cases hvalue.symm.trans hfound
  case inr.inr =>
    have habsent : Absent node ["tsType", "const", "enum", "anyOf", "oneOf"] :=
      absent_of_leading h rfl (by decide)
    simp only [Absent, List.forall_mem_cons] at habsent
    obtain ⟨htext, hconst, henum, hanyOf, honeOf, -⟩ := habsent
    rw [typeOfNode, htext, hconst, henum]
    dsimp only
    split
    · next hfound => cases hanyOf.symm.trans hfound
    split
    · next hfound => cases honeOf.symm.trans hfound
    split
    · next hfound =>
      cases hvalue.symm.trans hfound
      rfl
    · next hfound => cases hvalue.symm.trans hfound

/-- The type of a node that lists the names of its types. -/
theorem typeOfNode_of_names {names : List Json} (h : leading? node = some "type")
    (hvalue : Dict.get? node "type" = some (.arr names)) (path : SchemaPath) :
    typeOfNode options path node =
      (typesOfNames path (fun name => typeOfName options path node name) 0 names).map .union := by
  have habsent := absent_overridingKeywords_iff.2 (absent_of_leading h rfl (by decide))
  rw [typeOfNode_of_absent habsent, hvalue]

/-- A list without alternatives is the type `never`, but under `type` a union without members. -/
theorem typeOf_of_no_alternatives (options : CompileOptions) (path : SchemaPath) {key : String}
    (hkey : key ∈ ["enum", "anyOf", "oneOf", "allOf", "type"]) (h : leading? node = some key)
    (hvalue : Dict.get? node key = some (.arr [])) :
    typeOf options path (.obj node) = .ok (if key = "type" then .union [] else .never) := by
  have hnone : typesOfListed options (path ++ [.key key]) (.arr []) = .ok [] := by
    rw [typesOfListed, typesOf]
  rw [typeOf]
  simp only [List.mem_cons, List.not_mem_nil, or_false] at hkey
  rcases hkey with rfl | rfl | rfl | rfl | rfl
  case inl =>
    rw [typeOfNode_of_enum h hvalue]
    rfl
  case inr.inr.inr.inr =>
    rw [typeOfNode_of_names h hvalue]
    rfl
  all_goals
    rw [typeOfNode_of_alternatives (by decide) h hvalue, hnone]
    rfl

theorem typeOf_of_namesNoType (options : CompileOptions) (path : SchemaPath)
    (h : NamesNoType node) : typeOf options path (.obj node) = .ok (.union []) :=
  typeOf_of_no_alternatives options path (by decide) h.1 h.2

end Empty

/-! ## Declarations -/

/-- **All types in a declaration have texts if and only if no node names no type.** In the
declaration of a schema that takes no text as it is, the type itself, the types of properties and
of further keys, members and items are all written as something, if and only if none of the nodes
that are reached is to have one of the types in an empty list. An empty list of values,
alternatives or parts is written as `never`; for an empty list of types nothing is written. -/
theorem compile_written_iff {options : CompileOptions} {name text : String} {schema : Json}
    (hplain : EveryReached options TextFree schema)
    (h : compile options name schema = .ok text) :
    (∃ d, declare options name schema = .ok d ∧ text = d.print options.indent ∧
      ∀ width level, (d.body.Everywhere fun t => t.print width level ≠ "") ↔
        EveryReached options (fun node => ¬ NamesNoType node) schema) ∧
    (∀ (path : SchemaPath) (node : Dict Json), ∀ key ∈ ["enum", "anyOf", "oneOf", "allOf"],
      leading? node = some key → Dict.get? node key = some (.arr []) →
      ∃ t, typeOf options path (.obj node) = .ok t ∧
        ∀ width level, t.print width level = "never") ∧
    ∀ (path : SchemaPath) (node : Dict Json), NamesNoType node →
      ∃ t, typeOf options path (.obj node) = .ok t ∧ ∀ width level, t.print width level = "" := by
  obtain ⟨d, hd, rfl⟩ := exists_of_map_eq_ok h
  obtain ⟨-, -, -, hdescribes, -⟩ := exists_of_declare_eq_ok hd
  refine ⟨⟨d, hd, rfl, fun width level => ?_⟩, fun path node key hkey hleading hvalue => ?_,
    fun path node hnode => ⟨_, typeOf_of_namesNoType options path hnode, TypeExpr.print_union_nil⟩⟩
  · have hwritten : (fun t : TypeExpr => t.print width level ≠ "") = TypeExpr.Written :=
      funext fun t => propext (t.written_iff width level).symm
    rw [hwritten]
    exact hdescribes.writtenIff hplain
  · have hother : key ≠ "type" := by
      rintro rfl
      revert hkey
      decide
    refine ⟨.never, ?_, fun width level => by rw [TypeExpr.never, TypeExpr.print]⟩
    rw [typeOf_of_no_alternatives options path (List.mem_append_left ["type"] hkey) hleading
        hvalue,
      if_neg hother]

namespace Vacant

/-- A value of one of no types. -/
def node : Dict Json := [("type", .arr [])]

/-- The alias of such a value. -/
def declaration : Declaration := ⟨"Vacant", none, none, .aliasForm, .union []⟩

/-- The declaration is no TypeScript: nothing stands behind the equals sign. -/
theorem compile_vacant : Json.EveryObject TextFree (.obj node) ∧
    compile {} "Vacant" (.obj node) = .ok "export type Vacant = ;\n" ∧
    ∃ d, declare {} "Vacant" (.obj node) = .ok d ∧ d.body.print 2 0 = "" := by
  have hdeclare : declare {} "Vacant" (.obj node) = .ok declaration := by
    have hname : isIdentifier "Vacant" = true := by decide
    have hobject : isObjectNode node = false := by decide
    simp only [declare, hname, hobject]
    rw [typeOf_of_namesNoType {} [] ⟨rfl, rfl⟩]
    rfl
  have htext : declaration.print 2 = "export type Vacant = ;\n" := by decide +kernel
  refine ⟨by decide, ?_, declaration, hdeclare, TypeExpr.print_union_nil 2 0⟩
  rw [compile, hdeclare]
  exact congrArg Except.ok htext

/-- An array of such values. -/
def tags : Dict Json := [("items", .obj node)]

/-- Properties with empty lists of values, of alternatives and of types. -/
def lists : Dict Json := [("properties", .obj [("kind", .obj [("enum", .arr [])]),
  ("sizes", .obj [("items", .obj [("anyOf", .arr [])])]), ("tags", .obj tags)])]

/-- The text of the declaration. -/
def text : String :=
  "export interface Lists \x7b\n  kind?: never;\n  sizes?: never[];\n  tags?: [];\n"
    ++ "  [k: string]: any;\n\x7d\n"

/-- Where nothing is written for the items of an array, the text is that of an empty tuple. -/
theorem compile_lists_written : EveryReached {} TextFree (.obj lists) ∧
    compile {} "Lists" (.obj lists) = .ok text ∧
    ∃ d, declare {} "Lists" (.obj lists) = .ok d ∧
      ¬ d.body.Everywhere fun t => t.print 2 0 ≠ "" := by
  have hplain : EveryReached {} TextFree (.obj lists) :=
    everyReached_of_everyObject (by decide) (by decide +kernel)
  have htext : compile {} "Lists" (.obj lists) = .ok text := by
    have hdeclare : declare {} "Lists" (.obj lists) = .ok ⟨"Lists", none, none, .interfaceForm,
        .object [(⟨"kind", none, true⟩, .never), (⟨"sizes", none, true⟩, .array .never),
          (⟨"tags", none, true⟩, .array (.union []))] (some (.keyword "any"))⟩ := by
      simp [declare, lists, tags, node, typeOfObject, propertiesOf, typesOfProperties, typeOf,
        typeOfNode, typeOfArray, typesOfNames, typesOfListed, typesOf, indexOf, requiredOf,
        Dict.get?, Dict.has]
      rfl
    rw [compile, hdeclare]
    exact congrArg Except.ok (by decide +kernel)
  have htags : .obj tags ∈ partsOf {} lists := by decide +kernel
  have hnode : .obj node ∈ partsOf {} tags := by decide +kernel
  obtain ⟨⟨d, hd, -, hwritten⟩, -⟩ := compile_written_iff hplain htext
  refine ⟨hplain, htext, d, hd, fun h => ?_⟩
  exact (hwritten 2 0).1 h node (.inside htags (.inside hnode (.self _))) ⟨rfl, rfl⟩

end Vacant

end Blokwork.TypeScript
