import Blokwork.Proofs.TypeScript.Errors

/-!
# Culprits

What is expected of a value in a schema depends on where it stands: a `Role` says which values
break its rule, with which wording (`Role.malformation?`), and which parts of the value are looked
at next (`Role.parts`), by the keyword that decides what a node is. An error names the place of a
value that is looked at and breaks the rule of its role, and there is an error if such a value
exists: `Judged` says so of one step, and it is kept by the functions that make types
(`typeOf_judged`), so that it holds of a whole schema (`compile_blames_culprit`).
-/

namespace Blokwork.TypeScript

variable {α β : Type} {options : CompileOptions} {path : SchemaPath}

/-! ## Places -/

/-- The path leads from the value to the other one, over members of objects and items of arrays. -/
inductive SchemaPath.Leads : Json → SchemaPath → Json → Prop where
  | here (value : Json) : Leads value [] value
  | member {ms : Dict Json} {key : String} {inner value : Json} {path : SchemaPath}
    (hmember : (key, inner) ∈ ms) (h : Leads inner path value) :
    Leads (.obj ms) (.key key :: path) value
  | item {xs : List Json} {i : Nat} {inner value : Json} {path : SchemaPath}
    (hitem : xs[i]? = some inner) (h : Leads inner path value) :
    Leads (.arr xs) (.index i :: path) value

/-! ## Rules -/

/-- What a value in a schema stands for. -/
inductive Role where
  /-- The schema of a declaration. -/
  | root
  /-- A schema below it. -/
  | schema
  /-- A list of schemas. -/
  | schemas
  /-- The text of a type. -/
  | text
  /-- The values of a type. -/
  | values
  /-- The name of a type, or a list of such names. -/
  | types
  /-- A name in such a list. -/
  | typeName
  /-- The properties of an object. -/
  | properties
  /-- The names of the properties that an object has to have. -/
  | required
  /-- The schema of the other properties of an object, or whether it may have any. -/
  | further
deriving DecidableEq

/-- The names of types that a schema may use. -/
def knownTypes : List String :=
  ["string", "number", "integer", "boolean", "null", "any", "array", "object"]

/-- The names of types that a value gives. -/
def typesNamed : Json → List String
  | .str name => [name]
  | .arr names => names.filterMap Json.string?
  | _ => []

namespace Role

/-- What is wrong with the kind of a value in that role. -/
def malformation? : Role → Json → Option Malformation
  | .root, .obj _ => none
  | .root, _ => some .rootNotObject
  | .schema, .obj _ | .schema, .bool _ => none
  | .schema, value => some (.notASchema value)
  | .schemas, .arr _ => none
  | .schemas, _ => some .alternativesNotArray
  | .text, .str _ => none
  | .text, _ => some .tsTypeNotString
  | .values, .arr _ => none
  | .values, _ => some .enumNotArray
  | .types, .str _ | .types, .arr _ => none
  | .types, _ => some .typeNotNames
  | .typeName, .str _ => none
  | .typeName, _ => some .typeNameNotString
  | .properties, .obj _ => none
  | .properties, _ => some .propertiesNotObject
  | .required, .arr names =>
    if names.all (·.string?.isSome) then none else some .requiredNotNames
  | .required, _ => some .requiredNotArray
  | .further, .obj _ | .further, .bool _ => none
  | .further, _ => some .additionalPropertiesNotSchema

/-- The value keeps the rule of its role: it is of the right kind, and names known types only. -/
def Kept (role : Role) (value : Json) : Prop :=
  role.malformation? value = none ∧ (role = .types → ∀ name ∈ typesNamed value, name ∈ knownTypes)

theorem kept_root (node : Dict Json) : root.Kept (.obj node) := ⟨rfl, nofun⟩

/-- The error is what a broken rule makes of the value at the path. -/
inductive Reports (role : Role) (value : Json) (path : SchemaPath) : CompileError → Prop where
  | malformed {rule : Malformation} (h : role.malformation? value = some rule) :
    Reports role value path (.malformed path rule)
  | unsupported {name : String} (hrole : role = .types) (hname : name ∈ typesNamed value)
    (h : name ∉ knownTypes) : Reports role value path (.unsupportedType path name)

end Role

/-! ## What is looked at -/

/-- A value inside another one, one step away, and what it stands for. -/
structure Part where
  step : PathStep
  role : Role
  value : Json

/-- What a node has under a keyword. -/
def partUnder (node : Dict Json) (role : Role) (keyword : String) : List Part :=
  (Dict.get? node keyword).toList.map fun value => ⟨.key keyword, role, value⟩

/-- The items of a list, of which `start` came before. -/
def partsListed (role : Role) (start : Nat) (xs : List Json) : List Part :=
  (xs.zipIdx start).map fun x => ⟨.index x.2, role, x.1⟩

/-- What is looked at in a node that is of the named type. -/
def partsNamed (node : Dict Json) (name : String) : List Part :=
  if name = "array" then
    match Dict.get? node "items" with
    | some (.arr items) => [⟨.key "items", .schemas, .arr items⟩]
    | some item => [⟨.key "items", .schema, item⟩]
    | none => []
  else if name = "object" then
    partUnder node .properties "properties" ++ partUnder node .required "required" ++
      partUnder node .further "additionalProperties"
  else []

/-- What is looked at in a node, by the keyword that decides what it is. -/
def nodeParts (node : Dict Json) : List Part :=
  match leading? node with
  | some "tsType" => partUnder node .text "tsType"
  | some "enum" => partUnder node .values "enum"
  | some "anyOf" => partUnder node .schemas "anyOf"
  | some "oneOf" => partUnder node .schemas "oneOf"
  | some "allOf" => partUnder node .schemas "allOf"
  | some "type" => partUnder node .types "type" ++
      ((Dict.get? node "type").toList.flatMap typesNamed).flatMap (partsNamed node)
  | some "properties" => partsNamed node "object"
  | some "items" => partsNamed node "array"
  | _ => []

/-- What is looked at in a value of that role. -/
def Role.parts : Role → Json → List Part
  | .root, .obj node | .schema, .obj node | .further, .obj node => nodeParts node
  | .schemas, .arr listed => partsListed .schema 0 listed
  | .types, .arr names => partsListed .typeName 0 names
  | .properties, .obj ps => ps.map fun p => ⟨.key p.1, .schema, p.2⟩
  | _, _ => []

/-- The value at the end of the path is looked at in the first one, through any number of parts. -/
inductive Inspects : Role → Json → SchemaPath → Role → Json → Prop where
  | self (role : Role) (value : Json) : Inspects role value [] role value
  | inside {role role' : Role} {value value' : Json} {part : Part} {path : SchemaPath}
    (hpart : part ∈ role.parts value) (h : Inspects part.role part.value path role' value') :
    Inspects role value (part.step :: path) role' value'

section Inspection

variable {role role' : Role} {value value' : Json} {node : Dict Json} {path steps : SchemaPath}
variable {e : CompileError} {part : Part}

theorem Role.Reports.not_kept (h : role.Reports value path e) : ¬ role.Kept value := by
  intro hkept
  cases h with
  | malformed h => cases hkept.1.symm.trans h
  | unsupported hrole hname h => exact h (hkept.2 hrole _ hname)

theorem leads_of_mem_partUnder {keyword : String} (hpart : part ∈ partUnder node role keyword)
    (h : path.Leads part.value value) :
    SchemaPath.Leads (.obj node) (part.step :: path) value := by
  obtain ⟨inner, hinner, rfl⟩ := List.mem_map.1 hpart
  exact .member (Dict.mem_of_get? (Option.mem_toList.1 hinner)) h

theorem leads_of_mem_partsListed {xs : List Json} (hpart : part ∈ partsListed role 0 xs)
    (h : path.Leads part.value value) : SchemaPath.Leads (.arr xs) (part.step :: path) value := by
  obtain ⟨⟨inner, i⟩, hinner, rfl⟩ := List.mem_map.1 hpart
  exact .item (List.mk_mem_zipIdx_iff_getElem?.1 hinner) h

theorem leads_of_mem_partsNamed {name : String} (hpart : part ∈ partsNamed node name)
    (h : path.Leads part.value value) :
    SchemaPath.Leads (.obj node) (part.step :: path) value := by
  unfold partsNamed at hpart
  split at hpart
  · split at hpart
    · next hitems =>
      obtain rfl := List.mem_singleton.1 hpart
      exact .member (Dict.mem_of_get? hitems) h
    · next hitem =>
      obtain rfl := List.mem_singleton.1 hpart
      exact .member (Dict.mem_of_get? hitem) h
    · cases hpart
  split at hpart
  · rcases List.mem_append.1 hpart with hpart | hpart
    · rcases List.mem_append.1 hpart with hpart | hpart <;> exact leads_of_mem_partUnder hpart h
    · exact leads_of_mem_partUnder hpart h
  · cases hpart

theorem leads_of_mem_nodeParts (hpart : part ∈ nodeParts node)
    (h : path.Leads part.value value) :
    SchemaPath.Leads (.obj node) (part.step :: path) value := by
  unfold nodeParts at hpart
  split at hpart
  case h_6 =>
    rcases List.mem_append.1 hpart with hpart | hpart
    · exact leads_of_mem_partUnder hpart h
    · obtain ⟨name, -, hpart⟩ := List.mem_flatMap.1 hpart
      exact leads_of_mem_partsNamed hpart h
  case h_7 | h_8 => exact leads_of_mem_partsNamed hpart h
  case h_9 => cases hpart
  all_goals exact leads_of_mem_partUnder hpart h

/-- What is looked at in a value is inside it. -/
theorem Inspects.leads (h : Inspects role value path role' value') : path.Leads value value' := by
  induction h with
  | self role value => exact .here value
  | @inside role _ value _ part path hpart _ ih =>
    unfold Role.parts at hpart
    split at hpart
    · exact leads_of_mem_nodeParts hpart ih
    · exact leads_of_mem_nodeParts hpart ih
    · exact leads_of_mem_nodeParts hpart ih
    · exact leads_of_mem_partsListed hpart ih
    · exact leads_of_mem_partsListed hpart ih
    · obtain ⟨p, hp, rfl⟩ := List.mem_map.1 hpart
      exact .member hp ih
    · cases hpart

/-- Whatever is looked at in the value keeps its rule. -/
def AllKept (role : Role) (value : Json) : Prop :=
  ∀ path role' value', Inspects role value path role' value' → role'.Kept value'

theorem allKept_iff : AllKept role value ↔
    role.Kept value ∧ ∀ part ∈ role.parts value, AllKept part.role part.value := by
  constructor
  · intro h
    exact ⟨h [] role value (.self role value), fun part hpart path role' value' hinner =>
      h (part.step :: path) role' value' (.inside hpart hinner)⟩
  · rintro ⟨hself, hparts⟩ path role' value' h
    cases h with
    | self => exact hself
    | inside hpart h => exact hparts _ hpart _ _ _ h

/-- The error is about something that is looked at in the value, which stands at the path. -/
def Blames (path : SchemaPath) (role : Role) (value : Json) (e : CompileError) : Prop :=
  ∃ steps role' value', Inspects role value steps role' value' ∧
    role'.Reports value' (path ++ steps) e

theorem Role.Reports.blames (h : role.Reports value path e) : Blames path role value e :=
  ⟨[], role, value, .self role value, by rwa [List.append_nil]⟩

theorem Blames.inside (hpart : part ∈ role.parts value)
    (h : Blames (path ++ [part.step]) part.role part.value e) : Blames path role value e := by
  obtain ⟨steps, role', value', hinner, hreports⟩ := h
  refine ⟨part.step :: steps, role', value', .inside hpart hinner, ?_⟩
  rwa [List.append_assoc] at hreports

end Inspection

/-! ## Judgements -/

/-- A value at its place. -/
structure Spot where
  path : SchemaPath
  role : Role
  value : Json

/-- The places of parts of the value at the path. -/
def spotsAt (path : SchemaPath) (parts : List Part) : List Spot :=
  parts.map fun part => ⟨path ++ [part.step], part.role, part.value⟩

/-- The result is about these values: with a result all that is looked at in them keeps its rule,
and an error is about something that does not. -/
structure Judged (spots : List Spot) (r : Except CompileError α) : Prop where
  kept {a : α} : r = .ok a → ∀ s ∈ spots, AllKept s.role s.value
  blamed {e : CompileError} : r = .error e → ∃ s ∈ spots, Blames s.path s.role s.value e

namespace Judged

variable {spots spots' rest : List Spot} {r : Except CompileError α}
variable {role : Role} {value : Json} {e : CompileError}

theorem ok (a : α) : Judged [] (.ok a) := ⟨fun _ => nofun, nofun⟩

theorem map (h : Judged spots r) (f : α → β) : Judged spots (r.map f) := by
  cases r with
  | ok a => exact ⟨fun _ => h.kept rfl, nofun⟩
  | error e => exact ⟨nofun, fun he => by cases he; exact h.blamed rfl⟩

theorem bind (h : Judged spots r) {f : α → Except CompileError β} (hf : ∀ a, Judged spots' (f a)) :
    Judged (spots ++ spots') (r >>= f) := by
  cases r with
  | ok a =>
    refine ⟨fun ha => List.forall_mem_append.2 ⟨h.kept rfl, (hf a).kept ha⟩, fun he => ?_⟩
    obtain ⟨s, hs, hblames⟩ := (hf a).blamed he
    exact ⟨s, List.mem_append_right _ hs, hblames⟩
  | error e =>
    refine ⟨nofun, fun he => ?_⟩
    cases he
    obtain ⟨s, hs, hblames⟩ := h.blamed rfl
    exact ⟨s, List.mem_append_left _ hs, hblames⟩

theorem perm (h : Judged spots r) (hperm : spots.Perm spots') : Judged spots' r := by
  refine ⟨fun ha s hs => h.kept ha s (hperm.mem_iff.2 hs), fun he => ?_⟩
  obtain ⟨s, hs, hblames⟩ := h.blamed he
  exact ⟨s, hperm.mem_iff.1 hs, hblames⟩

/-- A value that breaks its rule is to blame. -/
theorem broken (h : role.Reports value path e) (rest : List Spot) :
    Judged (⟨path, role, value⟩ :: rest) (.error e : Except CompileError α) := by
  refine ⟨nofun, fun he => ?_⟩
  cases he
  exact ⟨_, List.mem_cons_self, h.blames⟩

/-- Of a value that keeps its rule what counts is what is looked at in it. -/
theorem looked_cons (hkept : role.Kept value)
    (h : Judged (spotsAt path (role.parts value) ++ rest) r) :
    Judged (⟨path, role, value⟩ :: rest) r := by
  refine ⟨fun ha => List.forall_mem_cons.2 ⟨allKept_iff.2 ⟨hkept, fun part hpart => ?_⟩, ?_⟩,
    fun he => ?_⟩
  · exact h.kept ha _ (List.mem_append_left _ (List.mem_map_of_mem hpart))
  · exact fun s hs => h.kept ha s (List.mem_append_right _ hs)
  · obtain ⟨s, hs, hblames⟩ := h.blamed he
    rcases List.mem_append.1 hs with hs | hs
    · obtain ⟨part, hpart, rfl⟩ := List.mem_map.1 hs
      exact ⟨_, List.mem_cons_self, hblames.inside hpart⟩
    · exact ⟨s, List.mem_cons_of_mem _ hs, hblames⟩

theorem looked (hkept : role.Kept value) (h : Judged (spotsAt path (role.parts value)) r) :
    Judged [⟨path, role, value⟩] r :=
  looked_cons hkept (by rwa [List.append_nil])

end Judged

theorem spotsAt_append (parts more : List Part) :
    spotsAt path (parts ++ more) = spotsAt path parts ++ spotsAt path more := List.map_append

theorem spotsAt_partUnder_of_get? {node : Dict Json} {keyword : String} {value : Json}
    {role : Role}
    (h : Dict.get? node keyword = some value) :
    spotsAt path (partUnder node role keyword) = [⟨path ++ [.key keyword], role, value⟩] := by
  rw [partUnder, h]
  rfl

theorem spotsAt_partUnder_of_absent {node : Dict Json} {keyword : String} {role : Role}
    (h : Dict.get? node keyword = none) : spotsAt path (partUnder node role keyword) = [] := by
  rw [partUnder, h]
  rfl

/-! ## Lists of names -/

theorem requiredNames_of_all {names : List Json} (h : names.all (·.string?.isSome) = true) :
    ∃ required, requiredNames path names = .ok required := by
  induction names with
  | nil => exact ⟨[], rfl⟩
  | cons name names ih =>
    cases name with
    | str s =>
      obtain ⟨required, hrequired⟩ := ih (by simpa [Json.string?] using h)
      exact ⟨s :: required, by rw [requiredNames, hrequired]; rfl⟩
    | null | bool | num | arr | obj => simp [Json.string?] at h

theorem requiredNames_of_not_all {names : List Json}
    (h : names.all (·.string?.isSome) = false) :
    requiredNames path names = .error (.malformed path .requiredNotNames) := by
  induction names with
  | nil => cases h
  | cons name names ih =>
    cases name with
    | str s =>
      rw [requiredNames, ih (by simpa [Json.string?] using h)]
      rfl
    | null | bool | num | arr | obj => rfl

theorem requiredOf_judged (path : SchemaPath) (node : Dict Json) :
    Judged (spotsAt path (partUnder node .required "required")) (requiredOf path node) := by
  unfold requiredOf
  cases hvalue : Dict.get? node "required" with
  | none =>
    rw [spotsAt_partUnder_of_absent hvalue]
    exact .ok _
  | some value =>
    rw [spotsAt_partUnder_of_get? hvalue]
    cases value with
    | arr names =>
      cases hall : names.all (·.string?.isSome) with
      | true =>
        obtain ⟨required, hrequired⟩ := requiredNames_of_all hall
        dsimp only
        rw [hrequired]
        exact .looked ⟨by rw [Role.malformation?, hall]; rfl, nofun⟩ (.ok _)
      | false =>
        dsimp only
        rw [requiredNames_of_not_all hall]
        exact .broken (.malformed (by rw [Role.malformation?, hall]; rfl)) []
    | null | bool | num | str | obj => exact .broken (.malformed rfl) []

/-- What goes wrong in a list of type names goes wrong with one of them, or is something else than
a name. -/
theorem exists_of_typesOfNames_eq_error {ofName : String → Except CompileError TypeExpr}
    {start : Nat} {names : List Json} {e : CompileError}
    (h : typesOfNames path ofName start names = .error e) :
    (∃ name, .str name ∈ names ∧ ofName name = .error e) ∨
      ∃ x ∈ names.zipIdx start, x.1.string? = none ∧
        e = .malformed (path ++ [.key "type", .index x.2]) .typeNameNotString := by
  induction names generalizing start with
  | nil => cases h
  | cons name names ih =>
    cases name with
    | str s =>
      rw [typesOfNames] at h
      rcases eq_error_or_of_bind_eq_error h with h | ⟨type, -, h⟩
      · exact .inl ⟨s, List.mem_cons_self, h⟩
      rcases eq_error_or_of_bind_eq_error h with h | ⟨types, -, h⟩
      · rcases ih h with ⟨name, hname, he⟩ | ⟨x, hx, hnone, he⟩
        · exact .inl ⟨name, List.mem_cons_of_mem _ hname, he⟩
        · exact .inr ⟨x, List.mem_cons_of_mem _ hx, hnone, he⟩
      · cases h
    | null | bool | num | arr | obj =>
      cases h
      exact .inr ⟨_, List.mem_cons_self, rfl, rfl⟩

section Names

variable {node : Dict Json} {ofName : String → Except CompileError TypeExpr}

/-- A known name makes a type of what is looked at for it, and another one is refused. -/
structure NamesTypes (path : SchemaPath) (node : Dict Json)
    (ofName : String → Except CompileError TypeExpr) : Prop where
  known {name : String} : name ∈ knownTypes →
    Judged (spotsAt path (partsNamed node name)) (ofName name)
  unknown {name : String} : name ∉ knownTypes →
    ofName name = .error (.unsupportedType (path ++ [.key "type"]) name)

theorem NamesTypes.mem_knownTypes (h : NamesTypes path node ofName) {name : String} {t : TypeExpr}
    (ht : ofName name = .ok t) : name ∈ knownTypes := by
  by_contra hname
  cases (h.unknown hname).symm.trans ht

/-- The type of a name. -/
theorem NamesTypes.ofName_judged (h : NamesTypes path node ofName) (name : String) :
    Judged (⟨path ++ [.key "type"], .types, .str name⟩ :: spotsAt path (partsNamed node name))
      (ofName name) := by
  by_cases hname : name ∈ knownTypes
  · exact .looked_cons ⟨rfl, fun _ => List.forall_mem_singleton.2 hname⟩ (h.known hname)
  · rw [h.unknown hname]
    exact .broken (.unsupported rfl (List.mem_singleton_self name) hname) _

/-- The types of a list of names. -/
theorem NamesTypes.typesOfNames_judged (h : NamesTypes path node ofName) (names : List Json) :
    Judged (⟨path ++ [.key "type"], .types, .arr names⟩ ::
        spotsAt path ((typesNamed (.arr names)).flatMap (partsNamed node)))
      (typesOfNames path ofName 0 names) := by
  constructor
  · intro types htypes
    obtain ⟨members, rfl, -, hmembers⟩ := exists_of_typesOfNames htypes
    have hnamed : typesNamed (.arr (members.map fun m => .str m.1)) = members.map Prod.fst := by
      rw [typesNamed, List.filterMap_map]
      exact congrFun List.filterMap_eq_map' members
    rw [hnamed]
    refine List.forall_mem_cons.2 ⟨allKept_iff.2 ⟨⟨rfl, fun _ => ?_⟩, ?_⟩, ?_⟩
    · rw [hnamed]
      exact List.forall_mem_map.2 fun m hm => h.mem_knownTypes (hmembers m hm)
    · intro part hpart
      obtain ⟨⟨x, i⟩, hx, rfl⟩ := List.mem_map.1 hpart
      obtain ⟨m, -, rfl⟩ := List.mem_map.1 (List.fst_mem_of_mem_zipIdx hx)
      exact allKept_iff.2 ⟨⟨rfl, nofun⟩, nofun⟩
    · intro s hs
      obtain ⟨part, hpart, rfl⟩ := List.mem_map.1 hs
      obtain ⟨name, hname, hpart⟩ := List.mem_flatMap.1 hpart
      obtain ⟨m, hm, rfl⟩ := List.mem_map.1 hname
      have hknown := h.known (h.mem_knownTypes (hmembers m hm))
      exact hknown.kept (hmembers m hm) _ (List.mem_map_of_mem hpart)
  · intro e he
    rcases exists_of_typesOfNames_eq_error he with ⟨name, hmem, he⟩ | ⟨⟨x, i⟩, hx, hnone, rfl⟩
    · have hname : name ∈ typesNamed (.arr names) := List.mem_filterMap.2 ⟨_, hmem, rfl⟩
      by_cases hknown : name ∈ knownTypes
      · obtain ⟨s, hs, hblames⟩ := (h.known hknown).blamed he
        refine ⟨s, List.mem_cons_of_mem _ ?_, hblames⟩
        obtain ⟨part, hpart, rfl⟩ := List.mem_map.1 hs
        exact List.mem_map_of_mem (List.mem_flatMap.2 ⟨name, hname, hpart⟩)
      · cases (h.unknown hknown).symm.trans he
        exact ⟨_, List.mem_cons_self, Role.Reports.blames (.unsupported rfl hname hknown)⟩
    · refine ⟨_, List.mem_cons_self, Blames.inside (List.mem_map_of_mem hx) ?_⟩
      have hmalformed : Role.typeName.malformation? x = some .typeNameNotString := by
        cases x with
        | str => cases hnone
        | null | bool | num | arr | obj => rfl
      rw [List.append_assoc]
      exact Role.Reports.blames (.malformed hmalformed)

end Names

theorem typeOfName_of_unknown {node : Dict Json} {name : String} (h : name ∉ knownTypes) :
    typeOfName options path node name =
      .error (.unsupportedType (path ++ [.key "type"]) name) := by
  simp only [knownTypes, List.mem_cons, List.not_mem_nil, or_false, not_or] at h
  simp [typeOfName, plainType?, h]

/-! ## Types of schemas -/

section Nodes

variable {node : Dict Json} {value : Json} {keyword : String} {role : Role}
variable {r : Except CompileError α}

theorem Judged.under (hvalue : Dict.get? node keyword = some value)
    (h : Judged [⟨path ++ [.key keyword], role, value⟩] r) :
    Judged (spotsAt path (partUnder node role keyword)) r := by
  rwa [spotsAt_partUnder_of_get? hvalue]

theorem spotsAt_nodeParts_types (h : leading? node = some "type")
    (hvalue : Dict.get? node "type" = some value) :
    spotsAt path (nodeParts node) = ⟨path ++ [.key "type"], .types, value⟩ ::
      spotsAt path ((typesNamed value).flatMap (partsNamed node)) := by
  have hparts : nodeParts node = partUnder node .types "type" ++
      ((Dict.get? node "type").toList.flatMap typesNamed).flatMap (partsNamed node) := by
    rw [nodeParts, h]
    rfl
  rw [hparts, spotsAt_append, spotsAt_partUnder_of_get? hvalue, hvalue, Option.toList_some,
    List.flatMap_singleton]
  rfl

theorem partsNamed_of_plain {name : String} {t : TypeExpr} (h : plainType? name = some t) :
    partsNamed node name = [] := by
  rw [partsNamed, if_neg, if_neg] <;> rintro rfl <;> simp [plainType?] at h

end Nodes

mutual

/-- The type of a schema is judged by the schema. -/
theorem typeOf_judged (path : SchemaPath) (schema : Json) :
    Judged [⟨path, .schema, schema⟩] (typeOf options path schema) := by
  cases schema with
  | bool b => cases b <;> (rw [typeOf]; exact .looked ⟨rfl, nofun⟩ (.ok _))
  | obj node =>
    rw [typeOf]
    exact .looked ⟨rfl, nofun⟩ (typeOfNode_judged path node)
  | null | num | str | arr => simpa [typeOf] using .broken (.malformed rfl) []
termination_by (sizeOf schema, 0)

theorem typeOfNode_judged (path : SchemaPath) (node : Dict Json) :
    Judged (spotsAt path (nodeParts node)) (typeOfNode options path node) := by
  rw [typeOfNode]
  have habsent := absent_nil node
  split
  · next text hv =>
    rw [nodeParts, habsent.leading? (Dict.has_of_get? hv) rfl]
    exact .under hv (.looked ⟨rfl, nofun⟩ (.ok _))
  · next value hother hv =>
    rw [nodeParts, habsent.leading? (Dict.has_of_get? hv) rfl]
    refine .under hv (.broken (.malformed ?_) [])
    cases value with
    | str s => exact absurd rfl (hother s)
    | null | bool | num | arr | obj => rfl
  next hv =>
  replace habsent := habsent.snoc hv
  split
  · next value hv =>
    rw [nodeParts, habsent.leading? (Dict.has_of_get? hv) rfl]
    exact .ok _
  next hv =>
  replace habsent := habsent.snoc hv
  split
  · next values hv =>
    rw [nodeParts, habsent.leading? (Dict.has_of_get? hv) rfl]
    exact .under hv (.looked ⟨rfl, nofun⟩ (.ok _))
  · next value hother hv =>
    rw [nodeParts, habsent.leading? (Dict.has_of_get? hv) rfl]
    refine .under hv (.broken (.malformed ?_) [])
    cases value with
    | arr xs => exact absurd rfl (hother xs)
    | null | bool | num | str | obj => rfl
  next hv =>
  replace habsent := habsent.snoc hv
  split
  · next members hv =>
    rw [nodeParts, habsent.leading? (Dict.has_of_get? hv) rfl]
    exact .under hv ((typesOfListed_judged _ members).map _)
  next hv =>
  replace habsent := habsent.snoc hv
  split
  · next members hv =>
    rw [nodeParts, habsent.leading? (Dict.has_of_get? hv) rfl]
    exact .under hv ((typesOfListed_judged _ members).map _)
  next hv =>
  replace habsent := habsent.snoc hv
  split
  · next members hv =>
    rw [nodeParts, habsent.leading? (Dict.has_of_get? hv) rfl]
    exact .under hv ((typesOfListed_judged _ members).map _)
  next hv =>
  replace habsent := habsent.snoc hv
  have hnames : NamesTypes path node fun name => typeOfName options path node name :=
    ⟨fun h => typeOfName_judged path node h, typeOfName_of_unknown⟩
  split
  · next name hv =>
    rw [spotsAt_nodeParts_types (habsent.leading? (Dict.has_of_get? hv) rfl) hv, typesNamed,
      List.flatMap_singleton]
    exact hnames.ofName_judged name
  · next names hv =>
    rw [spotsAt_nodeParts_types (habsent.leading? (Dict.has_of_get? hv) rfl) hv]
    exact (hnames.typesOfNames_judged names).map _
  · next value hname hnames hv =>
    rw [spotsAt_nodeParts_types (habsent.leading? (Dict.has_of_get? hv) rfl) hv]
    refine .broken (.malformed ?_) _
    cases value with
    | str s => exact absurd rfl (hname s)
    | arr xs => exact absurd rfl (hnames xs)
    | null | bool | num | obj => rfl
  next hv =>
  replace habsent := habsent.snoc hv
  split
  · next hproperties =>
    rw [nodeParts, habsent.leading? hproperties rfl]
    exact typeOfObject_judged path node
  next hproperties =>
  replace habsent := habsent.snoc (Dict.has_eq_false.1 (Bool.eq_false_iff.2 hproperties))
  split
  · next hitems =>
    rw [nodeParts, habsent.leading? hitems rfl]
    exact typeOfArray_judged path node
  next hitems =>
  replace habsent := habsent.snoc (Dict.has_eq_false.1 (Bool.eq_false_iff.2 hitems))
  have hnone : leading? node = none := habsent.find?
  rw [nodeParts, hnone]
  exact .ok _
termination_by (sizeOf node, 3)
decreasing_by
  all_goals
    first
    | omega
    | have := sizeOf_lt_of_get? ‹Dict.get? node _ = some _›
      omega

theorem typeOfName_judged (path : SchemaPath) (node : Dict Json) {name : String}
    (h : name ∈ knownTypes) :
    Judged (spotsAt path (partsNamed node name)) (typeOfName options path node name) := by
  rw [typeOfName]
  split
  · next hplain =>
    rw [partsNamed_of_plain hplain]
    exact .ok _
  next hplain =>
  split
  · next harray =>
    rw [harray]
    exact typeOfArray_judged path node
  split
  · next hobject =>
    rw [hobject]
    exact typeOfObject_judged path node
  · next harray hobject =>
    simp only [knownTypes, List.mem_cons, List.not_mem_nil, or_false] at h
    rcases h with rfl | rfl | rfl | rfl | rfl | rfl | rfl | rfl
    case inr.inr.inr.inr.inr.inr.inl => exact absurd rfl harray
    case inr.inr.inr.inr.inr.inr.inr => exact absurd rfl hobject
    all_goals cases hplain
termination_by (sizeOf node, 2)

theorem typesOfListed_judged (path : SchemaPath) (schemas : Json) :
    Judged [⟨path, .schemas, schemas⟩] (typesOfListed options path schemas) := by
  cases schemas with
  | arr members =>
    rw [typesOfListed]
    exact .looked ⟨rfl, nofun⟩ (typesOf_judged path 0 members)
  | null | bool | num | str | obj => simpa [typesOfListed] using .broken (.malformed rfl) []
termination_by (sizeOf schemas, 0)

theorem typesOf_judged (path : SchemaPath) (start : Nat) (schemas : List Json) :
    Judged (spotsAt path (partsListed .schema start schemas))
      (typesOf options path start schemas) := by
  match schemas with
  | [] =>
    rw [typesOf]
    exact .ok _
  | schema :: rest =>
    rw [typesOf]
    have hrest := typesOf_judged path (start + 1) rest
    exact (typeOf_judged (path ++ [.index start]) schema).bind fun _ => hrest.map _
termination_by (sizeOf schemas, 0)

theorem typeOfArray_judged (path : SchemaPath) (node : Dict Json) :
    Judged (spotsAt path (partsNamed node "array")) (typeOfArray options path node) := by
  rw [typeOfArray]
  split
  · next hv =>
    rw [partsNamed, if_pos rfl, hv]
    exact .ok _
  · next items hv =>
    rw [partsNamed, if_pos rfl, hv]
    have hitems : Judged [⟨path ++ [.key "items"], .schemas, .arr items⟩]
        (typesOf options (path ++ [.key "items"]) 0 items) :=
      .looked ⟨rfl, nofun⟩ (typesOf_judged _ 0 items)
    exact hitems.map _
  · next item hother hv =>
    rw [partsNamed, if_pos rfl, hv]
    have hitem := (typeOf_judged (path ++ [.key "items"]) item).map TypeExpr.array
    cases item with
    | arr items => exact absurd rfl (hother items)
    | null | bool | num | str | obj => exact hitem
termination_by (sizeOf node, 0)
decreasing_by
  · have := sizeOf_lt_of_get? ‹Dict.get? node _ = some _›
    simp at this ⊢
    omega
  · exact Prod.Lex.left _ _ (sizeOf_lt_of_get? ‹Dict.get? node _ = some _›)

theorem typeOfObject_judged (path : SchemaPath) (node : Dict Json) :
    Judged (spotsAt path (partsNamed node "object")) (typeOfObject options path node) := by
  rw [typeOfObject, partsNamed, if_neg (by decide), if_pos rfl, spotsAt_append]
  have hindex := indexOf_judged path node
  exact (propertiesOf_judged path node).bind fun _ => hindex.map _
termination_by (sizeOf node, 1)

theorem propertiesOf_judged (path : SchemaPath) (node : Dict Json) :
    Judged (spotsAt path
        (partUnder node .properties "properties" ++ partUnder node .required "required"))
      (propertiesOf options path node) := by
  rw [propertiesOf, spotsAt_append]
  split
  · next hv =>
    rw [spotsAt_partUnder_of_absent hv]
    exact (requiredOf_judged path node).map _
  · next properties hv =>
    rw [spotsAt_partUnder_of_get? hv]
    -- what is required is looked at before the properties
    have hboth := (requiredOf_judged path node).bind fun required =>
      typesOfProperties_judged path required properties
    exact .looked_cons ⟨rfl, nofun⟩ (hboth.perm List.perm_append_comm)
  · next value hother hv =>
    rw [spotsAt_partUnder_of_get? hv]
    refine .broken (.malformed ?_) _
    cases value with
    | obj properties => exact absurd rfl (hother properties)
    | null | bool | num | str | arr => rfl
termination_by (sizeOf node, 0)
decreasing_by
  have := sizeOf_lt_of_get? ‹Dict.get? node _ = some _›
  simp at this ⊢
  omega

theorem indexOf_judged (path : SchemaPath) (node : Dict Json) :
    Judged (spotsAt path (partUnder node .further "additionalProperties"))
      (indexOf options path node) := by
  rw [indexOf]
  split
  · next hv =>
    rw [spotsAt_partUnder_of_absent hv]
    exact .ok _
  · next hv => exact .under hv (.looked ⟨rfl, nofun⟩ (.ok _))
  · next hv => exact .under hv (.looked ⟨rfl, nofun⟩ (.ok _))
  · next schema hv =>
    exact .under hv (.looked ⟨rfl, nofun⟩ ((typeOfNode_judged _ schema).map _))
  · next value hfalse htrue hobject hv =>
    refine .under hv (.broken (.malformed ?_) [])
    cases value with
    | bool b => cases b; exacts [absurd rfl hfalse, absurd rfl htrue]
    | obj schema => exact absurd rfl (hobject schema)
    | null | num | str | arr => rfl
termination_by (sizeOf node, 0)
decreasing_by
  have := sizeOf_lt_of_get? ‹Dict.get? node _ = some _›
  simp at this ⊢
  omega

theorem typesOfProperties_judged (path : SchemaPath) (required : List String)
    (properties : Dict Json) :
    Judged (spotsAt (path ++ [.key "properties"]) (Role.properties.parts (.obj properties)))
      (typesOfProperties options path required properties) := by
  match properties with
  | [] =>
    rw [typesOfProperties]
    exact .ok _
  | (key, schema) :: rest =>
    have hpath : path ++ [.key "properties", .key key] =
        path ++ [.key "properties"] ++ [.key key] := by
      rw [List.append_assoc]
      rfl
    rw [typesOfProperties, hpath]
    have hrest := typesOfProperties_judged path required rest
    exact (typeOf_judged _ schema).bind fun _ => hrest.map _
termination_by (sizeOf properties, 0)

end

/-- The text of a place is made of its steps, with slashes between them. -/
theorem SchemaPath.text_eq_intercalate (path : SchemaPath) :
    path.text = "/".intercalate ("#" :: path.map PathStep.text) := by
  have hsteps (start : String) : start ++ String.join (path.map fun step => "/" ++ step.text) =
      "/".intercalate (start :: path.map PathStep.text) := by
    induction path generalizing start with
    | nil => simp
    | cons step path ih =>
      rw [List.map_cons, List.map_cons, String.join_cons, String.intercalate_cons_cons, ← ih]
      simp only [String.append_assoc]
  exact hsteps "#"

/-- The wording of an error stands behind its place. -/
theorem Role.Reports.exists_message {role : Role} {value : Json} {e : CompileError}
    (h : role.Reports value path e) : ∃ wording, e.message = path.text ++ ": " ++ wording := by
  cases h with
  | @malformed rule _ => exact ⟨rule.message, rfl⟩
  | @unsupported name =>
    refine ⟨"unsupported type `" ++ name ++ "`", ?_⟩
    have hwords : ": unsupported type `" = ": " ++ "unsupported type `" := by rfl
    change path.text ++ ": unsupported type `" ++ name ++ "`" = _
    rw [hwords]
    simp only [String.append_assoc]

/-- The declaration of a schema is judged by the schema. -/
theorem declare_judged {name : String} (hname : isIdentifier name = true) (schema : Json) :
    Judged [⟨[], .root, schema⟩] (declare options name schema) := by
  cases schema with
  | obj node =>
    have hnode : Judged _ (typeOfNode options [] node) := typeOfNode_judged [] node
    rw [declare_eq_map hname, typeOf]
    exact .looked (Role.kept_root node) (hnode.map _)
  | null | bool | num | str | arr =>
    simp only [declare, hname, Bool.not_true, Bool.false_eq_true, if_false]
    exact .broken (.malformed rfl) []

/-- **Errors of schemas are about values that break their rule.** The place of an error is the path
to a value of the schema, that value is looked at, and what is wrong with it is what the error
says. A schema has a declaration if and only if all that is looked at in it keeps its rule. -/
theorem compile_blames_culprit (options : CompileOptions) (schema : Json) {name : String}
    (hname : isIdentifier name = true) :
    (∀ e, compile options name schema = .error e →
      ∃ path role value, path.Leads schema value ∧ Inspects .root schema path role value ∧
        ¬ role.Kept value ∧ role.Reports value path e ∧
        ∃ wording, e.message =
          "/".intercalate ("#" :: path.map PathStep.text) ++ ": " ++ wording) ∧
    ((∃ text, compile options name schema = .ok text) ↔
      ∀ path role value, Inspects .root schema path role value → role.Kept value) := by
  have hdeclare : Judged _ (declare options name schema) := declare_judged hname schema
  have hjudged := hdeclare.map (Declaration.print options.indent)
  refine ⟨fun e he => ?_, ?_, fun h => ?_⟩
  · obtain ⟨s, hs, steps, role, value, hinspects, hreports⟩ := hjudged.blamed he
    obtain rfl := List.mem_singleton.1 hs
    refine ⟨steps, role, value, hinspects.leads, hinspects, hreports.not_kept, hreports, ?_⟩
    rw [← SchemaPath.text_eq_intercalate]
    exact hreports.exists_message
  · rintro ⟨text, htext⟩
    exact hjudged.kept htext _ (List.mem_singleton_self _)
  · refine exists_of_forall_ne_error fun e he => ?_
    obtain ⟨s, hs, steps, role, value, hinspects, hreports⟩ := hjudged.blamed he
    obtain rfl := List.mem_singleton.1 hs
    exact hreports.not_kept (h _ _ _ hinspects)

namespace Palette

/-- An ink is a text or one of two names, of which the schema knows one. -/
def schema : Json := .obj [("properties", .obj [
  ("ink", .obj [("anyOf", .arr [.obj [("tsType", .str "Ink")],
    .obj [("type", .arr [.str "string", .str "color"])]])])])]

/-- What is wrong with it. -/
def fault : CompileError :=
  .unsupportedType [.key "properties", .key "ink", .key "anyOf", .index 1, .key "type"] "color"

/-- The name that is not known stands in the second alternative. -/
theorem compile_blames_color :
    compile {} "Palette" schema = .error fault ∧
    ∃ path role value, path.Leads schema value ∧ Inspects .root schema path role value ∧
      ¬ role.Kept value ∧ role.Reports value path fault ∧
      ∃ wording, fault.message =
        "/".intercalate ("#" :: path.map PathStep.text) ++ ": " ++ wording := by
  have hname : isIdentifier "Palette" = true := by decide
  have herror : compile {} "Palette" schema = .error fault := by
    simp [schema, fault, compile, declare, hname, isObjectNode, overridingKeywords, typeOf,
      typeOfNode, typeOfObject, propertiesOf, requiredOf, typesOfProperties, typesOfListed,
      typesOf, typesOfNames, typeOfName, plainType?, Dict.has, Except.map, bind, Except.bind]
  exact ⟨herror, (compile_blames_culprit {} schema hname).1 fault herror⟩

end Palette

end Blokwork.TypeScript
