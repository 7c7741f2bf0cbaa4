import Blokwork.Generate.Generation
import Blokwork.Proofs.Generate.Acceptance

/-!
# Runs over several components

All components of a run share one queue of helper types. The queue decides which helper types stand
in front of a component, so that each that is needed is declared once
(`exists_helperTypes_componentsFrom`), and nothing about the component itself
(`componentsFrom_eq`). So what becomes of a component does not depend on what becomes of others
(`generate_isolated`). It fails only because of a fragment that the caller's types return
(`failures_of_returned`).
-/

namespace Blokwork

open TypeScript

/-! ## Runs one after the other -/

namespace Generation

/-- Several runs, one after the other. -/
def concat (gs : List Generation) : Generation := gs.foldr append {}

@[simp] theorem types_concat (gs : List Generation) :
    (concat gs).types = gs.flatMap (·.types) := by
  induction gs with
  | nil => rfl
  | cons g gs ih => simpa [concat, append] using ih

@[simp] theorem failures_concat (gs : List Generation) :
    (concat gs).failures = gs.flatMap (·.failures) := by
  induction gs with
  | nil => rfl
  | cons g gs ih => simpa [concat, append] using ih

@[simp] theorem notices_concat (gs : List Generation) :
    (concat gs).notices = gs.flatMap (·.notices) := by
  induction gs with
  | nil => rfl
  | cons g gs ih => simpa [concat, append] using ih

theorem empty_append (g : Generation) : ({} : Generation).append g = g := rfl

theorem append_assoc (a b c : Generation) : (a.append b).append c = a.append (b.append c) := by
  simp [append]

/-- Runs that are put behind one another from the left. -/
theorem foldl_append {α : Type} (f : α → Generation) (g : Generation) (xs : List α) :
    xs.foldl (fun g x => g.append (f x)) g = g.append (concat (xs.map f)) := by
  induction xs generalizing g with
  | nil => simp [concat, append]
  | cons x xs ih => rw [List.foldl_cons, ih, append_assoc]; rfl

end Generation

/-- The declaration is that of a component. -/
def GeneratedType.isOfComponent (t : GeneratedType) : Bool :=
  match t.origin with
  | .component _ => true
  | .helper _ => false

/-- The declarations of components, in order. -/
def Generation.componentTypes (g : Generation) : List GeneratedType :=
  g.types.filter GeneratedType.isOfComponent

/-- The declarations of helper types, in order. -/
def Generation.helperTypes (g : Generation) : List GeneratedType :=
  g.types.filter (!·.isOfComponent)

/-! ## The queue of helper types -/

/-- The kinds whose helper types a field needs, in the order in which they are declared. -/
def Field.helperKinds (field : Field) : List FieldKind :=
  if field.kind.isShared then HelperType.dependencies field.kind ++ [field.kind] else []

/-- The kinds whose helper types a component needs. -/
def Component.helperKinds (c : Component) : List FieldKind :=
  c.dataFields.flatMap fun e => e.2.helperKinds

/-- The kinds that a field needs are shared. -/
theorem Field.isShared_of_mem_helperKinds {field : Field} {kind : FieldKind}
    (h : kind ∈ field.helperKinds) : kind.isShared = true := by
  unfold helperKinds at h
  split at h
  · next hshared =>
    rcases List.mem_append.1 h with h | h
    · unfold HelperType.dependencies at h
      split at h
      · obtain rfl := List.mem_singleton.1 h
        rfl
      · cases h
    · obtain rfl := List.mem_singleton.1 h
      exact hshared
  · cases h

/-- So are those that a component needs. -/
theorem Component.isShared_of_mem_helperKinds {c : Component} {kind : FieldKind}
    (h : kind ∈ c.helperKinds) : kind.isShared = true := by
  obtain ⟨e, -, h⟩ := List.mem_flatMap.1 h
  exact Field.isShared_of_mem_helperKinds h

namespace HelperQueue

theorem afterFields_eq (queue : HelperQueue) (fields : Dict Field) :
    queue.afterFields fields = (fields.flatMap fun e => e.2.helperKinds).foldl enqueue queue := by
  unfold afterFields
  induction fields generalizing queue with
  | nil => rfl
  | cons e rest ih =>
    rw [List.foldl_cons, ih, List.flatMap_cons, List.foldl_append]
    unfold afterField refer Field.helperKinds
    split <;> simp

/-- Kinds that are queued one after the other are put behind the others, each unless it was
seen. -/
theorem exists_foldl_enqueue (queue : HelperQueue) (kinds : List FieldKind) :
    ∃ fresh : List FieldKind,
      kinds.foldl enqueue queue = ⟨queue.seen ++ fresh, queue.pending ++ fresh⟩ ∧
      (queue.seen.Nodup → (queue.seen ++ fresh).Nodup) ∧
      ∀ kind, kind ∈ queue.seen ++ fresh ↔ kind ∈ queue.seen ∨ kind ∈ kinds := by
  induction kinds generalizing queue with
  | nil => exact ⟨[], by simp, by simp, by simp⟩
  | cons first kinds ih =>
    rw [List.foldl_cons]
    by_cases hseen : first ∈ queue.seen
    · have hsame : queue.enqueue first = queue := if_pos (List.contains_iff_mem.2 hseen)
      obtain ⟨fresh, hqueue, hnodup, hmem⟩ := ih queue
      refine ⟨fresh, by rw [hsame, hqueue], hnodup, fun kind => ?_⟩
      rw [hmem, List.mem_cons]
      constructor
      · exact Or.imp_right .inr
      · rintro (h | rfl | h)
        exacts [.inl h, .inl hseen, .inr h]
    · have hnew : queue.enqueue first = ⟨queue.seen ++ [first], queue.pending ++ [first]⟩ :=
        if_neg fun h => hseen (List.contains_iff_mem.1 h)
      obtain ⟨fresh, hqueue, hnodup, hmem⟩ := ih ⟨queue.seen ++ [first], queue.pending ++ [first]⟩
      simp only [List.append_assoc, List.singleton_append] at hqueue hnodup hmem
      refine ⟨first :: fresh, by rw [hnew, hqueue], fun h => hnodup ?_, fun kind => ?_⟩
      · exact h.append (List.nodup_singleton _) (List.disjoint_singleton.2 hseen)
      · rw [hmem, List.mem_append, List.mem_singleton, List.mem_cons, or_assoc]

/-- The queue after all that some components need is declared. -/
def afterComponents (queue : HelperQueue) (components : List Component) : HelperQueue :=
  components.foldl (fun queue c => (queue.afterFields c.dataFields).taken) queue

end HelperQueue

/-! ## Helper types -/

namespace HelperType

theorem isSome_schema? (namer : TypeNamer) (kind : FieldKind) :
    (schema? namer kind).isSome = kind.isShared := by
  cases kind <;> rfl

/-- The schema of a helper type is an object without a description. -/
theorem exists_node_of_schema? {namer : TypeNamer} {kind : FieldKind} {schema : Json}
    (h : schema? namer kind = some schema) :
    ∃ node, schema = .obj node ∧ description? node = none := by
  cases kind <;> cases h <;> exact ⟨_, rfl, rfl⟩

end HelperType

namespace GeneratorConfig

variable (config : GeneratorConfig)

/-- The helper type of a shared kind is declared, whatever the names and options are. -/
theorem exists_helper {kind : FieldKind} (hkind : kind.isShared = true) :
    ∃ schema declaration, HelperType.schema? config.namer kind = some schema ∧
      TypeScript.compile config.compile (config.namer.typeName kind.name) schema =
        .ok declaration ∧
      config.helper kind =
        { types := [⟨config.namer.typeName kind.name, .helper kind, declaration⟩] } := by
  rw [← HelperType.isSome_schema? config.namer] at hkind
  obtain ⟨schema, hschema⟩ := Option.isSome_iff_exists.1 hkind
  obtain ⟨node, rfl, -⟩ := HelperType.exists_node_of_schema? hschema
  obtain ⟨declaration, hcompile⟩ := exists_compile
    (config.namer.isIdentifier_typeName kind.name)
    (HelperType.accepted_schema? config.compile hschema)
  refine ⟨_, declaration, hschema, hcompile, ?_⟩
  unfold helper
  rw [hschema]
  dsimp only
  rw [hcompile]

/-- Other kinds have none. -/
theorem helper_of_not_shared {kind : FieldKind} (hkind : kind.isShared = false) :
    config.helper kind = {} := by
  rw [← HelperType.isSome_schema? config.namer, Option.isSome_eq_false_iff,
    Option.isNone_iff_eq_none] at hkind
  rw [helper, hkind]

/-- The helper type of a kind is no component, and nothing goes wrong with it. -/
theorem helper_cases (kind : FieldKind) :
    (∀ t ∈ (config.helper kind).types, t.origin = .helper kind) ∧
      (config.helper kind).failures = [] ∧ (config.helper kind).notices = [] := by
  cases hkind : kind.isShared with
  | true =>
    obtain ⟨schema, declaration, -, -, hhelper⟩ := config.exists_helper hkind
    simp [hhelper]
  | false => simp [config.helper_of_not_shared hkind]

theorem helpers_eq (kinds : List FieldKind) :
    config.helpers kinds = Generation.concat (kinds.map config.helper) := by
  rw [helpers, Generation.foldl_append, Generation.empty_append]

theorem types_helpers (kinds : List FieldKind) :
    (config.helpers kinds).types = kinds.flatMap fun kind => (config.helper kind).types := by
  rw [helpers_eq, Generation.types_concat, List.flatMap_map]

/-- Each of the kinds has its declaration, with the name that is made of its own. -/
theorem declared_helpers {kinds : List FieldKind} (h : ∀ kind ∈ kinds, kind.isShared = true) :
    (config.helpers kinds).types.map (fun t => (t.typeName, t.origin)) =
      kinds.map fun kind => (config.namer.typeName kind.name, .helper kind) := by
  rw [types_helpers]
  induction kinds with
  | nil => rfl
  | cons kind kinds ih =>
    obtain ⟨hkind, hkinds⟩ := List.forall_mem_cons.1 h
    obtain ⟨schema, declaration, -, -, hhelper⟩ := config.exists_helper hkind
    rw [List.flatMap_cons, List.map_append, ih hkinds, hhelper]
    rfl

end GeneratorConfig

/-! ## What is reported -/

/-- The notice is about a field of a component or about its failure. -/
def Notice.isOfComponents : Notice → Bool
  | .emptyGroup .. | .undefinedComponent .. | .componentFailed .. => true
  | _ => false

namespace FragmentContext

variable (ctx : FragmentContext)

theorem isOfComponents_of_mem_fragments {name : String} {field : Field} {n : Notice}
    (h : n ∈ (ctx.fragments name field).notices) : n.isOfComponents = true := by
  unfold fragments plainFragments at h
  split at h
  · cases h
  split at h
  · cases h
  unfold typeText at h
  dsimp only at h
  split at h
  · cases h
  · unfold allowedComponents at h
    split at h
    · cases h
    split at h
    · split at h
      · cases h
      · obtain ⟨group, -, rfl⟩ := List.mem_map.1 h
        rfl
    · split at h
      · cases h
      · obtain ⟨component, -, rfl⟩ := List.mem_map.1 h
        rfl
  · cases h

theorem isOfComponents_of_mem_noticesOfFields {fields : Dict Field} {n : Notice}
    (h : n ∈ ctx.noticesOfFields fields) : n.isOfComponents = true := by
  obtain ⟨e, -, h⟩ := List.mem_flatMap.1 h
  exact ctx.isOfComponents_of_mem_fragments h

end FragmentContext

/-! ## The roster -/

/-- What the roster knows of a component. -/
def Component.listing (c : Component) : String × Option String := (c.name, c.group)

namespace Roster

/-- The roster depends on the names and groups alone. -/
theorem ofComponents_congr {xs ys : List Component}
    (h : xs.map Component.listing = ys.map Component.listing) :
    ofComponents xs = ofComponents ys := by
  let addListed (roster : Roster) (entry : String × Option String) : Roster :=
    roster.add { name := entry.1, group := entry.2 }
  have hlisted (components : List Component) :
      ofComponents components = (components.map Component.listing).foldl addListed {} := by
    rw [List.foldl_map]
    rfl
  rw [hlisted, hlisted, h]

/-- Repeated components are all that the roster reports. -/
theorem eq_of_mem_noticesFrom {roster : Roster} {components : List Component} {n : Notice}
    (h : n ∈ roster.noticesFrom components) : ∃ name, n = .repeatedComponent name := by
  induction components generalizing roster with
  | nil => cases h
  | cons c rest ih =>
    rcases List.mem_append.1 h with h | h
    · unfold noticesOf at h
      split at h
      · exact ⟨_, List.mem_singleton.1 h⟩
      · cases h
    · exact ih h

end Roster

/-! ## What becomes of each component -/

/-- A failure, where there is one. -/
def ComponentFailure.ofOutcome? : Except ComponentFailure GeneratedType → Option ComponentFailure
  | .ok _ => none
  | .error f => some f

/-- The declaration, or the failure, is that of the component. -/
def Component.HasOutcome (c : Component) : Except ComponentFailure GeneratedType → Prop
  | .ok t => t.origin = .component c.name
  | .error f => f.component = c.name

theorem Component.hasOutcome_generatedType (ctx : FragmentContext) (options : CompileOptions)
    (c : Component) : c.HasOutcome (c.generatedType ctx options) := by
  unfold generatedType
  dsimp only
  split <;> rfl

namespace Generation

@[simp] theorem componentTypes_append (a b : Generation) :
    (a.append b).componentTypes = a.componentTypes ++ b.componentTypes :=
  List.filter_append _ _

@[simp] theorem helperTypes_append (a b : Generation) :
    (a.append b).helperTypes = a.helperTypes ++ b.helperTypes :=
  List.filter_append _ _

@[simp] theorem failures_append (a b : Generation) :
    (a.append b).failures = a.failures ++ b.failures := rfl

@[simp] theorem notices_append (a b : Generation) :
    (a.append b).notices = a.notices ++ b.notices := rfl

@[simp] theorem componentTypes_reported (notices : List Notice) :
    ({ notices } : Generation).componentTypes = [] := rfl

@[simp] theorem helperTypes_reported (notices : List Notice) :
    ({ notices } : Generation).helperTypes = [] := rfl

theorem mem_types_of_componentTypes {g : Generation} {t : GeneratedType}
    (h : t ∈ g.componentTypes) : t ∈ g.types :=
  List.mem_of_mem_filter h

/-- The declarations are those of components and those of helper types. -/
theorem types_perm (g : Generation) : (g.componentTypes ++ g.helperTypes).Perm g.types :=
  List.filter_append_perm _ _

end Generation

namespace GeneratorConfig

variable (config : GeneratorConfig) (ctx : FragmentContext)

theorem helpers_cases (kinds : List FieldKind) :
    (config.helpers kinds).componentTypes = [] ∧
      (config.helpers kinds).helperTypes = (config.helpers kinds).types ∧
      (config.helpers kinds).failures = [] ∧ (config.helpers kinds).notices = [] := by
  have horigin : ∀ t ∈ (config.helpers kinds).types, t.isOfComponent = false := by
    intro t ht
    rw [types_helpers, List.mem_flatMap] at ht
    obtain ⟨kind, -, ht⟩ := ht
    rw [GeneratedType.isOfComponent, (config.helper_cases kind).1 t ht]
  refine ⟨?_, ?_, ?_, ?_⟩
  · rw [Generation.componentTypes, List.filter_eq_nil_iff]
    exact fun t ht => by simp [horigin t ht]
  · rw [Generation.helperTypes, List.filter_eq_self]
    exact fun t ht => by simp [horigin t ht]
  · rw [helpers_eq, Generation.failures_concat, List.flatMap_map]
    exact List.flatMap_eq_nil_iff.2 fun kind _ => (config.helper_cases kind).2.1
  · rw [helpers_eq, Generation.notices_concat, List.flatMap_map]
    exact List.flatMap_eq_nil_iff.2 fun kind _ => (config.helper_cases kind).2.2

/-- A component adds its declaration or its failure. -/
theorem component_eq (c : Component) :
    (config.component ctx c).componentTypes =
        (c.generatedType ctx config.compile).toOption.toList ∧
      (config.component ctx c).helperTypes = [] ∧
      (config.component ctx c).failures =
        (ComponentFailure.ofOutcome? (c.generatedType ctx config.compile)).toList := by
  have houtcome := c.hasOutcome_generatedType ctx config.compile
  unfold component
  cases hresult : c.generatedType ctx config.compile with
  | ok t =>
    rw [hresult] at houtcome
    have hcomponent : t.isOfComponent = true := by rw [GeneratedType.isOfComponent, houtcome]
    simp [Generation.componentTypes, Generation.helperTypes, hcomponent, Except.toOption,
      ComponentFailure.ofOutcome?]
  | error f =>
    simp [Generation.componentTypes, Generation.helperTypes, Except.toOption,
      ComponentFailure.ofOutcome?]

/-- Components add their declarations and their failures in order, whatever is queued. -/
theorem componentsFrom_eq (queue : HelperQueue) (components : List Component) :
    (config.componentsFrom ctx queue components).componentTypes =
        (components.map fun c => c.generatedType ctx config.compile).filterMap Except.toOption ∧
      (config.componentsFrom ctx queue components).failures =
        (components.map fun c => c.generatedType ctx config.compile).filterMap
          ComponentFailure.ofOutcome? := by
  induction components generalizing queue with
  | nil => exact ⟨rfl, rfl⟩
  | cons c rest ih =>
    obtain ⟨htypes, hfailures⟩ := ih (queue.afterFields c.dataFields).taken
    obtain ⟨hhelpers, -, hhelperFailures, -⟩ :=
      config.helpers_cases (queue.afterFields c.dataFields).pending
    obtain ⟨hcomponent, -, hfailure⟩ := config.component_eq ctx c
    rw [List.map_cons, List.filterMap_cons, List.filterMap_cons, ← htypes, ← hfailures]
    constructor
    · simp only [componentsFrom, Generation.componentTypes_append,
        Generation.componentTypes_reported, hhelpers, hcomponent, List.nil_append]
      cases (c.generatedType ctx config.compile).toOption <;> rfl
    · simp only [componentsFrom, Generation.failures_append, hhelperFailures, hfailure,
        List.nil_append]
      cases ComponentFailure.ofOutcome? (c.generatedType ctx config.compile) <;> rfl

/-- In front of the components that need them, helper types are declared, each once. -/
theorem exists_helperTypes_componentsFrom (seen : List FieldKind) (components : List Component) :
    ∃ fresh : List FieldKind,
      HelperQueue.afterComponents ⟨seen, []⟩ components = ⟨seen ++ fresh, []⟩ ∧
      (config.componentsFrom ctx ⟨seen, []⟩ components).helperTypes =
        (config.helpers fresh).types ∧
      (seen.Nodup → (seen ++ fresh).Nodup) ∧
      ∀ kind, kind ∈ seen ++ fresh ↔ kind ∈ seen ∨ ∃ c ∈ components, kind ∈ c.helperKinds := by
  induction components generalizing seen with
  | nil => exact ⟨[], by simp [HelperQueue.afterComponents], rfl, by simp, by simp⟩
  | cons c rest ih =>
    obtain ⟨first, hqueue, hnodup, hmem⟩ :=
      HelperQueue.exists_foldl_enqueue ⟨seen, []⟩ c.helperKinds
    obtain ⟨more, hafter, htypes, hnodupRest, hmemRest⟩ := ih (seen ++ first)
    rw [Component.helperKinds, ← HelperQueue.afterFields_eq] at hqueue
    refine ⟨first ++ more, ?_, ?_, fun h => ?_, fun kind => ?_⟩
    · rw [HelperQueue.afterComponents, List.foldl_cons, hqueue, ← List.append_assoc]
      exact hafter
    · obtain ⟨-, hhelpers, -⟩ := config.helpers_cases first
      obtain ⟨-, hcomponent, -⟩ := config.component_eq ctx c
      simp only [componentsFrom, hqueue, HelperQueue.taken, List.nil_append,
        Generation.helperTypes_append, Generation.helperTypes_reported, hhelpers, hcomponent,
        htypes, types_helpers, List.append_nil, List.flatMap_append]
    · rw [← List.append_assoc]
      exact hnodupRest (hnodup h)
    · rw [← List.append_assoc, hmemRest, hmem, or_assoc, List.exists_mem_cons_iff]

/-- Of components, their fields and their failures are reported, and nothing else. -/
theorem notices_componentsFrom {queue : HelperQueue} {components : List Component} {n : Notice}
    (h : n ∈ (config.componentsFrom ctx queue components).notices) : n.isOfComponents = true := by
  induction components generalizing queue with
  | nil => cases h
  | cons c rest ih =>
    obtain ⟨-, -, -, hhelpers⟩ := config.helpers_cases (queue.afterFields c.dataFields).pending
    simp only [componentsFrom, Generation.notices_append, hhelpers, List.append_nil,
      List.mem_append] at h
    rcases h with (h | h) | h
    · exact ctx.isOfComponents_of_mem_noticesOfFields h
    · unfold component at h
      split at h
      · cases h
      · obtain rfl := List.mem_singleton.1 h
        rfl
    · exact ih h

/-- What becomes of each component in a run: its declaration, or its failure. -/
def outcomes (components : List Component) : List (Except ComponentFailure GeneratedType) :=
  components.map fun c => c.generatedType (config.context components) config.compile

theorem componentTypes_generate (components : List Component) :
    (config.generate components).componentTypes =
      (config.outcomes components).filterMap Except.toOption := by
  rw [generate, Generation.componentTypes_append, Generation.componentTypes_reported,
    List.nil_append, (config.componentsFrom_eq _ _ _).1, outcomes]

theorem failures_generate (components : List Component) :
    (config.generate components).failures =
      (config.outcomes components).filterMap ComponentFailure.ofOutcome? := by
  rw [generate, Generation.failures_append, (config.componentsFrom_eq _ _ _).2, outcomes]
  rfl

/-- The kinds whose helper types a run declares. -/
theorem exists_helperTypes_generate (components : List Component) :
    ∃ kinds : List FieldKind,
      (config.generate components).helperTypes = (config.helpers kinds).types ∧ kinds.Nodup ∧
      ∀ kind, kind ∈ kinds ↔ ∃ c ∈ components, kind ∈ c.helperKinds := by
  obtain ⟨kinds, -, htypes, hnodup, hmem⟩ :=
    config.exists_helperTypes_componentsFrom (config.context components) [] components
  refine ⟨kinds, ?_, hnodup List.nodup_nil, fun kind => by simpa using hmem kind⟩
  rw [generate, Generation.helperTypes_append, Generation.helperTypes_reported, List.nil_append]
  exact htypes

/-- The helper types that a component needs are declared. -/
theorem exists_mem_of_mem_helperKinds {components : List Component} {c : Component}
    (hc : c ∈ components) {kind : FieldKind} (hkind : kind ∈ c.helperKinds) :
    ∃ t ∈ (config.generate components).types,
      t.typeName = config.namer.typeName kind.name ∧ t.origin = .helper kind := by
  obtain ⟨kinds, htypes, -, hmem⟩ := config.exists_helperTypes_generate components
  obtain ⟨-, declaration, -, -, hhelper⟩ :=
    config.exists_helper (Component.isShared_of_mem_helperKinds hkind)
  refine ⟨⟨config.namer.typeName kind.name, .helper kind, declaration⟩, ?_, rfl, rfl⟩
  refine List.mem_of_mem_filter (p := (!·.isOfComponent)) ?_
  rw [← Generation.helperTypes, htypes, types_helpers, List.mem_flatMap]
  exact ⟨kind, (hmem kind).2 ⟨c, hc, hkind⟩, by rw [hhelper]; exact List.mem_singleton_self _⟩

/-- A helper type never fails. -/
theorem helperFailed_not_mem (components : List Component) (kind : FieldKind)
    (error : CompileError) :
    Notice.helperFailed kind error ∉ (config.generate components).notices := by
  intro h
  rw [generate, Generation.notices_append, rosterNotices, List.mem_append, List.mem_append] at h
  rcases h with (h | h) | h
  · obtain ⟨name, h⟩ := Roster.eq_of_mem_noticesFrom h
    cases h
  · obtain ⟨group, -, h⟩ := List.mem_map.1 h
    cases h
  · cases config.notices_componentsFrom _ h

/-- The declaration of a component is among those of the run. -/
theorem mem_componentTypes {components : List Component} {c : Component} {t : GeneratedType}
    (hc : c ∈ components)
    (ht : c.generatedType (config.context components) config.compile = .ok t) :
    t ∈ (config.generate components).componentTypes := by
  rw [componentTypes_generate, List.mem_filterMap]
  exact ⟨_, List.mem_map_of_mem hc, by rw [ht]; rfl⟩

/-- So is its failure. -/
theorem mem_failures {components : List Component} {c : Component} {f : ComponentFailure}
    (hc : c ∈ components)
    (hf : c.generatedType (config.context components) config.compile = .error f) :
    f ∈ (config.generate components).failures := by
  rw [failures_generate, List.mem_filterMap]
  exact ⟨_, List.mem_map_of_mem hc, by rw [hf]; rfl⟩

/-- A declaration of a component is that of one of them. -/
theorem exists_of_mem_componentTypes {components : List Component} {t : GeneratedType}
    (h : t ∈ (config.generate components).componentTypes) :
    ∃ c ∈ components, c.generatedType (config.context components) config.compile = .ok t := by
  rw [componentTypes_generate, List.mem_filterMap] at h
  obtain ⟨outcome, houtcome, ht⟩ := h
  obtain ⟨c, hc, rfl⟩ := List.mem_map.1 houtcome
  refine ⟨c, hc, ?_⟩
  cases hresult : c.generatedType (config.context components) config.compile with
  | ok u => rw [hresult] at ht; cases ht; rfl
  | error f => rw [hresult] at ht; cases ht

/-- A failure is that of a component. -/
theorem exists_of_mem_failures {components : List Component} {f : ComponentFailure}
    (h : f ∈ (config.generate components).failures) :
    ∃ c ∈ components,
      c.generatedType (config.context components) config.compile = .error f := by
  rw [failures_generate, List.mem_filterMap] at h
  obtain ⟨outcome, houtcome, hf⟩ := h
  obtain ⟨c, hc, rfl⟩ := List.mem_map.1 houtcome
  refine ⟨c, hc, ?_⟩
  cases hresult : c.generatedType (config.context components) config.compile with
  | ok t => rw [hresult] at hf; cases hf
  | error g => rw [hresult] at hf; cases hf; rfl

/-- Failures come from the caller's types alone: without them no component fails, and with them a
component that fails has a fragment of theirs below which its error is. A helper type never fails.
-/
theorem failures_of_returned (components : List Component) :
    (config.custom = none → (config.generate components).failures = []) ∧
    (∀ f ∈ (config.generate components).failures, ∃ c ∈ components, f.component = c.name ∧
      c.generatedType (config.context components) config.compile = .error f ∧
      ∃ key schema, c.ReturnedFor (config.context components) (key, schema) ∧
        key ∉ Component.injectedKeys ∧
        ∃ place steps, f.error.place? = some place ∧
          place = .key "properties" :: .key key :: steps ∧
          ("#/properties/" ++ key).toList <+: place.text.toList) ∧
    ∀ kind error, Notice.helperFailed kind error ∉ (config.generate components).notices := by
  refine ⟨fun hcustom => ?_, fun f hf => ?_, config.helperFailed_not_mem components⟩
  · refine List.eq_nil_iff_forall_not_mem.2 fun f hf => ?_
    obtain ⟨c, -, herror⟩ := config.exists_of_mem_failures hf
    obtain ⟨-, -, ⟨types, htypes, -⟩, -⟩ := Component.exists_of_generatedType_eq_error herror
    have hnone : (config.context components).custom = none := hcustom
    rw [hnone] at htypes
    cases htypes
  · obtain ⟨c, hc, herror⟩ := config.exists_of_mem_failures hf
    obtain ⟨hname, ⟨key, schema⟩, hreturned, hkey, steps, hplace⟩ :=
      Component.exists_of_generatedType_eq_error herror
    exact ⟨c, hc, hname, herror, key, schema, hreturned, hkey, _, steps, hplace, rfl,
      SchemaPath.prefix_text_properties key steps⟩

/-- Components are compiled in isolation: every component is behind exactly one declaration or
failure, in order, and which one it is depends on the names and groups of the others at most. -/
theorem generate_isolated (xs : List Component) :
    (config.generate xs).componentTypes = (config.outcomes xs).filterMap Except.toOption ∧
    (config.generate xs).failures =
      (config.outcomes xs).filterMap ComponentFailure.ofOutcome? ∧
    List.Forall₂ Component.HasOutcome xs (config.outcomes xs) ∧
    ∀ ys : List Component, xs.map Component.listing = ys.map Component.listing →
      ∀ (i : Nat) (c : Component), xs[i]? = some c → ys[i]? = some c →
        (config.outcomes xs)[i]? = (config.outcomes ys)[i]? := by
  refine ⟨config.componentTypes_generate xs, config.failures_generate xs, ?_, ?_⟩
  · rw [outcomes, List.forall₂_map_right_iff]
    exact List.forall₂_same.2 fun c _ => c.hasOutcome_generatedType _ _
  · intro ys hlisting i c hx hy
    have hcontext : config.context xs = config.context ys := by
      rw [context, context, Roster.ofComponents_congr hlisting]
    rw [outcomes, outcomes, List.getElem?_map, List.getElem?_map, hx, hy, hcontext]

end GeneratorConfig

/-! ## A teaser that fails beside a page -/

namespace Landing

/-- A page of teasers. -/
def page : Component where
  name := "page"
  fields := [("body", { kind := .bloks })]

/-- A teaser, with its fields. -/
def teaser (fields : Dict Field) : Component where
  name := "teaser"
  fields := fields

/-- The caller's types give a custom field a schema without a meaning. -/
def config : GeneratorConfig where
  custom := some fun name _ => some [(name, .obj [("type", .bool true)])]

/-- The teaser with a custom field. -/
def sizedTeaser : Component := teaser [("size", { kind := .custom })]

/-- The components with a teaser that has a custom field. -/
def broken : List Component := [sizedTeaser, page]

/-- The components with a teaser that has an image instead. -/
def sound : List Component := [teaser [("image", { kind := .asset })], page]

/-- Where the schema of the caller's types has no meaning. -/
def error : CompileError :=
  .malformed [.key "properties", .key "size", .key "type"] .typeNotNames

theorem outcomes_broken : (config.outcomes broken)[0]? = some (.error ⟨"teaser", error⟩) := by
  have hname : isIdentifier "TeaserStoryblok" = true := by decide
  have htypeName : config.namer.typeName "teaser" = "TeaserStoryblok" := by decide
  have hschema : sizedTeaser.objectSchema (config.context broken) =
      .obj [("$id", .str "#/teaser"), ("title", .str "teaser"), ("type", .str "object"),
        ("required", .arr [.str "_uid", .str "component"]),
        ("properties", .obj [("size", .obj [("type", .bool true)]),
          ("_uid", HelperType.typed "string"),
          ("component", Component.componentSchema "teaser")])] := rfl
  have hcompile : compile config.compile (config.namer.typeName "teaser")
      (sizedTeaser.objectSchema (config.context broken)) = .error error := by
    rw [hschema, htypeName]
    simp [compile, declare, hname, typeOfObject, propertiesOf, typesOfProperties, typeOf,
      typeOfNode, requiredOf, requiredNames, Dict.get?]
    rfl
  have houtcome : sizedTeaser.generatedType (config.context broken) config.compile =
      .error ⟨"teaser", error⟩ := by
    unfold Component.generatedType
    dsimp only
    split
    · next hok => cases hcompile.symm.trans hok
    · next herror => rw [Except.error.inj (hcompile.symm.trans herror)]; rfl
  exact congrArg some houtcome

/-- The declaration of the page is the same beside either teaser, one of which fails. -/
theorem generate_isolated_page :
    (broken.map Component.listing = sound.map Component.listing ∧
      broken[1]? = some page ∧ sound[1]? = some page) ∧
    (config.outcomes broken)[1]? = (config.outcomes sound)[1]? ∧
    ⟨"teaser", error⟩ ∈ (config.generate broken).failures := by
  have hlisting : broken.map Component.listing = sound.map Component.listing := rfl
  obtain ⟨-, hfailures, -, hsame⟩ := config.generate_isolated broken
  refine ⟨⟨hlisting, rfl, rfl⟩, hsame sound hlisting 1 page rfl rfl, ?_⟩
  rw [hfailures, List.mem_filterMap]
  exact ⟨_, List.mem_of_getElem? outcomes_broken, rfl⟩

end Landing

end Blokwork
