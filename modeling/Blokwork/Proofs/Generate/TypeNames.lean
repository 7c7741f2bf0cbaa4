import Blokwork.Proofs.Generate.Run
import Mathlib.Data.List.Induction

/-!
# Type names that are told apart

Two names have one type name if they are the same in Pascal case, whatever is put around them
(`TypeNamer.typeName_eq_iff`). A run reports the names of components for which this holds; so when
it reports none, its components have different type names (`nodup_of_silent`). The type names of
helper types are made by the same namer but not looked at, so the declarations of a run that
reports none are distinct only as long as no component is named like a helper type that the run
needs (`nodup_typeNames_iff`).
-/

namespace Blokwork

open TypeScript

/-! ## Names with one type name -/

namespace TypeNamer

/-- The underscore in front of a name can be taken off again. -/
theorem dropWhile_guarded {cs : List Char} (h : ∀ c ∈ cs, c.isAlphanum = true) :
    (guarded cs).dropWhile (· = '_') = cs := by
  cases cs with
  | nil => rfl
  | cons c cs =>
    have hc : c ≠ '_' := by
      rintro rfl
      exact absurd (h '_' List.mem_cons_self) (by decide)
    rw [guarded]
    split <;> simp [hc]

/-- What stands around names does not tell them apart. -/
theorem typeName_eq_iff (namer : TypeNamer) (a b : String) :
    namer.typeName a = namer.typeName b ↔ pascalCase true a.toList = pascalCase true b.toList := by
  have halphanum (name : String) : ∀ c ∈ pascalCase true namer.namePrefix.toList
      ++ pascalCase true name.toList ++ pascalCase true namer.nameSuffix.toList,
      c.isAlphanum = true := by
    simp only [List.mem_append]
    rintro c ((h | h) | h) <;> exact isAlphanum_of_mem_pascalCase h
  constructor
  · intro h
    have hguarded := congrArg (List.dropWhile (· = '_')) (String.ofList_injective h)
    rw [dropWhile_guarded (halphanum a), dropWhile_guarded (halphanum b)] at hguarded
    exact List.append_cancel_left (List.append_cancel_right hguarded)
  · intro h
    rw [typeName, typeName, h]

/-- The names that belong to a type name, in order. -/
theorem getD_byTypeName (namer : TypeNamer) (names : List String) (typeName : String) :
    (Dict.get? (namer.byTypeName names) typeName).getD [] =
      names.filter fun name => namer.typeName name = typeName := by
  induction names using List.reverseRecOn with
  | nil => rfl
  | append_singleton names name ih =>
    rw [byTypeName, List.foldl_append, ← byTypeName]
    simp only [List.foldl_cons, List.foldl_nil, Dict.get?_insert, List.filter_append,
      List.filter_singleton]
    by_cases hname : namer.typeName name = typeName
    · subst hname
      simp [ih]
    · simp [hname, ih]

/-- Without collisions, names have different type names. -/
theorem nodup_of_collisions_eq_nil {namer : TypeNamer} {names : List String}
    (h : namer.collisions names = []) : (names.map namer.typeName).Nodup := by
  refine List.nodup_iff_count_le_one.2 fun typeName => ?_
  have hcount : (names.map namer.typeName).count typeName =
      ((Dict.get? (namer.byTypeName names) typeName).getD []).length := by
    rw [getD_byTypeName, List.count, List.countP_map, List.countP_eq_length_filter]
    congr 1
  rw [hcount]
  cases hgroup : Dict.get? (namer.byTypeName names) typeName with
  | none => exact Nat.zero_le 1
  | some group =>
    refine Nat.not_lt.1 fun hlong => ?_
    exact List.filter_eq_nil_iff.1 h _ (Dict.mem_of_get? hgroup) (decide_eq_true hlong)

end TypeNamer

/-! ## Names of components -/

namespace Roster

/-- Without repetitions, the roster has the names of the components as they are. -/
theorem names_of_noticesFrom_eq_nil {roster : Roster} {components : List Component}
    (h : roster.noticesFrom components = []) :
    (components.foldl add roster).names = roster.names ++ components.map (·.name) := by
  induction components generalizing roster with
  | nil => simp
  | cons c rest ih =>
    obtain ⟨hfirst, hrest⟩ := List.append_eq_nil_iff.1 h
    have hnew : roster.names.contains c.name = false := by
      unfold noticesOf at hfirst
      split at hfirst
      · cases hfirst
      · next hnew => simpa using hnew
    have hnames : (roster.add c).names = roster.names ++ [c.name] := by
      simp only [add, addName, hnew, Bool.false_eq_true, if_false]
    rw [List.foldl_cons, ih hrest, hnames, List.append_assoc]
    rfl

end Roster

/-- The notice says that names are not told apart. -/
def Notice.isOfNames : Notice → Bool
  | .repeatedComponent .. | .sharedTypeName .. => true
  | _ => false

/-! ## Type names of a run -/

/-- Helper types of different kinds have different type names. -/
theorem TypeNamer.injOn_shared (namer : TypeNamer) {kind other : FieldKind}
    (hkind : kind.isShared = true) (hother : other.isShared = true)
    (h : namer.typeName kind.name = namer.typeName other.name) : kind = other := by
  rw [typeName_eq_iff] at h
  cases kind <;> cases hkind <;> cases other <;> cases hother <;> first | rfl | (revert h; decide)

namespace GeneratorConfig

variable (config : GeneratorConfig) {components : List Component}

/-- A run that reports no names has components with different type names. -/
theorem nodup_of_silent
    (hsilent : ∀ n ∈ (config.generate components).notices, n.isOfNames = false) :
    (components.map fun c => config.namer.typeName c.name).Nodup := by
  have hnames : ∀ n ∈ config.rosterNotices components, n.isOfNames = false := fun n hn =>
    hsilent n (List.mem_append_left _ hn)
  have hrepeated : Roster.noticesFrom {} components = [] := by
    refine List.eq_nil_iff_forall_not_mem.2 fun n hn => ?_
    obtain ⟨name, rfl⟩ := Roster.eq_of_mem_noticesFrom hn
    cases hnames _ (List.mem_append_left _ hn)
  have hshared : config.namer.collisions (Roster.ofComponents components).names = [] := by
    refine List.eq_nil_iff_forall_not_mem.2 fun group hgroup => ?_
    cases hnames _ (List.mem_append_right _ (List.mem_map_of_mem hgroup))
  have hnodup := TypeNamer.nodup_of_collisions_eq_nil hshared
  rw [Roster.ofComponents, Roster.names_of_noticesFrom_eq_nil hrepeated] at hnodup
  simpa [Function.comp_def] using hnodup

/-- A declaration of a component has its type name. -/
theorem typeNames_sublist (ctx : FragmentContext) (components : List Component) :
    (((components.map fun c => c.generatedType ctx config.compile).filterMap
        Except.toOption).map (·.typeName)).Sublist
      (components.map fun c => ctx.namer.typeName c.name) := by
  induction components with
  | nil => exact List.Sublist.slnil
  | cons c rest ih =>
    simp only [List.map_cons]
    cases hresult : c.generatedType ctx config.compile with
    | ok t =>
      have hfirst : (Except.ok t : Except ComponentFailure GeneratedType).toOption = some t := rfl
      rw [List.filterMap_cons_some hfirst, List.map_cons,
        (Component.compile_of_generatedType hresult).1]
      exact ih.cons_cons _
    | error f =>
      have hfirst : (Except.error f : Except _ GeneratedType).toOption = none := rfl
      rw [List.filterMap_cons_none hfirst]
      exact ih.cons _

theorem typeNames_helpers {kinds : List FieldKind} (h : ∀ kind ∈ kinds, kind.isShared = true) :
    (config.helpers kinds).types.map (·.typeName) =
      kinds.map fun kind => config.namer.typeName kind.name := by
  simpa [Function.comp_def] using congrArg (List.map Prod.fst) (config.declared_helpers h)

/-- The declarations of a run that reports no names have different type names as long as no
component with a declaration is named like a helper type that one of the components needs. -/
theorem nodup_typeNames_iff
    (hsilent : ∀ n ∈ (config.generate components).notices, n.isOfNames = false) :
    ((config.generate components).types.map (·.typeName)).Nodup ↔
      ∀ c ∈ components,
        (∃ t, c.generatedType (config.context components) config.compile = .ok t) →
        ∀ user ∈ components, ∀ kind ∈ user.helperKinds,
          pascalCase true c.name.toList ≠ pascalCase true kind.name.toList := by
  obtain ⟨kinds, hhelpers, hkinds, hmem⟩ := config.exists_helperTypes_generate components
  have hshared : ∀ kind ∈ kinds, kind.isShared = true := by
    intro kind hkind
    obtain ⟨c, -, hneeded⟩ := (hmem kind).1 hkind
    exact Component.isShared_of_mem_helperKinds hneeded
  have hcomponents : ((config.generate components).componentTypes.map (·.typeName)).Nodup := by
    rw [componentTypes_generate]
    exact (config.nodup_of_silent hsilent).sublist (config.typeNames_sublist _ components)
  have hnodup : (kinds.map fun kind => config.namer.typeName kind.name).Nodup :=
    hkinds.map_on fun kind hkind other hother =>
      config.namer.injOn_shared (hshared kind hkind) (hshared other hother)
  rw [← ((config.generate components).types_perm.map _).nodup_iff, List.map_append, hhelpers,
    config.typeNames_helpers hshared, List.nodup_append]
  constructor
  · rintro ⟨-, -, hapart⟩ c hc ⟨t, ht⟩ user huser kind hkind hsame
    refine hapart t.typeName ?_ _ (List.mem_map_of_mem ((hmem kind).2 ⟨user, huser, hkind⟩)) ?_
    · exact List.mem_map_of_mem (config.mem_componentTypes hc ht)
    · rw [(Component.compile_of_generatedType ht).1]
      exact (config.namer.typeName_eq_iff _ _).2 hsame
  · intro h
    refine ⟨hcomponents, hnodup, ?_⟩
    rintro _ htype _ hkind rfl
    obtain ⟨t, ht, rfl⟩ := List.mem_map.1 htype
    obtain ⟨kind, hkind, hsame⟩ := List.mem_map.1 hkind
    obtain ⟨c, hc, hresult⟩ := config.exists_of_mem_componentTypes ht
    obtain ⟨user, huser, hneeded⟩ := (hmem kind).1 hkind
    refine h c hc ⟨t, hresult⟩ user huser kind hneeded ?_
    rw [(Component.compile_of_generatedType hresult).1] at hsame
    exact (config.namer.typeName_eq_iff _ _).1 hsame.symm

/-- What is reported about names is reported before the first component gets a type. -/
theorem silent_of_rosterNotices_eq_nil (h : config.rosterNotices components = []) :
    ∀ n ∈ (config.generate components).notices, n.isOfNames = false := by
  intro n hn
  rw [generate, Generation.notices_append, h, List.nil_append] at hn
  have hcomponents := config.notices_componentsFrom _ hn
  cases n <;> first | rfl | cases hcomponents

end GeneratorConfig

/-! ## A component that is named like a helper type -/

namespace Gallery

/-- A component that is named like the helper type of images. -/
def asset : Component where
  name := "asset"

/-- A component with an image. -/
def gallery : Component where
  name := "gallery"
  fields := [("image", { kind := .asset })]

/-- A page without images. -/
def page : Component where
  name := "page"

/-- Nothing is reported beside the page, and no declaration is there twice. -/
theorem nodup_typeNames_page :
    (∀ n ∈ (GeneratorConfig.generate {} [page, gallery]).notices, n.isOfNames = false) ∧
      ((GeneratorConfig.generate {} [page, gallery]).types.map (·.typeName)).Nodup := by
  have hsilent :
      ∀ n ∈ (GeneratorConfig.generate {} [page, gallery]).notices, n.isOfNames = false :=
    GeneratorConfig.silent_of_rosterNotices_eq_nil {} (by decide)
  have hapart : ∀ c ∈ [page, gallery], ∀ user ∈ [page, gallery], ∀ kind ∈ user.helperKinds,
      pascalCase true c.name.toList ≠ pascalCase true kind.name.toList := by decide
  refine ⟨hsilent, (GeneratorConfig.nodup_typeNames_iff {} hsilent).2 ?_⟩
  exact fun c hc _ => hapart c hc

/-- Nothing is reported beside a component named like a helper type either, but its type name is
declared twice. -/
theorem asset_declared_twice :
    (∀ n ∈ (GeneratorConfig.generate {} [asset, gallery]).notices, n.isOfNames = false) ∧
      ¬ ((GeneratorConfig.generate {} [asset, gallery]).types.map (·.typeName)).Nodup := by
  refine ⟨GeneratorConfig.silent_of_rosterNotices_eq_nil _ (by decide), fun hnodup => ?_⟩
  have hcustom : (GeneratorConfig.context {} [asset, gallery]).custom = none := rfl
  obtain ⟨t, ht⟩ := Component.exists_generatedType hcustom {} asset
  have htypes : t ∈ (GeneratorConfig.generate {} [asset, gallery]).types :=
    List.mem_of_mem_filter (GeneratorConfig.mem_componentTypes {} List.mem_cons_self ht)
  have hgallery : gallery ∈ [asset, gallery] := by decide
  have hkind : FieldKind.asset ∈ gallery.helperKinds := by decide
  obtain ⟨helper, hhelper, hname, horigin⟩ :=
    GeneratorConfig.exists_mem_of_mem_helperKinds {} hgallery hkind
  have hsame : t.typeName = helper.typeName := by
    rw [(Component.compile_of_generatedType ht).1, hname]
    rfl
  obtain rfl := List.inj_on_of_nodup_map hnodup htypes hhelper hsame
  have hcomponent :=
    asset.hasOutcome_generatedType (GeneratorConfig.context {} [asset, gallery]) {}
  rw [ht, Component.HasOutcome, horigin] at hcomponent
  cases hcomponent

end Gallery

end Blokwork
