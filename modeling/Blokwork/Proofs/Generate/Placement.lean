import Blokwork.Proofs.Generate.Run
import Mathlib.Data.List.Count

/-!
# Where helper types are declared

A helper type is declared once in a run, in front of the first component that needs it
(`helper_declared_in_time`). A run over some components is a run over the first of them, followed
by a run over the others in which what the first ones need counts as declared
(`componentsFrom_append`). So what is pending at a component is what it is the first to need. The
queue never takes a kind before the kinds that it depends on (`DependenciesFirst`), which puts
assets in front of lists of assets.
-/

namespace Blokwork

/-! ## The order of kinds -/

/-- Each of the kinds stands behind the kinds that it depends on, some of which were seen
before. -/
def DependenciesFirst (seen : List FieldKind) : List FieldKind → Prop
  | [] => True
  | kind :: rest =>
    HelperType.dependencies kind ⊆ seen ∧ DependenciesFirst (seen ++ [kind]) rest

namespace DependenciesFirst

variable {seen more : List FieldKind} {kinds : List FieldKind}

theorem append_iff (seen kinds more : List FieldKind) :
    DependenciesFirst seen (kinds ++ more) ↔
      DependenciesFirst seen kinds ∧ DependenciesFirst (seen ++ kinds) more := by
  induction kinds generalizing seen with
  | nil => simp [DependenciesFirst]
  | cons kind kinds ih =>
    rw [List.cons_append, DependenciesFirst, DependenciesFirst, ih, and_assoc, List.append_assoc,
      List.singleton_append]

theorem mono (h : DependenciesFirst seen kinds) (hseen : seen ⊆ more) :
    DependenciesFirst more kinds := by
  induction kinds generalizing seen more with
  | nil => trivial
  | cons kind kinds ih =>
    obtain ⟨hdependencies, hkinds⟩ := h
    exact ⟨List.Subset.trans hdependencies hseen,
      ih hkinds (List.append_subset.2 ⟨List.subset_append_of_subset_left _ hseen,
        List.subset_append_right _ _⟩)⟩

/-- In front of a kind stands what it depends on. -/
theorem dependencies_subset {earlier later : List FieldKind} {kind : FieldKind}
    (h : DependenciesFirst [] (earlier ++ kind :: later)) :
    HelperType.dependencies kind ⊆ earlier :=
  ((append_iff [] earlier (kind :: later)).1 h).2.1

theorem flatMap {α : Type} {f : α → List FieldKind} {xs : List α}
    (h : ∀ x ∈ xs, DependenciesFirst [] (f x)) : DependenciesFirst [] (xs.flatMap f) := by
  induction xs with
  | nil => trivial
  | cons x xs ih =>
    obtain ⟨hx, hxs⟩ := List.forall_mem_cons.1 h
    exact (append_iff [] (f x) (xs.flatMap f)).2 ⟨hx, (ih hxs).mono (List.nil_subset _)⟩

end DependenciesFirst

theorem Field.dependenciesFirst_helperKinds (field : Field) :
    DependenciesFirst [] field.helperKinds := by
  unfold helperKinds
  cases field.kind <;>
    simp [FieldKind.isShared, HelperType.dependencies, DependenciesFirst]

theorem Component.dependenciesFirst_helperKinds (c : Component) :
    DependenciesFirst [] c.helperKinds :=
  .flatMap fun e _ => e.2.dependenciesFirst_helperKinds

namespace HelperQueue

/-- A kind is seen behind what it depends on, when it is queued so. -/
theorem dependenciesFirst_foldl_enqueue {queue : HelperQueue} {kinds : List FieldKind}
    (hseen : DependenciesFirst [] queue.seen) (hkinds : DependenciesFirst queue.seen kinds) :
    DependenciesFirst [] (kinds.foldl enqueue queue).seen := by
  induction kinds generalizing queue with
  | nil => exact hseen
  | cons first kinds ih =>
    obtain ⟨hdependencies, hkinds⟩ := hkinds
    rw [List.foldl_cons]
    unfold enqueue
    split
    · next hold =>
      refine ih hseen (hkinds.mono (List.append_subset.2 ⟨List.Subset.refl _, ?_⟩))
      exact List.cons_subset.2 ⟨List.contains_iff_mem.1 hold, List.nil_subset _⟩
    · exact ih ((DependenciesFirst.append_iff [] _ _).2 ⟨hseen, hdependencies, trivial⟩) hkinds

theorem dependenciesFirst_afterComponents {queue : HelperQueue} (components : List Component)
    (hseen : DependenciesFirst [] queue.seen) :
    DependenciesFirst [] (queue.afterComponents components).seen := by
  unfold afterComponents
  induction components generalizing queue with
  | nil => exact hseen
  | cons c rest ih =>
    refine ih (?_ : DependenciesFirst [] (queue.afterFields c.dataFields).seen)
    rw [afterFields_eq]
    exact dependenciesFirst_foldl_enqueue hseen
      (c.dependenciesFirst_helperKinds.mono (List.nil_subset _))

end HelperQueue

/-! ## Components that need a helper type -/

namespace Component

/-- A data field of the component is of the kind; a list of assets needs assets as well. -/
def Needs (c : Component) (kind : FieldKind) : Prop :=
  ∃ e ∈ c.dataFields, e.2.kind = kind ∨ (kind = .asset ∧ e.2.kind = .multiasset)

instance (c : Component) (kind : FieldKind) : Decidable (c.Needs kind) :=
  inferInstanceAs (Decidable (∃ e ∈ c.dataFields, _))

theorem mem_helperKinds_iff (c : Component) {kind : FieldKind} (hkind : kind.isShared = true) :
    kind ∈ c.helperKinds ↔ c.Needs kind := by
  have hfield (field : Field) : kind ∈ field.helperKinds ↔
      field.kind = kind ∨ (kind = .asset ∧ field.kind = .multiasset) := by
    unfold Field.helperKinds
    cases kind <;> cases hkind <;> cases field.kind <;>
      simp [FieldKind.isShared, HelperType.dependencies]
  simp only [helperKinds, List.mem_flatMap, hfield, Needs]

end Component

namespace GeneratorConfig

variable (config : GeneratorConfig) (ctx : FragmentContext)

/-! ## A run in two parts -/

theorem componentsFrom_append (queue : HelperQueue) (before rest : List Component) :
    config.componentsFrom ctx queue (before ++ rest) =
      (config.componentsFrom ctx queue before).append
        (config.componentsFrom ctx (queue.afterComponents before) rest) := by
  induction before generalizing queue with
  | nil => rfl
  | cons c before ih =>
    rw [List.cons_append, componentsFrom, ih, componentsFrom]
    simp only [Generation.append_assoc]
    rfl

theorem origins_helpers {kinds : List FieldKind} (h : ∀ kind ∈ kinds, kind.isShared = true) :
    (config.helpers kinds).types.map (·.origin) = kinds.map .helper := by
  simpa [Function.comp_def] using congrArg (List.map Prod.snd) (config.declared_helpers h)

/-- What is declared for some components themselves, where it can be. -/
def declarationsOf (components : List Component) : List GeneratedType :=
  (components.map fun c => c.generatedType ctx config.compile).filterMap Except.toOption

theorem componentTypes_componentsFrom (queue : HelperQueue) (components : List Component) :
    (config.componentsFrom ctx queue components).componentTypes =
      config.declarationsOf ctx components :=
  (config.componentsFrom_eq ctx queue components).1

/-! ## The place of a helper type -/

theorem types_helpers_append {kind : FieldKind} {declaration : String}
    (hhelper : config.helper kind =
      { types := [⟨config.namer.typeName kind.name, .helper kind, declaration⟩] })
    (front back : List FieldKind) :
    (config.helpers (front ++ kind :: back)).types = (config.helpers front).types ++
      ⟨config.namer.typeName kind.name, .helper kind, declaration⟩ ::
        (config.helpers back).types := by
  simp only [types_helpers, List.flatMap_append, List.flatMap_cons, hhelper, List.singleton_append]

/-- What a component is the first to need is declared in front of it. -/
theorem exists_split_cons {seen : List FieldKind} {c : Component} {kind : FieldKind}
    (hnew : kind ∉ seen) (hc : kind ∈ c.helperKinds) (after : List Component) :
    ∃ front t later,
      (config.componentsFrom ctx ⟨seen, []⟩ (c :: after)).types = front ++ t :: later ∧
      t.origin = .helper kind ∧ front.filter GeneratedType.isOfComponent = [] ∧
      later.filter GeneratedType.isOfComponent = config.declarationsOf ctx (c :: after) := by
  obtain ⟨fresh, hfields, -, hfresh⟩ := HelperQueue.exists_foldl_enqueue ⟨seen, []⟩ c.helperKinds
  have hpending : kind ∈ fresh := by
    rcases List.mem_append.1 ((hfresh kind).2 (.inr hc)) with hold | hpending
    exacts [absurd hold hnew, hpending]
  obtain ⟨front, back, rfl⟩ := List.append_of_mem hpending
  obtain ⟨schema, declaration, -, -, hhelper⟩ :=
    config.exists_helper (Component.isShared_of_mem_helperKinds hc)
  rw [Component.helperKinds, ← HelperQueue.afterFields_eq] at hfields
  have hsplit : (config.componentsFrom ctx ⟨seen, []⟩ (c :: after)).types =
      (config.helpers front).types ++
        ⟨config.namer.typeName kind.name, .helper kind, declaration⟩ ::
        ((config.helpers back).types ++ ((config.component ctx c).types ++
          (config.componentsFrom ctx ⟨seen ++ (front ++ kind :: back), []⟩ after).types)) := by
    simp [componentsFrom, Generation.append, hfields, HelperQueue.taken,
      config.types_helpers_append hhelper]
  have hfront : (config.helpers front).types.filter GeneratedType.isOfComponent = [] :=
    (config.helpers_cases front).1
  have hcomponents := config.componentTypes_componentsFrom ctx ⟨seen, []⟩ (c :: after)
  rw [Generation.componentTypes, hsplit, List.filter_append, hfront, List.nil_append,
    List.filter_cons_of_neg (by simp [GeneratedType.isOfComponent])] at hcomponents
  exact ⟨_, _, _, hsplit, rfl, hfront, hcomponents⟩

/-- A component is declared behind all components in front of it. -/
theorem exists_split_component {before : List Component} {c : Component} {t : GeneratedType}
    (ht : c.generatedType ctx config.compile = .ok t) (after : List Component) :
    ∃ earlier later,
      (config.componentsFrom ctx {} (before ++ c :: after)).types = earlier ++ t :: later ∧
      earlier.filter GeneratedType.isOfComponent = config.declarationsOf ctx before := by
  let queue := (HelperQueue.afterComponents {} before).afterFields c.dataFields
  have hown : (config.component ctx c).types = [t] := by
    unfold component
    rw [ht]
  have hhelpers : (config.helpers queue.pending).types.filter GeneratedType.isOfComponent = [] :=
    (config.helpers_cases queue.pending).1
  refine ⟨(config.componentsFrom ctx {} before).types ++ (config.helpers queue.pending).types,
    (config.componentsFrom ctx queue.taken after).types, ?_, ?_⟩
  · rw [componentsFrom_append]
    simp [componentsFrom, Generation.append, hown, queue]
  · rw [List.filter_append, hhelpers, List.append_nil]
    exact config.componentTypes_componentsFrom ctx {} before

/-- A helper type is declared in front of the first component that needs it, and behind all
components in front of that. -/
theorem exists_split_generate {before after : List Component} {c : Component} {kind : FieldKind}
    (hbefore : ∀ d ∈ before, kind ∉ d.helperKinds) (hc : kind ∈ c.helperKinds) :
    ∃ earlier t later,
      (config.componentsFrom ctx {} (before ++ c :: after)).types = earlier ++ t :: later ∧
      t.origin = .helper kind ∧
      earlier.filter GeneratedType.isOfComponent = config.declarationsOf ctx before ∧
      later.filter GeneratedType.isOfComponent = config.declarationsOf ctx (c :: after) := by
  obtain ⟨seen, hqueue, -, -, hseen⟩ := config.exists_helperTypes_componentsFrom ctx [] before
  have hnew : kind ∉ seen := fun hold => by
    obtain ⟨d, hd, hneeded⟩ := ((hseen kind).1 hold).resolve_left List.not_mem_nil
    exact hbefore d hd hneeded
  obtain ⟨front, t, later, hsplit, horigin, hfront, hlater⟩ :=
    config.exists_split_cons ctx hnew hc after
  refine ⟨(config.componentsFrom ctx {} before).types ++ front, t, later, ?_, horigin, ?_, hlater⟩
  · rw [componentsFrom_append, hqueue, Generation.append, List.nil_append, hsplit,
      List.append_assoc]
  · rw [List.filter_append, hfront, List.append_nil]
    exact config.componentTypes_componentsFrom ctx {} before

/-! ## All helper types of a run -/

/-- The kinds whose helper types a run declares, each behind what it depends on. -/
theorem exists_origins_helperTypes (components : List Component) :
    ∃ kinds : List FieldKind,
      (config.generate components).helperTypes.map (·.origin) = kinds.map .helper ∧
      kinds.Nodup ∧ DependenciesFirst [] kinds ∧
      ∀ kind, kind ∈ kinds ↔ ∃ c ∈ components, kind ∈ c.helperKinds := by
  obtain ⟨kinds, hqueue, htypes, hnodup, hmem⟩ :=
    config.exists_helperTypes_componentsFrom (config.context components) [] components
  have hfirst := @HelperQueue.dependenciesFirst_afterComponents {} components trivial
  rw [hqueue] at hfirst
  simp only [List.nil_append, List.not_mem_nil, false_or] at hfirst hnodup hmem
  refine ⟨kinds, ?_, hnodup List.nodup_nil, hfirst, hmem⟩
  rw [generate, Generation.helperTypes_append, Generation.helperTypes_reported, List.nil_append]
  refine (congrArg _ htypes).trans (config.origins_helpers fun kind hkind => ?_)
  obtain ⟨c, -, hneeded⟩ := (hmem kind).1 hkind
  exact Component.isShared_of_mem_helperKinds hneeded

/-- The declarations of a helper type are as many as the times its kind is taken. -/
theorem count_origin_helper (g : Generation) (kind : FieldKind) :
    (g.types.map (·.origin)).count (.helper kind) =
      (g.helperTypes.map (·.origin)).count (.helper kind) := by
  have hcomponents : (g.componentTypes.map (·.origin)).count (.helper kind) = 0 := by
    refine List.count_eq_zero.2 fun h => ?_
    obtain ⟨t, ht, horigin⟩ := List.mem_map.1 h
    have hcomponent := (List.mem_filter.1 ht).2
    rw [GeneratedType.isOfComponent, horigin] at hcomponent
    cases hcomponent
  rw [← (g.types_perm.map _).count_eq, List.map_append, List.count_append, hcomponents,
    Nat.zero_add]

/-- In front of a helper type stand those that it depends on. -/
theorem exists_mem_of_dependency {g : Generation} {kinds : List FieldKind}
    (horigins : g.helperTypes.map (·.origin) = kinds.map .helper)
    (hfirst : DependenciesFirst [] kinds) {earlier later : List GeneratedType} {t : GeneratedType}
    (htypes : g.types = earlier ++ t :: later) {kind needed : FieldKind}
    (horigin : t.origin = .helper kind) (hneeded : needed ∈ HelperType.dependencies kind) :
    ∃ u ∈ earlier, u.origin = .helper needed := by
  have hhelper : t.isOfComponent = false := by rw [GeneratedType.isOfComponent, horigin]
  rw [Generation.helperTypes, htypes, List.filter_append,
    List.filter_cons_of_pos (by simp [hhelper]), List.map_append, List.map_cons, horigin]
    at horigins
  obtain ⟨front, rest, rfl, hfront, hrest⟩ := List.map_eq_append_iff.1 horigins.symm
  obtain ⟨other, back, rfl, hother, -⟩ := List.map_eq_cons_iff.1 hrest
  cases hother
  have hmem : TypeOrigin.helper needed ∈ front.map TypeOrigin.helper :=
    List.mem_map_of_mem (hfirst.dependencies_subset hneeded)
  rw [hfront] at hmem
  obtain ⟨u, hu, horigin⟩ := List.mem_map.1 hmem
  exact ⟨u, List.mem_of_mem_filter hu, horigin⟩

/-- **Helper types are declared once, in time.** For each shared kind there is exactly one
declaration when a component has a field that needs it, and none otherwise. It stands behind the
declarations of all components in front of the first such component, and in front of the
declarations of that component, if it has one, and of all behind it. Assets are declared in front
of lists of assets. -/
theorem helper_declared_in_time (components : List Component) {kind : FieldKind}
    (hkind : kind.isShared = true) :
    ((config.generate components).types.map (·.origin)).count (.helper kind) =
        (if ∃ c ∈ components, c.Needs kind then 1 else 0) ∧
    (∀ before c after, components = before ++ c :: after →
      (∀ d ∈ before, ¬ d.Needs kind) → c.Needs kind →
      ∃ earlier t later, (config.generate components).types = earlier ++ t :: later ∧
        t.origin = .helper kind ∧
        earlier.filter GeneratedType.isOfComponent =
          config.declarationsOf (config.context components) before ∧
        later.filter GeneratedType.isOfComponent =
          config.declarationsOf (config.context components) (c :: after)) ∧
    ∀ earlier t later, (config.generate components).types = earlier ++ t :: later →
      t.origin = .helper .multiasset → ∃ u ∈ earlier, u.origin = .helper .asset := by
  obtain ⟨kinds, horigins, hnodup, hfirst, hmem⟩ := config.exists_origins_helperTypes components
  have hneeds : kind ∈ kinds ↔ ∃ c ∈ components, c.Needs kind := by
    simp only [hmem, Component.mem_helperKinds_iff _ hkind]
  refine ⟨?_, ?_, ?_⟩
  · have hinjective : Function.Injective TypeOrigin.helper := fun _ _ h => by cases h; rfl
    rw [count_origin_helper, horigins, List.count_map_of_injective _ _ hinjective]
    split
    · next h => exact List.count_eq_one_of_mem hnodup (hneeds.2 h)
    · next h => exact List.count_eq_zero.2 fun hold => h (hneeds.1 hold)
  · rintro before c after rfl hbefore hc
    have htypes : (config.generate (before ++ c :: after)).types =
        (config.componentsFrom (config.context (before ++ c :: after)) {}
          (before ++ c :: after)).types := rfl
    rw [htypes]
    refine config.exists_split_generate _ (fun d hd => ?_) ((c.mem_helperKinds_iff hkind).2 hc)
    exact fun hneeded => hbefore d hd ((d.mem_helperKinds_iff hkind).1 hneeded)
  · intro earlier t later htypes horigin
    exact exists_mem_of_dependency horigins hfirst htypes horigin List.mem_cons_self

end GeneratorConfig

/-! ## A gallery between a page and a teaser -/

namespace Album

/-- A component with a list of images. -/
def gallery : Component where
  name := "gallery"
  fields := [("images", { kind := .multiasset })]

/-- A component with one image. -/
def teaser : Component where
  name := "teaser"
  fields := [("image", { kind := .asset })]

/-- The gallery is the first component that needs images. -/
def components : List Component := [Landing.page, gallery, teaser]

/-- The type of an image is declared once, behind the page and in front of the gallery. -/
theorem helper_declared_in_time_asset :
    (FieldKind.asset.isShared = true ∧ ¬ Landing.page.Needs .asset ∧ gallery.Needs .asset) ∧
    ((GeneratorConfig.generate {} components).types.map (·.origin)).count (.helper .asset) = 1 ∧
    ∃ earlier t later, (GeneratorConfig.generate {} components).types = earlier ++ t :: later ∧
      t.origin = .helper .asset ∧
      earlier.filter GeneratedType.isOfComponent =
        GeneratorConfig.declarationsOf {} (GeneratorConfig.context {} components) [Landing.page] ∧
      later.filter GeneratedType.isOfComponent =
        GeneratorConfig.declarationsOf {} (GeneratorConfig.context {} components)
          [gallery, teaser] := by
  have hkind : FieldKind.asset.isShared = true := rfl
  obtain ⟨hcount, hplace, -⟩ := GeneratorConfig.helper_declared_in_time {} components hkind
  rw [if_pos (by decide)] at hcount
  exact ⟨by decide, hcount, hplace [Landing.page] gallery [teaser] rfl (by decide) (by decide)⟩

end Album

end Blokwork
