import Blokwork.Proofs.Generate.Interface
import Blokwork.Proofs.TypeScript.Layout
import Mathlib.Data.List.Nodup
import Mathlib.Data.List.Perm.Basic

/-!
# Components that are allowed in a field

A roster lists names each once, in the order in which they are met first: adding names one by one
drops the repeated ones (`foldl_addName_eraseDups`). So what a roster knows of a list of components
is read off the list itself (`Roster.names_ofComponents_eq`, `Roster.getD_members?_ofComponents`),
and so are the components that a bloks field allows (`FragmentContext.allowedComponents_eq`). Its
type is the array of their types (`FragmentContext.print_arrayOf`), `never[]` when there are none
(`FragmentContext.arrayOf_eq_never_iff`).
-/

namespace Blokwork

open TypeScript

/-! ## Names, each once -/

theorem addName_eraseDups (names : List String) (name : String) :
    addName names.eraseDups name = (names ++ [name]).eraseDups := by
  rw [List.eraseDups_append, addName]
  by_cases hmem : name ∈ names <;> simp [List.removeAll, hmem, List.eraseDups_cons]

/-- Names that are added one by one are listed each once, in the order in which they come first. -/
theorem foldl_addName_eraseDups (names more : List String) :
    more.foldl addName names.eraseDups = (names ++ more).eraseDups := by
  induction more generalizing names with
  | nil => rw [List.foldl_nil, List.append_nil]
  | cons name more ih =>
    rw [List.foldl_cons, addName_eraseDups, ih, List.append_assoc, List.singleton_append]

theorem foldl_addName_nil (names : List String) : names.foldl addName [] = names.eraseDups :=
  foldl_addName_eraseDups [] names

/-- A name that is listed may be left out of those that are added. -/
theorem foldl_addName_filter {names : List String} {name : String} (h : name ∈ names)
    (more : List String) :
    (more.filter fun other => !other == name).foldl addName names = more.foldl addName names := by
  induction more generalizing names with
  | nil => rfl
  | cons other more ih =>
    by_cases hother : other = name
    · subst hother
      have hlisted : addName names other = names := if_pos (List.contains_iff_mem.2 h)
      simp [hlisted, ih h]
    · have hmem : name ∈ addName names other := Component.mem_addName.2 (.inl h)
      simp [hother, ih hmem]

/-- Repeated names may be left out of those that are added. -/
theorem foldl_eraseDups_addName (names more : List String) :
    more.eraseDups.foldl addName names = more.foldl addName names := by
  match more with
  | [] => rfl
  | name :: more =>
    have hmem : name ∈ addName names name := Component.mem_addName.2 (.inr rfl)
    rw [List.eraseDups_cons, List.foldl_cons, List.foldl_cons, foldl_eraseDups_addName,
      foldl_addName_filter hmem]
termination_by more.length
decreasing_by exact Nat.lt_succ_of_le (List.length_filter_le _ _)

theorem nodup_eraseDups (names : List String) : names.eraseDups.Nodup := by
  match names with
  | [] => exact List.nodup_nil
  | name :: names =>
    rw [List.eraseDups_cons]
    refine List.nodup_cons.2 ⟨fun hmem => ?_, nodup_eraseDups _⟩
    simpa using List.mem_eraseDups.1 hmem
termination_by names.length
decreasing_by exact Nat.lt_succ_of_le (List.length_filter_le _ _)

theorem eraseDups_perm {names others : List String} (h : ∀ name, name ∈ names ↔ name ∈ others) :
    names.eraseDups.Perm others.eraseDups := by
  refine (List.perm_ext_iff_of_nodup (nodup_eraseDups _) (nodup_eraseDups _)).2 fun name => ?_
  rw [List.mem_eraseDups, List.mem_eraseDups, h]

/-! ## Type names in texts -/

/-- What occurs in a text has no other characters. -/
theorem mem_of_occursIn {pattern cs : List Char} (h : Text.occursIn pattern cs = true) {c : Char}
    (hc : c ∈ pattern) : c ∈ cs := by
  induction cs with
  | nil =>
    rw [Text.occursIn, List.isEmpty_iff] at h
    rw [h] at hc
    cases hc
  | cons d cs ih =>
    rw [Text.occursIn, Bool.or_eq_true] at h
    rcases h with h | h
    · exact (List.isPrefixOf_iff_prefix.1 h).subset hc
    · exact List.mem_cons_of_mem d (ih h)

theorem isLower_toUpper (c : Char) : c.toUpper.isLower = false := by
  have hupper : ∀ n < 26, (Char.ofNat (97 + n)).toUpper.isLower = false := by decide
  by_cases hc : 97 ≤ c.toNat ∧ c.toNat ≤ 122
  · have h := hupper (c.toNat - 97) (by omega)
    rwa [Nat.add_sub_cancel' hc.1, Char.ofNat_toNat] at h
  · have hsame : c.toUpper = c := dif_neg hc
    have hlower : c.isLower = (decide (97 ≤ c.toNat) && decide (c.toNat ≤ 122)) := rfl
    rw [hsame, hlower, ← Bool.decide_and, decide_eq_false hc]

/-- A name in Pascal case starts with no small letter. -/
theorem isLower_of_head_pascalCase {cs : List Char} {c : Char}
    (h : (pascalCase true cs).head? = some c) : c.isLower = false := by
  induction cs with
  | nil => cases h
  | cons d cs ih =>
    rw [pascalCase] at h
    split at h
    · cases h
      exact isLower_toUpper d
    · exact ih h

namespace TypeNamer

/-- The name of a type starts with no small letter. -/
theorem isLower_of_head_typeName {namer : TypeNamer} {name : String} {c : Char}
    (h : (namer.typeName name).toList.head? = some c) : c.isLower = false := by
  have hhead (cs : List Char) (hcs : ∀ c, cs.head? = some c → c.isLower = false)
      (h : (guarded cs).head? = some c) : c.isLower = false := by
    cases cs with
    | nil =>
      cases h
      rfl
    | cons d cs =>
      rw [guarded] at h
      split at h
      · cases h
        rfl
      · exact hcs c h
  rw [typeName, String.toList_ofList] at h
  refine hhead _ (fun c hc => ?_) h
  simp only [List.head?_append, Option.or_eq_some_iff] at hc
  rcases hc with (hc | ⟨-, hc⟩) | ⟨-, hc⟩ <;> exact isLower_of_head_pascalCase hc

end TypeNamer

/-! ## What a roster knows -/

/-- The names of the components in the group. -/
def membersOf (components : List Component) (group : String) : List String :=
  (components.filter fun c => c.group = some group).map Component.name

namespace Roster

theorem names_foldl (roster : Roster) (components : List Component) :
    (components.foldl add roster).names =
      (components.map Component.name).foldl addName roster.names := by
  induction components generalizing roster with
  | nil => rfl
  | cons c rest ih => exact ih (roster.add c)

/-- A roster has the name of each component once, in the order of the components. -/
theorem names_ofComponents_eq (components : List Component) :
    (ofComponents components).names = (components.map Component.name).eraseDups :=
  (names_foldl {} components).trans (foldl_addName_nil _)

theorem getD_members?_add (roster : Roster) (c : Component) (group : String) :
    ((roster.add c).members? group).getD [] =
      (membersOf [c] group).foldl addName ((roster.members? group).getD []) := by
  unfold members? add membersOf
  cases hown : c.group with
  | none => simp [hown]
  | some own =>
    by_cases hgroup : own = group
    · subst hgroup
      simp [hown, Dict.get?_insert]
    · simp [hown, hgroup, Dict.get?_insert]

theorem getD_members?_foldl (roster : Roster) (components : List Component) (group : String) :
    ((components.foldl add roster).members? group).getD [] =
      (membersOf components group).foldl addName ((roster.members? group).getD []) := by
  induction components generalizing roster with
  | nil => rfl
  | cons c rest ih =>
    have hsplit : membersOf (c :: rest) group = membersOf [c] group ++ membersOf rest group := by
      rw [membersOf, ← List.singleton_append, List.filter_append, List.map_append]
      rfl
    rw [List.foldl_cons, ih, getD_members?_add, hsplit, List.foldl_append]

/-- A roster has the name of each component in a group once, in the order of the components. -/
theorem getD_members?_ofComponents (components : List Component) (group : String) :
    ((ofComponents components).members? group).getD [] =
      (membersOf components group).eraseDups :=
  (getD_members?_foldl {} components group).trans (foldl_addName_nil _)

end Roster

/-! ## What a field allows -/

namespace Field

/-- The list that restricts a field: of groups or of components. -/
def whitelist (field : Field) : List String :=
  if field.restrictsToGroups then field.componentGroupWhitelist else field.componentWhitelist

/-- The names that a field allows in front of these components: those of all components; or of the
components in one of its groups, in the order of the groups; or those on its list that a component
has. -/
def allowedNames (field : Field) (components : List Component) : List String :=
  if !field.restrictComponents then (components.map Component.name).eraseDups
  else if field.restrictsToGroups then (field.whitelist.flatMap (membersOf components)).eraseDups
  else field.whitelist.filter fun name => name ∈ components.map Component.name

/-- The field is restricted by an empty list. -/
def Unlisted (field : Field) : Prop := field.restrictComponents = true ∧ field.whitelist = []

instance (field : Field) : Decidable field.Unlisted := inferInstanceAs (Decidable (_ ∧ _))

theorem nodup_allowedNames_of_groups {field : Field} {components : List Component}
    (hrestricted : field.restrictComponents = true) (hgroups : field.restrictsToGroups = true) :
    (field.allowedNames components).Nodup := by
  simp only [allowedNames, hrestricted, hgroups, if_true, Bool.not_true, Bool.false_eq_true,
    if_false]
  exact nodup_eraseDups _

theorem mem_allowedNames_of_groups {field : Field} {components : List Component} {name : String}
    (hrestricted : field.restrictComponents = true) (hgroups : field.restrictsToGroups = true) :
    name ∈ field.allowedNames components ↔
      ∃ c ∈ components, c.name = name ∧ ∃ group ∈ field.componentGroupWhitelist,
        c.group = some group := by
  simp only [allowedNames, hrestricted, hgroups, whitelist, if_true, Bool.not_true,
    Bool.false_eq_true, if_false, List.mem_eraseDups, List.mem_flatMap, membersOf, List.mem_map,
    List.mem_filter, decide_eq_true_eq]
  constructor
  · rintro ⟨group, hgroup, c, ⟨hc, hin⟩, rfl⟩
    exact ⟨c, hc, rfl, group, hgroup, hin⟩
  · rintro ⟨c, hc, rfl, group, hgroup, hin⟩
    exact ⟨group, hgroup, c, ⟨hc, hin⟩, rfl⟩

/-- The order of the components decides the order of the allowed names at most. -/
theorem allowedNames_perm (field : Field) {components others : List Component}
    (h : components.Perm others) :
    (field.allowedNames components).Perm (field.allowedNames others) := by
  have hnames (name : String) : name ∈ components.map Component.name ↔
      name ∈ others.map Component.name := (h.map _).mem_iff
  have hmembers (group name : String) : name ∈ membersOf components group ↔
      name ∈ membersOf others group := ((h.filter _).map _).mem_iff
  unfold allowedNames
  split
  · exact eraseDups_perm hnames
  split
  · exact eraseDups_perm fun name => by simp only [List.mem_flatMap, hmembers]
  · simp only [hnames]
    exact .refl _

/-- Where the components are listed, their own order is no matter. -/
theorem allowedNames_congr {field : Field} {components others : List Component}
    (hrestricted : field.restrictComponents = true) (hgroups : field.restrictsToGroups = false)
    (h : components.Perm others) : field.allowedNames components = field.allowedNames others := by
  have hnames (name : String) : name ∈ components.map Component.name ↔
      name ∈ others.map Component.name := (h.map _).mem_iff
  simp only [allowedNames, hrestricted, hgroups, Bool.not_true, Bool.false_eq_true, if_false,
    hnames]

end Field

namespace FragmentContext

variable (ctx : FragmentContext)

theorem groupMembers_eq {components : List Component}
    (hroster : ctx.roster = Roster.ofComponents components) (groups : List String) :
    ctx.groupMembers groups = (groups.flatMap (membersOf components)).eraseDups := by
  have hgroup (group : String) (found : List String) :
      ((ctx.roster.members? group).getD []).foldl addName found =
        (membersOf components group).foldl addName found := by
    rw [hroster, Roster.getD_members?_ofComponents, foldl_eraseDups_addName]
  simp only [groupMembers, hgroup]
  rw [← List.foldl_flatMap, foldl_addName_nil]

/-- A field allows its names, but when an empty list restricts it. -/
theorem allowedComponents_eq {components : List Component}
    (hroster : ctx.roster = Roster.ofComponents components) (name : String) (field : Field) :
    (ctx.allowedComponents name field).value =
      if field.Unlisted then none else some (field.allowedNames components) := by
  have hnames : ctx.roster.names = (components.map Component.name).eraseDups := by
    rw [hroster, Roster.names_ofComponents_eq]
  cases hrestricted : field.restrictComponents with
  | false => simp [allowedComponents, Field.Unlisted, Field.allowedNames, hrestricted, hnames]
  | true =>
    cases hgroups : field.restrictsToGroups with
    | true =>
      cases hlist : field.componentGroupWhitelist <;>
        simp [allowedComponents, Field.Unlisted, Field.allowedNames, Field.whitelist, hrestricted,
          hgroups, hlist, ctx.groupMembers_eq hroster]
    | false =>
      have hdefined : ctx.roster.names.contains =
          fun name => decide (name ∈ components.map Component.name) := by
        funext name
        rw [hnames, List.contains_eq_mem, decide_eq_decide, List.mem_eraseDups]
      cases hlist : field.componentWhitelist <;>
        simp [allowedComponents, Field.Unlisted, Field.allowedNames, Field.whitelist, hrestricted,
          hgroups, hlist, List.partition_eq_filter_filter, hdefined]

/-! ## The type of a field -/

/-- An array of a type that is named needs no parentheses. -/
theorem printArray_typeName (namer : TypeNamer) (name : String) :
    TypeExpr.printArray (namer.typeName name) = namer.typeName name ++ "[]" := by
  have hblank (separator : String) (h : ' ' ∈ separator.toList) :
      Text.contains (namer.typeName name) separator = false := by
    rw [← Bool.not_eq_true]
    intro hcontains
    cases isIdentifierPart_of_mem (namer.isIdentifier_typeName name) (mem_of_occursIn hcontains h)
  rw [TypeExpr.printArray, hblank _ (by decide), hblank _ (by decide)]
  rfl

/-- The text is that of an array of the types that are named. -/
theorem print_arrayOf (names : List String) (width level : Nat) :
    (TypeExpr.array (.oneOf (names.map fun name => .keyword (ctx.namer.typeName name)))).print
      width level = ctx.arrayOf names := by
  match names with
  | [] =>
    have hnever : TypeExpr.printArray "never" = "never[]" := by decide
    exact hnever
  | [only] => exact printArray_typeName ctx.namer only
  | first :: second :: more =>
    have hall (names : List String) :
        TypeExpr.printAll width level (names.map fun name => .keyword (ctx.namer.typeName name)) =
          names.map ctx.namer.typeName := by
      induction names with
      | nil => rfl
      | cons name names ih => exact congrArg _ ih
    have hseparator : Text.contains (String.intercalate TypeExpr.orSeparator
        ((first :: second :: more).map ctx.namer.typeName)) TypeExpr.orSeparator = true :=
      contains_intercalate _ _ _ _
    rw [TypeExpr.print, TypeExpr.oneOf, TypeExpr.print, hall, TypeExpr.printArray, hseparator]
    · rfl
    · exact List.cons_ne_nil _ _

/-- No type has the name `never`. -/
theorem arrayOf_eq_never_iff (names : List String) :
    ctx.arrayOf names = "never[]" ↔ names = [] := by
  match names with
  | [] => exact ⟨fun _ => rfl, fun _ => rfl⟩
  | [only] =>
    refine iff_of_false (fun h => ?_) nofun
    have hname : ctx.namer.typeName only = "never" :=
      String.append_left_inj "[]" |>.1 h
    have hhead : (ctx.namer.typeName only).toList.head? = some 'n' := by rw [hname]; rfl
    cases TypeNamer.isLower_of_head_typeName hhead
  | first :: second :: more =>
    refine iff_of_false (fun h => ?_) nofun
    have hhead := congrArg (fun text => text.toList.head?) h
    simp only [arrayOf, String.toList_append] at hhead
    cases hhead

end FragmentContext

/-! ## Bloks fields -/

namespace Field

/-- The type that a field is given as a text among these components. -/
def typeAmong (components : List Component) (namer : TypeNamer) (name : String) (field : Field) :
    Option String :=
  (FragmentContext.typeText { roster := Roster.ofComponents components, namer } name field).value

variable {components others : List Component} {namer : TypeNamer} {name : String} {field : Field}

/-- The type of a bloks field is an array of what it allows. -/
theorem typeAmong_of_bloks (hkind : field.kind = .bloks) :
    field.typeAmong components namer name =
      if field.Unlisted then none
      else some (FragmentContext.arrayOf { roster := Roster.ofComponents components, namer }
        (field.allowedNames components)) := by
  rw [typeAmong, FragmentContext.typeText, hkind]
  dsimp only
  rw [FragmentContext.allowedComponents_eq _ rfl]
  split <;> rfl

theorem fragments_of_bloks (custom : Option CustomTypes) (hkind : field.kind = .bloks) :
    (FragmentContext.fragments ⟨Roster.ofComponents components, namer, custom⟩ name field).value =
      some [(name, .obj (("type", .str "array") ::
        (FragmentContext.textMember "tsType" (field.typeAmong components namer name) ++
          FragmentContext.textMember "description" field.description)))] := by
  have hmembers : FragmentContext.baseMembers? field = some [("type", .str "array")] := by
    rw [FragmentContext.baseMembers?, hkind]
  have htext :
      FragmentContext.typeText ⟨Roster.ofComponents components, namer, custom⟩ name field =
        FragmentContext.typeText { roster := Roster.ofComponents components, namer } name field :=
    rfl
  rw [FragmentContext.fragments, if_neg (by rw [hkind]; decide), FragmentContext.plainFragments,
    hmembers, htext]
  rfl

theorem typeAmong_eq_none_iff (hkind : field.kind = .bloks) :
    field.typeAmong components namer name = none ↔ field.Unlisted := by
  rw [typeAmong_of_bloks hkind]
  split <;> simp [*]

end Field

/-- **A bloks field allows exactly the intended components.** Its fragment is an array, whose type
is given but when the list that restricts the field is empty. The type is then an array of the
types of the allowed components: all of them, each once, in the order in which they are met first;
or those in a group of the list, each once, in the order of the groups and then of the components;
or those on the list that are defined, in its order. It is `never[]` if and only if none is
allowed. In another order of the components a field that has a type has one that names the same
types, and where components are listed it is the same text. -/
theorem bloks_field_allows (components : List Component) (namer : TypeNamer)
    (custom : Option CustomTypes) (name : String) (field : Field) (hkind : field.kind = .bloks) :
    (FragmentContext.fragments ⟨Roster.ofComponents components, namer, custom⟩ name field).value =
      some [(name, .obj (("type", .str "array") ::
        (FragmentContext.textMember "tsType" (field.typeAmong components namer name) ++
          FragmentContext.textMember "description" field.description)))] ∧
    (field.typeAmong components namer name = none ↔
      field.restrictComponents = true ∧ field.whitelist = []) ∧
    (∀ text, field.typeAmong components namer name = some text →
      (∀ width level, text = (TypeExpr.array (.oneOf ((field.allowedNames components).map
        fun allowed => .keyword (namer.typeName allowed)))).print width level) ∧
      (text = "never[]" ↔ field.allowedNames components = [])) ∧
    (field.restrictComponents = true → field.restrictsToGroups = true →
      (field.allowedNames components).Nodup ∧
      ∀ allowed, allowed ∈ field.allowedNames components ↔
        ∃ c ∈ components, c.name = allowed ∧ ∃ group ∈ field.componentGroupWhitelist,
          c.group = some group) ∧
    ∀ others : List Component, components.Perm others →
      (field.typeAmong components namer name = none ↔
        field.typeAmong others namer name = none) ∧
      (∀ typeName, typeName ∈ (field.allowedNames components).map namer.typeName ↔
        typeName ∈ (field.allowedNames others).map namer.typeName) ∧
      (field.restrictComponents = true → field.restrictsToGroups = false →
        field.typeAmong components namer name = field.typeAmong others namer name) := by
  refine ⟨Field.fragments_of_bloks custom hkind, Field.typeAmong_eq_none_iff hkind,
    fun text htext => ?_, fun hrestricted hgroups => ⟨?_, fun allowed => ?_⟩,
    fun others hperm => ⟨?_, fun typeName => ?_, fun hrestricted hgroups => ?_⟩⟩
  · rw [Field.typeAmong_of_bloks hkind] at htext
    split at htext
    · cases htext
    · cases htext
      exact ⟨fun width level => (FragmentContext.print_arrayOf _ _ width level).symm,
        FragmentContext.arrayOf_eq_never_iff _ _⟩
  · exact Field.nodup_allowedNames_of_groups hrestricted hgroups
  · exact Field.mem_allowedNames_of_groups hrestricted hgroups
  · rw [Field.typeAmong_eq_none_iff hkind, Field.typeAmong_eq_none_iff hkind]
  · exact ((field.allowedNames_perm hperm).map _).mem_iff
  · rw [Field.typeAmong_of_bloks hkind, Field.typeAmong_of_bloks hkind,
      Field.allowedNames_congr hrestricted hgroups hperm]
    rfl

namespace Grid

/-- A field for what is in one of two groups. -/
def items : Field where
  kind := .bloks
  restrictComponents := true
  restrictType := some "groups"
  componentGroupWhitelist := ["atoms", "sections", "gone"]

/-- A grid of items and what may stand in it. -/
def components : List Component :=
  [{ name := "grid", fields := [("items", items)] }, { name := "hero", group := some "sections" },
    { name := "button", group := some "atoms" }, { name := "hero", group := some "atoms" },
    { name := "teaser", group := some "sections" }]

/-- The first group comes first, and a name that is in both groups stands where it is met first. -/
theorem bloks_field_allows_items : items.kind = .bloks ∧
    items.allowedNames components = ["button", "hero", "teaser"] ∧
    items.typeAmong components {} "items" =
      some "(ButtonStoryblok | HeroStoryblok | TeaserStoryblok)[]" ∧
    ∀ others : List Component, components.Perm others →
      ∀ typeName, typeName ∈ (items.allowedNames components).map (TypeNamer.typeName {}) ↔
        typeName ∈ (items.allowedNames others).map (TypeNamer.typeName {}) := by
  have hallowed : items.allowedNames components = ["button", "hero", "teaser"] := by decide +kernel
  have htype : items.typeAmong components {} "items" =
      some "(ButtonStoryblok | HeroStoryblok | TeaserStoryblok)[]" := by decide +kernel
  obtain ⟨-, -, -, -, hperm⟩ := bloks_field_allows components {} none "items" items rfl
  exact ⟨rfl, hallowed, htype, fun others h => (hperm others h).2.1⟩

end Grid

end Blokwork
