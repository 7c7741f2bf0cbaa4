import Blokwork.Artifact.Reader
import Blokwork.Proofs.Generate.References
import Blokwork.Proofs.TypeScript.Layout

/-!
# An artifact is its declarations

Descriptions, keys and values can hold any text, but none of them starts a line of a declaration.
So a declaration has no empty line, and of its lines only the first one opens a declaration, that
of its own type (`DeclaresOnly`). Between the empty lines of an artifact therefore stand the
declarations as they were made, and what the artifact declares under a name is what was declared
under it (`GeneratorConfig.artifact_concatenates`).
-/

namespace Blokwork

open Text TypeScript

/-! ## Texts in schemas -/

theorem TypeNamer.lineFeed_not_mem_typeName (namer : TypeNamer) (name : String) :
    '\n' ∉ (namer.typeName name).toList := fun hmem => by
  cases isIdentifierPart_of_mem (namer.isIdentifier_typeName name) hmem

namespace FragmentContext

variable {ctx : FragmentContext}

theorem lineFeed_not_mem_arrayOf (ctx : FragmentContext) (names : List String) :
    '\n' ∉ (ctx.arrayOf names).toList := by
  unfold arrayOf
  split
  · decide
  · rw [String.toList_append, List.mem_append, not_or]
    exact ⟨ctx.namer.lineFeed_not_mem_typeName _, by decide⟩
  · refine lineFeed_not_mem_enclosed _ _ (by decide) (by decide) ?_
    exact lineFeed_not_mem_intercalate (by decide)
      (List.forall_mem_map.2 fun name _ => ctx.namer.lineFeed_not_mem_typeName name)

theorem lineFeed_not_mem_linkType (ctx : FragmentContext) (field : Field) :
    '\n' ∉ (ctx.linkType field).toList := by
  have hbase := ctx.namer.lineFeed_not_mem_typeName FieldKind.multilink.name
  have hexcluded : ∀ text ∈ excludedVariants field, '\n' ∉ text.toList := by
    intro text htext
    unfold excludedVariants at htext
    rcases List.mem_append.1 htext with h | h <;> split at h <;> cases h <;>
      first | decide | contradiction
  unfold linkType
  dsimp only
  split
  · exact hbase
  · have hopen : '\n' ∉
      ("Exclude<" ++ ctx.namer.typeName FieldKind.multilink.name ++ ", ").toList :=
      lineFeed_not_mem_enclosed _ _ (by decide) (by decide) hbase
    exact lineFeed_not_mem_enclosed _ _ hopen (by decide)
      (lineFeed_not_mem_intercalate (by decide) hexcluded)

/-- The type that a field is given as a text has one line. -/
theorem lineFeed_not_mem_typeText {name text : String} {field : Field}
    (h : (ctx.typeText name field).value = some text) : '\n' ∉ text.toList := by
  unfold typeText at h
  split at h
  · cases h
    exact ctx.lineFeed_not_mem_linkType field
  · obtain ⟨names, -, rfl⟩ := Option.map_eq_some_iff.1 h
    exact ctx.lineFeed_not_mem_arrayOf names
  · dsimp only at h
    split at h
    · cases h
      exact ctx.namer.lineFeed_not_mem_typeName _
    · cases h

end FragmentContext

/-! ## Declarations of a run -/

namespace GeneratorConfig

variable {config : GeneratorConfig} {components : List Component}

/-- What is declared for a component. -/
theorem exists_declaration_of_component (hcustom : config.custom = none) {c : Component}
    {t : GeneratedType}
    (hresult : c.generatedType (config.context components) config.compile = .ok t) :
    ∃ d : Declaration, t.declaration = Component.bannerLines config.compile
        ++ d.line config.compile.indent ∧
      d.name = t.typeName ∧ isIdentifier d.name = true ∧
      d.body.Everywhere TypeExpr.TextLaidOut := by
  obtain ⟨d, members, further, hline, hdname, hname, -, hproperties, hmembers, hfurther, hbody⟩ :=
    Component.exists_interfaceForm hresult
  refine ⟨d, hline, hdname, hname, ?_⟩
  rw [hbody, TypeExpr.Everywhere_object]
  refine ⟨trivial, List.forall_mem_map.2 fun m hm => ?_, fun u hu => ?_⟩
  · refine (hmembers m hm).everywhere suits_textLaidOut ?_
    have hmem : (m.1, m.2.1) ∈ c.properties (config.context components) :=
      hproperties ▸ List.mem_map_of_mem hm
    obtain hinjected | ⟨e, -, -, fragments, hfragments, hp⟩ | ⟨types, htypes, -⟩ :=
      Component.properties_cases hmem
    · exact Component.givesText_injected hinjected
    · exact FragmentContext.plainFragments_givesText _ hfragments
        (fun _ h => laidOut_of_not_mem (FragmentContext.lineFeed_not_mem_typeText h)) _ hp
    · have hnone : (config.context components).custom = none := hcustom
      rw [hnone] at htypes
      cases htypes
  · obtain ⟨p, hp, rfl⟩ := Option.map_eq_some_iff.1 hu
    obtain ⟨hanything, hp⟩ := hfurther p hp
    rw [hanything] at hp
    exact hp.everywhere suits_textLaidOut (HelperType.givesText_typed "any")

/-- The texts in the schema of a helper type are laid out. -/
theorem laidOut_of_schema? {kind : FieldKind} {schema : Json}
    (h : HelperType.schema? config.namer kind = some schema) :
    schema.EveryObject (GivesText LaidOut) :=
  HelperType.schema?_givesText h (laidOut_of_not_mem (by decide)) (laidOut_of_not_mem (by decide))
    fun needed _ => laidOut_of_not_mem (config.namer.lineFeed_not_mem_typeName needed.name)

/-- What is declared for a helper type. -/
theorem exists_declaration_of_helper {kind : FieldKind} {name declaration : String} {schema : Json}
    (hschema : HelperType.schema? config.namer kind = some schema)
    (hcompile : TypeScript.compile config.compile name schema = .ok declaration) :
    ∃ d : Declaration, declaration = Component.bannerLines config.compile
        ++ d.line config.compile.indent ∧
      d.name = name ∧ isIdentifier d.name = true ∧ d.body.Everywhere TypeExpr.TextLaidOut := by
  have hgives := laidOut_of_schema? hschema
  obtain ⟨node, rfl, hdescription⟩ := HelperType.exists_node_of_schema? hschema
  obtain ⟨d, hline, hname, hdname, -, hdescribes⟩ :=
    Component.exists_line_of_compile hdescription hcompile
  exact ⟨d, hline, hdname, by rwa [hdname], hdescribes.everywhere suits_textLaidOut hgives⟩

/-- Without a banner and without types of the caller, a declaration of a run is its line. -/
theorem exists_declaration (hbanner : config.compile.bannerComment = none)
    (hcustom : config.custom = none) {t : GeneratedType}
    (ht : t ∈ (config.generate components).types) :
    ∃ d : Declaration, t.declaration = d.line config.compile.indent ∧ d.name = t.typeName ∧
      isIdentifier d.name = true ∧ d.body.Everywhere TypeExpr.TextLaidOut := by
  have hlines : Component.bannerLines config.compile = "" := by
    rw [Component.bannerLines, hbanner]
    rfl
  have hdeclared : ∃ d : Declaration, t.declaration = Component.bannerLines config.compile
        ++ d.line config.compile.indent ∧
      d.name = t.typeName ∧ isIdentifier d.name = true ∧
      d.body.Everywhere TypeExpr.TextLaidOut := by
    cases horigin : t.origin with
    | component name =>
      have hcomponent : t ∈ (config.generate components).componentTypes :=
        List.mem_filter.2 ⟨ht, by rw [GeneratedType.isOfComponent, horigin]⟩
      obtain ⟨c, -, hresult⟩ := config.exists_of_mem_componentTypes hcomponent
      exact exists_declaration_of_component hcustom hresult
    | helper kind =>
      obtain ⟨-, -, schema, hschema, hcompile⟩ := exists_of_origin_helper ht horigin
      exact exists_declaration_of_helper hschema hcompile
  rwa [hlines] at hdeclared

end GeneratorConfig

/-! ## Lines of declarations -/

namespace Artifact

variable {name other : String}

/-- The line, with its line end, opens a declaration of that name. -/
def opensIn (name : String) (line : List Char) : Bool :=
  opensDeclaration name (String.ofList (dropLineEnd line))

theorem opensIn_iff {line : List Char} : opensIn name line = true ↔
    ∃ form : DeclarationForm, form.opening ++ name.toList ++ [' '] <+: line := by
  have hopening (words : String) :
      (words ++ name ++ " ").toList = words.toList ++ name.toList ++ [' '] := by
    rw [String.toList_append, String.toList_append]
    rfl
  rw [opensIn, opensDeclaration, Bool.or_eq_true, List.isPrefixOf_iff_prefix,
    List.isPrefixOf_iff_prefix, hopening, hopening, @String.toList_ofList (dropLineEnd line),
    prefix_dropLineEnd_iff (by decide) (by decide), prefix_dropLineEnd_iff (by decide) (by decide)]
  constructor
  · rintro (h | h)
    · exact ⟨.interfaceForm, h⟩
    · exact ⟨.aliasForm, h⟩
  · rintro ⟨form, h⟩
    cases form with
    | interfaceForm => exact .inl h
    | aliasForm => exact .inr h

/-- The opening of a declaration opens no other one. -/
theorem opensIn_opening (hname : isIdentifier name = true) (hother : isIdentifier other = true)
    (form : DeclarationForm) (rest : List Char) :
    opensIn other (form.opening ++ name.toList ++ ' ' :: rest) = decide (name = other) := by
  rw [Bool.eq_iff_iff, opensIn_iff, decide_eq_true_iff]
  constructor
  · rintro ⟨form', h⟩
    exact ((opening_prefix_iff hother hname rest).1 h).2.symm
  · rintro rfl
    exact ⟨form, (opening_prefix_iff hname hname rest).2 ⟨rfl, rfl⟩⟩

/-- A line within a declaration opens none. -/
theorem opensIn_of_startsWithin {r : List Char} (h : StartsWithin r) (name : String) :
    opensIn name (firstLine r ++ ['\n']) = false := by
  rw [← Bool.not_eq_true, opensIn_iff]
  rintro ⟨form, hprefix⟩
  have hword : exportWord <+: form.opening := by cases form <;> decide
  refine h.firstLine.2 ['\n'] (List.IsPrefix.trans ?_ hprefix)
  rw [List.append_assoc]
  exact hword.trans (List.prefix_append _ _)

theorem declarationCount_eq (text name : String) :
    declarationCount text name = (rawLines text.toList).countP (opensIn name) := by
  rw [declarationCount, ← List.countP_eq_length_filter, lines, List.countP_map]
  rfl

/-- The text is the declaration of one type: it ends with a line feed, each of its lines shows
something, and it opens a declaration once, that of the type. -/
structure DeclaresOnly (name text : String) : Prop where
  ended : Ended text
  shown : ∀ line ∈ rawLines text.toList, ∃ c ∈ line, isBlankChar c = false
  opens : ∀ other, isIdentifier other = true →
    declarationCount text other = if name = other then 1 else 0

theorem declaresOnly_line {d : Declaration} {width : Nat} (hname : isIdentifier d.name = true)
    (hbody : d.body.Everywhere TypeExpr.TextLaidOut) : DeclaresOnly d.name (d.line width) := by
  obtain ⟨hended, rest, inner, hlines, hwithin⟩ := Declaration.exists_rawLines hname hbody
  refine ⟨hended, ?_, fun other hother => ?_⟩
  · rw [hlines]
    refine List.forall_mem_cons.2 ⟨⟨'e', ?_, by decide⟩, fun line hline => ?_⟩
    · have hletter : 'e' ∈ d.form.opening := by cases d.form <;> decide
      exact List.mem_append_left _ (List.mem_append_left _ hletter)
    · obtain ⟨r, hr, rfl⟩ := hwithin line hline
      obtain ⟨c, hc, hblank⟩ := hr.firstLine.1
      exact ⟨c, List.mem_append_left _ hc, hblank⟩
  · have hinner : inner.countP (opensIn other) = 0 := by
      refine List.countP_eq_zero.2 fun line hline => ?_
      obtain ⟨r, hr, rfl⟩ := hwithin line hline
      rw [opensIn_of_startsWithin hr]
      exact Bool.false_ne_true
    rw [declarationCount_eq, hlines, List.countP_cons, hinner,
      opensIn_opening hname hother]
    simp

/-! ## Lines of an artifact -/

/-- A line that starts with another letter opens nothing. -/
theorem opensIn_cons {c : Char} (hc : c ≠ 'e') (rest : List Char) (name : String) :
    opensIn name (c :: rest) = false := by
  rw [← Bool.not_eq_true, opensIn_iff]
  rintro ⟨form, more, h⟩
  have hhead := congrArg List.head? h
  cases form <;> exact hc (Option.some.inj hhead).symm

theorem ended_preamble : Ended preamble := ⟨preamble.toList.dropLast, by decide⟩

/-- The first line of an artifact. -/
theorem rawLines_preamble :
    ∃ rest, rawLines preamble.toList = ['i' :: rest] := ⟨preamble.toList.tail, by decide⟩

theorem shown_preamble : ∀ line ∈ rawLines preamble.toList, ∃ c ∈ line, isBlankChar c = false := by
  obtain ⟨rest, hrest⟩ := rawLines_preamble
  rw [hrest]
  exact List.forall_mem_singleton.2 ⟨'i', List.mem_cons_self, by decide⟩

section Emitted

variable {α : Type} {types : List α} {nameOf textOf : α → String}

/-- Between the empty lines of an artifact stand the declarations. -/
theorem paragraphs_emit (h : ∀ t ∈ types, DeclaresOnly (nameOf t) (textOf t)) :
    paragraphs (emit (types.map textOf)) = preamble :: types.map textOf := by
  refine paragraphs_intercalate ?_ ?_
  · exact List.forall_mem_cons.2
      ⟨ended_preamble, List.forall_mem_map.2 fun t ht => (h t ht).ended⟩
  · have hshown {text : String}
        (h : ∀ line ∈ rawLines text.toList, ∃ c ∈ line, isBlankChar c = false) :
        ∀ line ∈ rawLines text.toList, isEmptyLine line = false := by
      intro line hline
      obtain ⟨c, hc, hblank⟩ := h line hline
      exact isEmptyLine_eq_false hc hblank
    exact List.forall_mem_cons.2
      ⟨hshown shown_preamble, List.forall_mem_map.2 fun t ht => hshown (h t ht).shown⟩

/-- What is declared in an artifact is what was declared. -/
theorem declarationCount_emit (h : ∀ t ∈ types, DeclaresOnly (nameOf t) (textOf t)) {name : String}
    (hname : isIdentifier name = true) :
    declarationCount (emit (types.map textOf)) name = types.countP fun t => nameOf t = name := by
  have hended : ∀ text ∈ preamble :: types.map textOf, Ended text :=
    List.forall_mem_cons.2 ⟨ended_preamble, List.forall_mem_map.2 fun t ht => (h t ht).ended⟩
  have hpreamble : (rawLines preamble.toList).countP (opensIn name) = 0 := by
    obtain ⟨rest, hrest⟩ := rawLines_preamble
    rw [hrest, List.countP_singleton, opensIn_cons (by decide)]
    rfl
  have hblank : opensIn name ['\n'] = false := opensIn_cons (by decide) [] name
  rw [declarationCount_eq, emit, rawLines_intercalate hended, List.countP_append, hpreamble,
    Nat.zero_add]
  clear hended hpreamble
  induction types with
  | nil => rfl
  | cons t types ih =>
    obtain ⟨ht, htypes⟩ := List.forall_mem_cons.1 h
    have hcount := ht.opens name hname
    rw [declarationCount_eq] at hcount
    rw [List.map_cons, List.flatMap_cons, List.countP_append, List.countP_cons, hblank, hcount,
      ih htypes, List.countP_cons]
    simp [Nat.add_comm]

end Emitted

end Artifact

/-! ## Artifacts of a run -/

namespace GeneratorConfig

/-- A declaration of a run is that of its type alone. -/
theorem declaresOnly {config : GeneratorConfig} {components : List Component}
    (hbanner : config.compile.bannerComment = none) (hcustom : config.custom = none)
    {t : GeneratedType} (ht : t ∈ (config.generate components).types) :
    Artifact.DeclaresOnly t.typeName t.declaration := by
  obtain ⟨d, hline, hdname, hname, hbody⟩ := exists_declaration hbanner hcustom ht
  rw [hline, ← hdname]
  exact Artifact.declaresOnly_line hname hbody

/-- **An artifact is its declarations.** Without a banner and without types of the caller, no line
of a declaration is blank, so the declarations stand between the empty lines of the artifact, in
the order in which they were made; and the artifact declares under a name what was declared under
it. -/
theorem artifact_concatenates (config : GeneratorConfig) (components : List Component)
    (hbanner : config.compile.bannerComment = none) (hcustom : config.custom = none) :
    (∀ text ∈ (config.generate components).declarations,
      ∀ line ∈ lines text, isBlank line = false) ∧
    paragraphs (Artifact.emit (config.generate components).declarations) =
      Artifact.preamble :: (config.generate components).declarations ∧
    ∀ name, isIdentifier name = true →
      Artifact.declarationCount (Artifact.emit (config.generate components).declarations) name =
        (config.generate components).types.countP fun t => t.typeName = name := by
  have hdeclares : ∀ t ∈ (config.generate components).types,
      Artifact.DeclaresOnly t.typeName t.declaration := fun _ => declaresOnly hbanner hcustom
  refine ⟨List.forall_mem_map.2 fun t ht line hline => ?_, Artifact.paragraphs_emit hdeclares,
    fun name hname => Artifact.declarationCount_emit hdeclares hname⟩
  obtain ⟨raw, hraw, rfl⟩ := List.mem_map.1 hline
  obtain ⟨c, hc, hblank⟩ := (hdeclares t ht).shown raw hraw
  have hshown : c ∈ dropLineEnd raw := by
    refine mem_dropLineEnd hc ?_ ?_ <;> rintro rfl <;> cases hblank
  rw [isBlank, String.toList_ofList, List.all_eq_false]
  exact ⟨c, hshown, by rw [hblank]; exact Bool.false_ne_true⟩

end GeneratorConfig

namespace Posing

/-- A page with a field whose description reads like a declaration behind an empty line. -/
def page : Component where
  name := "page"
  fields := [("title",
    { kind := .text, description := some "The title.\n\nexport interface FakeStoryblok \x7b" })]

/-- Declarations without an indent. -/
def flat : GeneratorConfig where
  compile := { indent := 0 }

/-- The description declares nothing and starts no paragraph. -/
theorem artifact_concatenates_page :
    flat.compile.bannerComment = none ∧ flat.custom = none ∧
    (∃ declaration, paragraphs (Artifact.emit (flat.generate [page]).declarations) =
      [Artifact.preamble, declaration]) ∧
    Artifact.declarationCount (Artifact.emit (flat.generate [page]).declarations) "PageStoryblok" =
      1 ∧
    Artifact.declarationCount (Artifact.emit (flat.generate [page]).declarations) "FakeStoryblok" =
      0 := by
  have hcustom : (flat.context [page]).custom = none := rfl
  obtain ⟨t, ht⟩ := Component.exists_generatedType hcustom flat.compile page
  have hname : t.typeName = "PageStoryblok" := by
    rw [(Component.compile_of_generatedType ht).1]
    decide
  have htypes : (flat.generate [page]).types = [t] := by
    have hcomponent : flat.component (flat.context [page]) page = { types := [t] } := by
      unfold GeneratorConfig.component
      rw [ht]
    simp only [GeneratorConfig.generate, GeneratorConfig.componentsFrom, Generation.append,
      hcomponent]
    rfl
  obtain ⟨-, hparagraphs, hcount⟩ := flat.artifact_concatenates [page] rfl rfl
  refine ⟨rfl, rfl, ⟨t.declaration, ?_⟩, ?_, ?_⟩
  · rw [hparagraphs, Generation.declarations, htypes]
    rfl
  · rw [hcount _ (by decide), htypes, List.countP_singleton, hname]
    rfl
  · rw [hcount _ (by decide), htypes, List.countP_singleton, hname]
    rfl

end Posing

end Blokwork
