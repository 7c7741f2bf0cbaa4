import Blokwork.Proofs.Generate.Lines
import Blokwork.Proofs.Generate.Placement

/-!
# Reading interfaces from an artifact

What is read under a name starts behind the first line of the artifact that ends with the header of
an interface of that name, and goes up to the next line that is a brace (`Artifact.Reads`). There
is such a line in the interfaces of that name, and in a component with a description of which a
line ends like the header (`exists_hasHeader_iff`). Behind the latter the rest of the comment is
read, and behind the header of a helper type no line that names a component, so neither is ever the
interface of a component (`Foreign.map_trimmed_ne`). This makes the condition exact under which
interfaces are read back (`interfaces_read_back`).
-/

namespace Blokwork

open Text TypeScript

/-- The first of some things with a property. -/
theorem exists_first {α : Type} {P : α → Prop} {xs : List α} (h : ∃ x ∈ xs, P x) :
    ∃ front x back, xs = front ++ x :: back ∧ (∀ y ∈ front, ¬ P y) ∧ P x := by
  classical
  obtain ⟨x, hx⟩ := Option.isSome_iff_exists.1 (List.find?_isSome.2
    (h.imp fun x hx => ⟨hx.1, decide_eq_true hx.2⟩))
  obtain ⟨hP, front, back, hxs, hfront⟩ := List.find?_eq_some_iff_append.1 hx
  exact ⟨front, x, back, hxs, fun y hy => by simpa using hfront y hy, of_decide_eq_true hP⟩

namespace Artifact

/-! ## What is read from lines -/

/-- The first of the lines with the header of that name stands in front of `first :: inner`, and
behind these stands a brace. -/
def Reads (name : String) (ls : List (List Char)) (first : List Char)
    (inner : List (List Char)) : Prop :=
  ∃ front header back, ls = front ++ header :: first :: (inner ++ ['\x7d', '\n'] :: back) ∧
    (∀ l ∈ front, ¬ Heads name l) ∧ Heads name header ∧ ['\x7d', '\n'] ∉ inner

namespace Reads

variable {name : String} {ls : List (List Char)} {first : List Char} {inner : List (List Char)}

theorem prepend (h : Reads name ls first inner) {silent : List (List Char)}
    (hsilent : ∀ l ∈ silent, ¬ Heads name l) : Reads name (silent ++ ls) first inner := by
  obtain ⟨front, header, back, rfl, hfront, hheader, hinner⟩ := h
  exact ⟨silent ++ front, header, back, by rw [List.append_assoc],
    List.forall_mem_append.2 ⟨hsilent, hfront⟩, hheader, hinner⟩

theorem append (h : Reads name ls first inner) (more : List (List Char)) :
    Reads name (ls ++ more) first inner := by
  obtain ⟨front, header, back, rfl, hfront, hheader, hinner⟩ := h
  exact ⟨front, header, back ++ more, by simp, hfront, hheader, hinner⟩

/-- Of the lines behind a header some are read. -/
theorem of_header {front more : List (List Char)} {header : List Char}
    (hls : ls = front ++ header :: first :: (more ++ [['\x7d', '\n']]))
    (hfront : ∀ l ∈ front, ¬ Heads name l) (hheader : Heads name header) :
    ∃ inner, Reads name ls first inner ∧ inner ⊆ more := by
  have hbrace : ∃ l ∈ more ++ [['\x7d', '\n']], l = ['\x7d', '\n'] :=
    ⟨_, List.mem_append_right _ (List.mem_singleton_self _), rfl⟩
  obtain ⟨inner, _, back, hmore, hinner, rfl⟩ := exists_first hbrace
  refine ⟨inner, ⟨front, header, back, hls.trans (by rw [hmore]), hfront, hheader,
    fun hmem => hinner _ hmem rfl⟩, fun l hl => ?_⟩
  have hmem : l ∈ more ++ [['\x7d', '\n']] := hmore ▸ List.mem_append_left _ hl
  exact (List.mem_append.1 hmem).resolve_right fun h => hinner l hl (List.mem_singleton.1 h)

end Reads

section Read

variable {text name : String}

/-- The header that is looked for. -/
theorem toList_header (name : String) : ("export interface " ++ name ++ " \x7b\n").toList =
    (interfaceHeader name).toList ++ ['\n'] := by
  have htext (words : String) : (words ++ name ++ " \x7b\n").toList =
      (words ++ name ++ " \x7b").toList ++ ['\n'] := by simp
  exact htext _

/-- What is read are the lines up to the brace. -/
theorem interfaceMembers?_of_reads (hname : isIdentifier name = true)
    (hall : ∀ l ∈ rawLines text.toList, IsLine l) {first : List Char} {inner : List (List Char)}
    (h : Reads name (rawLines text.toList) first inner)
    (hshown : ∀ l ∈ first :: inner, l ≠ ['\n']) :
    interfaceMembers? text name = some ((first :: inner).map trimmed) := by
  obtain ⟨front, header, back, hlines, hfront, hheader, hinner⟩ := h
  rw [hlines] at hall
  simp only [List.forall_mem_append, List.forall_mem_cons] at hall
  obtain ⟨hfrontLines, hheaderLine, hfirst, hinnerLines, hbrace, -⟩ := hall
  have htext : text.toList = front.flatten
      ++ (header ++ ((first :: inner).flatten ++ (['\x7d', '\n'] ++ back.flatten))) := by
    rw [← flatten_rawLines text.toList, hlines]
    simp
  obtain ⟨skipped, hfound⟩ := splitFirst_lineEnd (lineFeed_not_mem_interfaceHeader hname)
    hfrontLines hfront hheaderLine hheader
    ((first :: inner).flatten ++ (['\x7d', '\n'] ++ back.flatten))
  have hclosed := splitFirst_lineAfter hbrace hfirst hinnerLines hinner back.flatten
  have hclose : "\n\x7d\n".toList = ['\n', '\x7d', '\n'] := by decide
  unfold interfaceMembers?
  dsimp only
  rw [toList_header, htext, hfound, hclose]
  dsimp only [Option.bind_eq_bind, Option.bind_some]
  rw [hclosed, Option.bind_some,
    map_trim_lines (List.forall_mem_cons.2 ⟨hfirst, hinnerLines⟩) hshown]
  rfl

/-- Without a header nothing is read. -/
theorem interfaceMembers?_eq_none (hname : isIdentifier name = true)
    (hall : ∀ l ∈ rawLines text.toList, IsLine l)
    (h : ∀ l ∈ rawLines text.toList, ¬ Heads name l) : interfaceMembers? text name = none := by
  have hnone := splitFirst_lines (lineFeed_not_mem_interfaceHeader hname) hall h []
  have hnothing : splitFirst ((interfaceHeader name).toList ++ ['\n']) [] = none := by
    simp [splitFirst]
  rw [List.append_nil, flatten_rawLines, hnothing] at hnone
  unfold interfaceMembers?
  dsimp only
  rw [toList_header, hnone]
  rfl

end Read

end Artifact

/-! ## What is read from a declaration -/

/-- A line of the declaration ends with the header of an interface of that name. -/
def GeneratedType.HasHeader (t : GeneratedType) (name : String) : Prop :=
  ∃ l ∈ rawLines t.declaration.toList, Heads name l

section Entry

variable {t : GeneratedType} {name : String} {first : List Char} {ls : List (List Char)}

theorem hasHeader_iff (h : InterfaceLines t.typeName t.declaration first ls)
    (htype : isIdentifier t.typeName = true) (hname : isIdentifier name = true) :
    t.HasHeader name ↔ name = t.typeName ∨ ∃ l ∈ first :: ls, Heads name l := by
  have hbrace : ¬ Heads name ['\x7d', '\n'] := not_heads_of_last (by decide) []
  rw [GeneratedType.HasHeader, h, ← heads_interfaceHeader_iff htype hname]
  simp only [List.exists_mem_cons_iff, List.mem_append, List.mem_singleton, or_and_right,
    exists_or,
    exists_eq_left, hbrace, or_false]

/-- The text between the header and the brace of an interface. -/
theorem exists_inside (h : InterfaceLines name t.declaration first ls)
    (hinner : ∀ l ∈ first :: ls, IsInner l) : ∃ inside,
      t.declaration = interfaceHeader name ++ "\n" ++ inside ++ "\n\x7d\n" ∧
      (lines inside).map trim = (first :: ls).map trimmed := by
  have hlines : ∀ l ∈ first :: ls, IsLine l := fun l hl => (hinner l hl).isLine
  refine ⟨String.ofList (first :: ls).flatten.dropLast, String.toList_injective ?_,
    map_trim_lines hlines fun l hl => (hinner l hl).ne_lineFeed⟩
  have hclose (header : String) (inside : List Char) :
      (header ++ "\n" ++ String.ofList inside ++ "\n\x7d\n").toList =
        header.toList ++ ['\n'] ++ (inside ++ ['\n']) ++ ['\x7d', '\n'] := by simp
  rw [hclose, dropLast_flatten_append hlines, ← flatten_rawLines t.declaration.toList, h]
  simp

/-- From an interface its lines are read under its own name. -/
theorem reads_of_interface (h : InterfaceLines t.typeName t.declaration first ls)
    (hinner : ∀ l ∈ first :: ls, IsInner l) :
    Artifact.Reads t.typeName (rawLines t.declaration.toList) first ls := by
  refine ⟨[], _, [], h, nofun, List.suffix_rfl, fun hmem => ?_⟩
  exact (hinner _ (List.mem_cons_of_mem _ hmem)).ne_brace rfl

/-- Under another name, lines are read that start with one of a comment. -/
theorem reads_of_starred (h : InterfaceLines t.typeName t.declaration first ls)
    (htype : isIdentifier t.typeName = true) (hname : isIdentifier name = true)
    (hne : name ≠ t.typeName) (hstarred : StarsBehind name (first :: ls))
    (hheads : ∃ l ∈ first :: ls, Heads name l) :
    ∃ next inner, Artifact.Reads name (rawLines t.declaration.toList) next inner ∧
      IsStarred next := by
  obtain ⟨front, line, back, hsplit, hfront, hline⟩ := exists_first hheads
  obtain ⟨next, more, rfl, hnext⟩ := hstarred front line back hsplit hline
  have hlines : rawLines t.declaration.toList =
      (((interfaceHeader t.typeName).toList ++ ['\n']) :: front)
        ++ line :: next :: (more ++ [['\x7d', '\n']]) := by
    rw [h, ← List.cons_append, hsplit]
    simp
  have hown : ¬ Heads name ((interfaceHeader t.typeName).toList ++ ['\n']) := fun hheads =>
    hne ((heads_interfaceHeader_iff htype hname).1 hheads)
  obtain ⟨inner, hreads, -⟩ :=
    Artifact.Reads.of_header hlines (List.forall_mem_cons.2 ⟨hown, hfront⟩) hline
  exact ⟨next, inner, hreads, hnext⟩

end Entry

/-! ## What is read from an artifact -/

namespace Artifact

section Emitted

variable {types : List GeneratedType} {name : String}

/-- The lines of an artifact. -/
theorem rawLines_emit (h : ∀ t ∈ types, Ended t.declaration) :
    rawLines (emit (types.map (·.declaration))).toList = rawLines preamble.toList
      ++ types.flatMap fun t => ['\n'] :: rawLines t.declaration.toList := by
  have hended : ∀ text ∈ preamble :: types.map (·.declaration), Ended text :=
    List.forall_mem_cons.2 ⟨ended_preamble, List.forall_mem_map.2 h⟩
  rw [emit, rawLines_intercalate hended, List.flatMap_map]

theorem isLine_of_mem_emit (h : ∀ t ∈ types, Ended t.declaration) :
    ∀ l ∈ rawLines (emit (types.map (·.declaration))).toList, IsLine l := by
  rw [rawLines_emit h, List.forall_mem_append]
  refine ⟨isLine_of_mem_rawLines ended_preamble, fun l hl => ?_⟩
  obtain ⟨t, ht, hl⟩ := List.mem_flatMap.1 hl
  rcases List.mem_cons.1 hl with rfl | hl
  · exact ⟨[], List.not_mem_nil, rfl⟩
  · exact isLine_of_mem_rawLines (h t ht) l hl

theorem not_heads_preamble (name : String) : ∀ l ∈ rawLines preamble.toList, ¬ Heads name l := by
  have hlines : rawLines preamble.toList = [preamble.toList.dropLast.dropLast ++ [';', '\n']] := by
    decide
  rw [hlines]
  exact List.forall_mem_singleton.2 (not_heads_of_last (by decide) _)

theorem not_heads_lineFeed (name : String) : ¬ Heads name ['\n'] := fun h => by
  obtain ⟨rest, hrest⟩ := exists_interfaceHeader_eq_cons name
  have hlength := h.length_le
  simp [hrest] at hlength

/-- No line has the header if no declaration has. -/
theorem not_heads_entries (h : ∀ t ∈ types, ¬ t.HasHeader name) :
    ∀ l ∈ types.flatMap fun t => ['\n'] :: rawLines t.declaration.toList, ¬ Heads name l := by
  intro l hl hheads
  obtain ⟨t, ht, hl⟩ := List.mem_flatMap.1 hl
  rcases List.mem_cons.1 hl with rfl | hl
  · exact not_heads_lineFeed name hheads
  · exact h t ht ⟨l, hl, hheads⟩

/-- What is read from an artifact is what is read from its first declaration with the header. -/
theorem interfaceMembers?_emit {front back : List GeneratedType} {t : GeneratedType}
    (hname : isIdentifier name = true)
    (hdeclares : ∀ u ∈ front ++ t :: back, DeclaresOnly u.typeName u.declaration)
    (hfront : ∀ u ∈ front, ¬ u.HasHeader name) {first : List Char} {inner : List (List Char)}
    (h : Reads name (rawLines t.declaration.toList) first inner) :
    interfaceMembers? (emit ((front ++ t :: back).map (·.declaration))) name =
      some ((first :: inner).map trimmed) := by
  have hended : ∀ u ∈ front ++ t :: back, Ended u.declaration := fun u hu => (hdeclares u hu).ended
  have hshown : ∀ l ∈ rawLines t.declaration.toList, l ≠ ['\n'] := by
    rintro _ hl rfl
    obtain ⟨c, hc, hblank⟩ := (hdeclares t (by simp)).shown _ hl
    obtain rfl := List.mem_singleton.1 hc
    cases hblank
  have hblank : ∀ l ∈ [['\n']], ¬ Heads name l :=
    List.forall_mem_singleton.2 (not_heads_lineFeed name)
  have hlines : rawLines (emit ((front ++ t :: back).map (·.declaration))).toList =
      (rawLines preamble.toList ++ front.flatMap fun t => ['\n'] :: rawLines t.declaration.toList)
        ++ ([['\n']] ++ (rawLines t.declaration.toList
          ++ back.flatMap fun t => ['\n'] :: rawLines t.declaration.toList)) := by
    rw [rawLines_emit hended]
    simp
  have hreads : Reads name (rawLines (emit ((front ++ t :: back).map (·.declaration))).toList)
      first inner := by
    rw [hlines]
    exact ((h.append _).prepend hblank).prepend
      (List.forall_mem_append.2 ⟨not_heads_preamble name, not_heads_entries hfront⟩)
  refine interfaceMembers?_of_reads hname (isLine_of_mem_emit hended) hreads fun l hl =>
    hshown l ?_
  obtain ⟨before, header, behind, hsplit, -⟩ := h
  rw [hsplit]
  simp only [List.mem_cons, List.mem_append] at hl ⊢
  tauto

theorem interfaceMembers?_emit_eq_none (hname : isIdentifier name = true)
    (hended : ∀ u ∈ types, Ended u.declaration) (h : ∀ u ∈ types, ¬ u.HasHeader name) :
    interfaceMembers? (emit (types.map (·.declaration))) name = none := by
  refine interfaceMembers?_eq_none hname (isLine_of_mem_emit hended) ?_
  rw [rawLines_emit hended, List.forall_mem_append]
  exact ⟨not_heads_preamble name, not_heads_entries h⟩

end Emitted

end Artifact

/-! ## What is read from the artifact of a run -/

theorem Component.isIdentifier_of_generatedType {ctx : FragmentContext} {options : CompileOptions}
    {c : Component} {t : GeneratedType} (h : c.generatedType ctx options = .ok t) :
    isIdentifier t.typeName = true :=
  (compile_of_generatedType h).1 ▸ ctx.namer.isIdentifier_typeName c.name

namespace GeneratorConfig

variable {config : GeneratorConfig} {components : List Component} {name : String}

theorem isIdentifier_of_helper {t : GeneratedType} (ht : t ∈ (config.generate components).types)
    {kind : FieldKind} (horigin : t.origin = .helper kind) : isIdentifier t.typeName = true := by
  obtain ⟨-, htypeName, -⟩ := exists_of_origin_helper ht horigin
  exact htypeName ▸ config.namer.isIdentifier_typeName kind.name

theorem mem_declarationsOf {ctx : FragmentContext} {t : GeneratedType} :
    t ∈ config.declarationsOf ctx components ↔
      ∃ c ∈ components, c.generatedType ctx config.compile = .ok t := by
  simp only [declarationsOf, List.mem_filterMap, List.mem_map, exists_exists_and_eq_and]
  refine exists_congr fun c => and_congr_right fun _ => ?_
  cases c.generatedType ctx config.compile <;> simp [Except.toOption]

/-- The lines are those of a comment, or none of them names a component of that type name. -/
def Foreign (config : GeneratorConfig) (name : String) (first : List Char)
    (inner : List (List Char)) : Prop :=
  IsStarred first ∨ ∀ own, config.namer.typeName own = name →
    ∀ l ∈ first :: inner, trimmed l ≠ componentLine own

/-- They are not those of the interface of a component. -/
theorem Foreign.map_trimmed_ne {first first' : List Char} {inner ls : List (List Char)}
    (h : config.Foreign name first inner) {ctx : FragmentContext} {c : Component}
    (hname : config.namer.typeName c.name = name) (hfills : c.Fills ctx first' ls) :
    (first :: inner).map trimmed ≠ (first' :: ls).map trimmed := by
  intro heq
  rcases h with hstarred | hnone
  · rw [isStarred_iff, (List.cons.inj heq).1, ← isStarred_iff] at hstarred
    exact hfills.unstarred hstarred
  · obtain ⟨l, hl, hown⟩ := hfills.named
    have hmem : componentLine c.name ∈ (first :: inner).map trimmed :=
      heq ▸ hown ▸ List.mem_map_of_mem hl
    obtain ⟨l', hl', hnamed⟩ := List.mem_map.1 hmem
    exact hnone c.name hname l' hl' hnamed

section Run

variable (hbanner : config.compile.bannerComment = none) (hcustom : config.custom = none)
  (hname : isIdentifier name = true)

include hbanner hname

/-- A helper type has the header of its interface only. -/
theorem hasHeader_iff_of_helper {t : GeneratedType} (ht : t ∈ (config.generate components).types)
    {kind : FieldKind} (horigin : t.origin = .helper kind) :
    t.HasHeader name ↔ t.DeclaresInterface name := by
  have htype := isIdentifier_of_helper ht horigin
  obtain hnone | ⟨first, ls, hlines, hinside⟩ := lines_of_helper hbanner ht horigin
  · obtain ⟨hdeclares, hheads⟩ := hnone name hname
    exact iff_of_false (fun ⟨l, hl, h⟩ => hheads l hl h) hdeclares
  · rw [hasHeader_iff hlines htype hname, GeneratedType.declaresInterface_iff hlines htype hname]
    exact or_iff_left fun ⟨l, hl, h⟩ => (hinside l hl).1 name hname h

/-- Under its header the lines of the interface are read, which name no component. -/
theorem exists_reads_of_helper {t : GeneratedType} (ht : t ∈ (config.generate components).types)
    {kind : FieldKind} (horigin : t.origin = .helper kind) (hheader : t.HasHeader name) :
    ∃ first inner, Artifact.Reads name (rawLines t.declaration.toList) first inner ∧
      config.Foreign name first inner := by
  have htype := isIdentifier_of_helper ht horigin
  obtain hnone | ⟨first, ls, hlines, hinside⟩ := lines_of_helper hbanner ht horigin
  · obtain ⟨l, hl, h⟩ := hheader
    exact absurd h ((hnone name hname).2 l hl)
  · obtain rfl : name = t.typeName := ((hasHeader_iff hlines htype hname).1 hheader).resolve_right
      fun ⟨l, hl, h⟩ => (hinside l hl).1 name hname h
    obtain ⟨inner, hreads, hsubset⟩ := @Artifact.Reads.of_header _ _ _ [] _ _ hlines nofun
      List.suffix_rfl
    refine ⟨first, inner, hreads, .inr fun own hown l hl heq => ?_⟩
    have hmem : l ∈ first :: ls := List.cons_subset_cons first hsubset hl
    refine (hinside l hmem).2 own hown ?_
    rw [← heq]
    exact trimmed_prefix l

include hcustom

/-- A component has the header of its interface and those in its descriptions. -/
theorem hasHeader_iff_of_component {c : Component} {t : GeneratedType}
    (ht : c.generatedType (config.context components) config.compile = .ok t) :
    t.HasHeader name ↔ t.DeclaresInterface name ∨
      c.Documents (config.context components) (interfaceHeader name) := by
  have htype := Component.isIdentifier_of_generatedType ht
  obtain ⟨first, ls, hlines, hfills⟩ := Component.exists_lines hbanner hcustom ht
  rw [hasHeader_iff hlines htype hname, GeneratedType.declaresInterface_iff hlines htype hname,
    hfills.heads name hname]

/-- Under another header the lines of a comment are read. -/
theorem exists_reads_of_component {c : Component} {t : GeneratedType}
    (ht : c.generatedType (config.context components) config.compile = .ok t)
    (hother : config.namer.typeName c.name ≠ name) (hheader : t.HasHeader name) :
    ∃ first inner, Artifact.Reads name (rawLines t.declaration.toList) first inner ∧
      config.Foreign name first inner := by
  have htypeName := (Component.compile_of_generatedType ht).1
  have htype := Component.isIdentifier_of_generatedType ht
  have hne : name ≠ t.typeName := fun heq => hother (htypeName.symm.trans heq.symm)
  obtain ⟨first, ls, hlines, hfills⟩ := Component.exists_lines hbanner hcustom ht
  obtain ⟨next, inner, hreads, hnext⟩ := reads_of_starred hlines htype hname hne
    (hfills.starred name) (((hasHeader_iff hlines htype hname).1 hheader).resolve_left hne)
  exact ⟨next, inner, hreads, .inl hnext⟩

section Earlier

variable {earlier later : List GeneratedType} {before : List Component}
  (htypes : (config.generate components).types = earlier ++ later)
  (hcomponents : earlier.filter GeneratedType.isOfComponent =
    config.declarationsOf (config.context components) before)

include hcomponents

omit hbanner hcustom hname in
theorem earlier_cases {t : GeneratedType} (ht : t ∈ earlier) :
    (∃ b ∈ before, b.generatedType (config.context components) config.compile = .ok t) ∨
      ∃ kind, t.origin = .helper kind := by
  cases horigin : t.origin with
  | component own =>
    have hmem : t ∈ earlier.filter GeneratedType.isOfComponent :=
      List.mem_filter.2 ⟨ht, by rw [GeneratedType.isOfComponent, horigin]⟩
    rw [hcomponents] at hmem
    exact .inl (mem_declarationsOf.1 hmem)
  | helper kind => exact .inr ⟨kind, rfl⟩

include htypes

/-- The declarations with a header are those of interfaces and of components with such a line. -/
theorem exists_hasHeader_iff : (∃ t ∈ earlier, t.HasHeader name) ↔
    (∃ b ∈ before, b.Documents (config.context components) (interfaceHeader name)) ∨
      ∃ t ∈ earlier, t.DeclaresInterface name := by
  have hmem {t : GeneratedType} (ht : t ∈ earlier) : t ∈ (config.generate components).types :=
    htypes ▸ List.mem_append_left _ ht
  constructor
  · rintro ⟨t, ht, hheader⟩
    obtain ⟨b, hb, hresult⟩ | ⟨kind, horigin⟩ := earlier_cases hcomponents ht
    · rcases (hasHeader_iff_of_component hbanner hcustom hname hresult).1 hheader with h | h
      · exact .inr ⟨t, ht, h⟩
      · exact .inl ⟨b, hb, h⟩
    · exact .inr ⟨t, ht, (hasHeader_iff_of_helper hbanner hname (hmem ht) horigin).1 hheader⟩
  · rintro (⟨b, hb, hdocuments⟩ | ⟨t, ht, hdeclares⟩)
    · have hnone : (config.context components).custom = none := hcustom
      obtain ⟨t, hresult⟩ := Component.exists_generatedType hnone config.compile b
      have ht : t ∈ earlier.filter GeneratedType.isOfComponent := by
        rw [hcomponents]
        exact mem_declarationsOf.2 ⟨b, hb, hresult⟩
      exact ⟨t, List.mem_of_mem_filter ht,
        (hasHeader_iff_of_component hbanner hcustom hname hresult).2 (.inr hdocuments)⟩
    · refine ⟨t, ht, ?_⟩
      obtain ⟨b, -, hresult⟩ | ⟨kind, horigin⟩ := earlier_cases hcomponents ht
      · exact (hasHeader_iff_of_component hbanner hcustom hname hresult).2 (.inl hdeclares)
      · exact (hasHeader_iff_of_helper hbanner hname (hmem ht) horigin).2 hdeclares

/-- What is read if a declaration has the header, and none of a component with that type name. -/
theorem exists_foreign (hothers : ∀ b ∈ before, config.namer.typeName b.name ≠ name)
    (hheader : ∃ t ∈ earlier, t.HasHeader name) : ∃ first inner,
      Artifact.interfaceMembers? (Artifact.emit (config.generate components).declarations) name =
        some ((first :: inner).map trimmed) ∧ config.Foreign name first inner := by
  obtain ⟨front, t, back, rfl, hfront, hheader⟩ := exists_first hheader
  have ht : t ∈ front ++ t :: back := List.mem_append_right _ List.mem_cons_self
  obtain ⟨first, inner, hreads, hforeign⟩ : ∃ first inner,
      Artifact.Reads name (rawLines t.declaration.toList) first inner ∧
        config.Foreign name first inner := by
    obtain ⟨b, hb, hresult⟩ | ⟨kind, horigin⟩ := earlier_cases hcomponents ht
    · exact exists_reads_of_component hbanner hcustom hname hresult (hothers b hb) hheader
    · have hmem := htypes ▸ List.mem_append_left later ht
      exact exists_reads_of_helper hbanner hname hmem horigin hheader
  refine ⟨first, inner, ?_, hforeign⟩
  have hdeclares : ∀ u ∈ front ++ t :: (back ++ later),
      Artifact.DeclaresOnly u.typeName u.declaration := fun u hu =>
    declaresOnly hbanner hcustom (by rw [htypes]; simpa using hu)
  rw [Generation.declarations, htypes, List.append_assoc, List.cons_append]
  exact Artifact.interfaceMembers?_emit hname hdeclares hfront hreads

end Earlier

end Run

/-- The declaration of a component is an interface of its type name only. -/
theorem declaresInterface_iff_of_component (hbanner : config.compile.bannerComment = none)
    (hcustom : config.custom = none) (hname : isIdentifier name = true) {c : Component}
    {t : GeneratedType}
    (ht : c.generatedType (config.context components) config.compile = .ok t) :
    t.DeclaresInterface name ↔ name = config.namer.typeName c.name := by
  have htypeName : t.typeName = config.namer.typeName c.name :=
    (Component.compile_of_generatedType ht).1
  have htype := Component.isIdentifier_of_generatedType ht
  obtain ⟨first, ls, hlines, -⟩ := Component.exists_lines hbanner hcustom ht
  rw [GeneratedType.declaresInterface_iff hlines htype hname, htypeName]

/-- What is read under the name of a component, and when this is its own interface. -/
theorem interfaceMembers?_of_component (hbanner : config.compile.bannerComment = none)
    (hcustom : config.custom = none) {before after : List Component} {c : Component}
    (hnodup : ((before ++ c :: after).map fun c => config.namer.typeName c.name).Nodup) :
    ∃ earlier inside later,
      (config.generate (before ++ c :: after)).types = earlier ++
        ⟨config.namer.typeName c.name, .component c.name,
          interfaceHeader (config.namer.typeName c.name) ++ "\n" ++ inside ++ "\n\x7d\n"⟩ ::
            later ∧
      (Artifact.interfaceMembers?
          (Artifact.emit (config.generate (before ++ c :: after)).declarations)
          (config.namer.typeName c.name) = some ((lines inside).map trim) ↔
        (∀ b ∈ before, ¬ b.Documents (config.context (before ++ c :: after))
          (interfaceHeader (config.namer.typeName c.name))) ∧
        ∀ t ∈ earlier, ¬ t.DeclaresInterface (config.namer.typeName c.name)) := by
  have hname := config.namer.isIdentifier_typeName c.name
  have hnone : (config.context (before ++ c :: after)).custom = none := hcustom
  obtain ⟨t, ht⟩ := Component.exists_generatedType hnone config.compile c
  obtain ⟨earlier, later, hsplit, hcomponents⟩ := config.exists_split_component _ ht after
  have htypes : (config.generate (before ++ c :: after)).types = earlier ++ t :: later := hsplit
  have htypeName : t.typeName = config.namer.typeName c.name :=
    (Component.compile_of_generatedType ht).1
  obtain ⟨first, ls, hlines, hfills⟩ := Component.exists_lines hbanner hcustom ht
  obtain ⟨inside, hdeclaration, hinside⟩ := exists_inside hlines hfills.inner
  have hothers : ∀ b ∈ before, config.namer.typeName b.name ≠ config.namer.typeName c.name := by
    rw [List.map_append, List.map_cons] at hnodup
    exact fun b hb =>
      (List.nodup_append.1 hnodup).2.2 _ (List.mem_map_of_mem hb) _ List.mem_cons_self
  refine ⟨earlier, inside, later, ?_, ?_⟩
  · have horigin :=
      c.hasOutcome_generatedType (config.context (before ++ c :: after)) config.compile
    rw [ht, Component.HasOutcome] at horigin
    rw [htypes, ← htypeName, ← hdeclaration, ← horigin]
  have hheader := exists_hasHeader_iff hbanner hcustom hname htypes hcomponents
  have hcondition : (∀ b ∈ before, ¬ b.Documents (config.context (before ++ c :: after))
      (interfaceHeader (config.namer.typeName c.name))) ∧
        (∀ u ∈ earlier, ¬ u.DeclaresInterface (config.namer.typeName c.name)) ↔
      ∀ u ∈ earlier, ¬ u.HasHeader (config.namer.typeName c.name) := by
    have hnot := not_congr hheader
    simp only [not_or, not_exists, not_and] at hnot
    exact hnot.symm
  rw [hinside, hcondition]
  constructor
  · intro hown u hu hheader
    obtain ⟨next, inner, hread, hforeign⟩ :=
      exists_foreign hbanner hcustom hname htypes hcomponents hothers ⟨u, hu, hheader⟩
    exact hforeign.map_trimmed_ne rfl hfills (Option.some.inj (hread.symm.trans hown))
  · intro hsilent
    have hdeclares : ∀ u ∈ earlier ++ t :: later, Artifact.DeclaresOnly u.typeName u.declaration :=
      fun u hu => declaresOnly hbanner hcustom (htypes ▸ hu)
    have hreads := reads_of_interface hlines hfills.inner
    rw [htypeName] at hreads
    rw [Generation.declarations, htypes]
    exact Artifact.interfaceMembers?_emit hname hdeclares hsilent hreads

/-- Under a name without an interface nothing is read, unless a line has its header. -/
theorem interfaceMembers?_eq_none_iff (hbanner : config.compile.bannerComment = none)
    (hcustom : config.custom = none) (hname : isIdentifier name = true)
    (hundeclared : ∀ t ∈ (config.generate components).types, ¬ t.DeclaresInterface name) :
    Artifact.interfaceMembers? (Artifact.emit (config.generate components).declarations) name =
        none ↔
      ∀ c ∈ components, ¬ c.Documents (config.context components) (interfaceHeader name) := by
  have htypes : (config.generate components).types = (config.generate components).types ++ [] :=
    (List.append_nil _).symm
  have hcomponents := config.componentTypes_generate components
  have hothers : ∀ c ∈ components, config.namer.typeName c.name ≠ name := by
    rintro c hc rfl
    have hnone : (config.context components).custom = none := hcustom
    obtain ⟨t, ht⟩ := Component.exists_generatedType hnone config.compile c
    exact hundeclared t (List.mem_of_mem_filter (config.mem_componentTypes hc ht))
      ((declaresInterface_iff_of_component hbanner hcustom hname ht).2 rfl)
  constructor
  · intro hnothing c hc hdocuments
    have hheader :=
      (exists_hasHeader_iff hbanner hcustom hname htypes hcomponents).2 (.inl ⟨c, hc, hdocuments⟩)
    obtain ⟨first, inner, hread, -⟩ :=
      exists_foreign hbanner hcustom hname htypes hcomponents hothers hheader
    rw [hnothing] at hread
    cases hread
  · intro hdocuments
    refine Artifact.interfaceMembers?_emit_eq_none hname
      (fun u hu => (declaresOnly hbanner hcustom hu).ended) fun u hu hheader => ?_
    rcases (exists_hasHeader_iff hbanner hcustom hname htypes hcomponents).1 ⟨u, hu, hheader⟩ with
      ⟨c, hc, h⟩ | ⟨t, ht, h⟩
    · exact hdocuments c hc h
    · exact hundeclared t ht h

/-- **Interfaces are read back, unless their headers stand earlier.** Without a banner and without
types of the caller, let components have different type names. What is read under the type name of
a component are the lines between the header and the brace of its own declaration if and only if in
front of it no line of a description ends like the header and no other interface has the name.
Under a name of no interface nothing is read if and only if no line of a description ends like its
header. -/
theorem interfaces_read_back (config : GeneratorConfig) (components : List Component)
    (hbanner : config.compile.bannerComment = none) (hcustom : config.custom = none)
    (hnodup : (components.map fun c => config.namer.typeName c.name).Nodup) :
    (∀ before c after, components = before ++ c :: after →
      ∃ earlier inside later,
        (config.generate components).types = earlier ++
          ⟨config.namer.typeName c.name, .component c.name,
            interfaceHeader (config.namer.typeName c.name) ++ "\n" ++ inside ++ "\n\x7d\n"⟩
          :: later ∧
        (Artifact.interfaceMembers? (Artifact.emit (config.generate components).declarations)
            (config.namer.typeName c.name) = some ((lines inside).map trim) ↔
          (∀ b ∈ before, ¬ b.Documents (config.context components)
            (interfaceHeader (config.namer.typeName c.name))) ∧
          ∀ t ∈ earlier, ¬ t.DeclaresInterface (config.namer.typeName c.name))) ∧
    ∀ name, isIdentifier name = true →
      (∀ t ∈ (config.generate components).types, ¬ t.DeclaresInterface name) →
      (Artifact.interfaceMembers? (Artifact.emit (config.generate components).declarations) name =
          none ↔
        ∀ c ∈ components, ¬ c.Documents (config.context components) (interfaceHeader name)) := by
  refine ⟨?_, fun name hname hundeclared =>
    interfaceMembers?_eq_none_iff hbanner hcustom hname hundeclared⟩
  rintro before c after rfl
  exact interfaceMembers?_of_component hbanner hcustom hnodup

end GeneratorConfig

namespace Decoy

/-- A component with a description that ends like the header of another interface. -/
def hero : Component where
  name := "hero"
  fields := [("title",
    { kind := .text, description := some "export interface PageStoryblok \x7b" })]

/-- A component without fields. -/
def page : Component where
  name := "page"

/-- What is declared for the two. -/
theorem exists_types : ∃ first second,
    (GeneratorConfig.generate {} [hero, page]).types = [first, second] ∧
    hero.generatedType (GeneratorConfig.context {} [hero, page]) {} = .ok first ∧
    page.generatedType (GeneratorConfig.context {} [hero, page]) {} = .ok second := by
  have hcustom : (GeneratorConfig.context {} [hero, page]).custom = none := rfl
  obtain ⟨first, hfirst⟩ := Component.exists_generatedType hcustom {} hero
  obtain ⟨second, hsecond⟩ := Component.exists_generatedType hcustom {} page
  refine ⟨first, second, ?_, hfirst, hsecond⟩
  have hhero : GeneratorConfig.component {} (GeneratorConfig.context {} [hero, page]) hero =
      { types := [first] } := by
    unfold GeneratorConfig.component
    rw [hfirst]
  have hpage : GeneratorConfig.component {} (GeneratorConfig.context {} [hero, page]) page =
      { types := [second] } := by
    unfold GeneratorConfig.component
    rw [hsecond]
  simp only [GeneratorConfig.generate, GeneratorConfig.componentsFrom, Generation.append, hhero,
    hpage]
  rfl

/-- The first interface is read, and nothing under a name that stands nowhere. -/
theorem interfaces_read_back_hero :
    ([hero, page].map fun c => TypeNamer.typeName {} c.name).Nodup ∧
    (∃ inside later, (GeneratorConfig.generate {} [hero, page]).types =
        ⟨"HeroStoryblok", .component "hero",
          interfaceHeader "HeroStoryblok" ++ "\n" ++ inside ++ "\n\x7d\n"⟩ :: later ∧
      Artifact.interfaceMembers?
        (Artifact.emit (GeneratorConfig.generate {} [hero, page]).declarations) "HeroStoryblok" =
          some ((lines inside).map trim)) ∧
    isIdentifier "FakeStoryblok" = true ∧
    (∀ t ∈ (GeneratorConfig.generate {} [hero, page]).types,
      ¬ t.DeclaresInterface "FakeStoryblok") ∧
    Artifact.interfaceMembers?
      (Artifact.emit (GeneratorConfig.generate {} [hero, page]).declarations) "FakeStoryblok" =
        none := by
  have hnodup : ([hero, page].map fun c => TypeNamer.typeName {} c.name).Nodup := by decide
  have hfake : isIdentifier "FakeStoryblok" = true := by decide
  have hhero : TypeNamer.typeName {} hero.name = "HeroStoryblok" := by decide
  have hpage : TypeNamer.typeName {} page.name = "PageStoryblok" := by decide
  obtain ⟨first, second, htypes, hfirst, hsecond⟩ := exists_types
  have hundeclared : ∀ t ∈ (GeneratorConfig.generate {} [hero, page]).types,
      ¬ t.DeclaresInterface "FakeStoryblok" := by
    rw [htypes]
    simp only [List.forall_mem_cons]
    refine ⟨fun h => ?_, fun h => ?_, nofun⟩
    · have hname := (GeneratorConfig.declaresInterface_iff_of_component rfl rfl hfake hfirst).1 h
      exact absurd (hname.trans hhero) (by decide)
    · have hname := (GeneratorConfig.declaresInterface_iff_of_component rfl rfl hfake hsecond).1 h
      exact absurd (hname.trans hpage) (by decide)
  have hdocuments : ∀ c ∈ [hero, page], ¬ c.Documents (GeneratorConfig.context {} [hero, page])
      (interfaceHeader "FakeStoryblok") := by decide
  obtain ⟨hown, hnothing⟩ := GeneratorConfig.interfaces_read_back {} [hero, page] rfl rfl hnodup
  refine ⟨hnodup, ?_, hfake, hundeclared, (hnothing _ hfake hundeclared).2 hdocuments⟩
  obtain ⟨earlier, inside, later, hsplit, hread⟩ := hown [] hero [page] rfl
  rw [hhero] at hsplit hread
  obtain rfl : earlier = [] := by
    cases earlier with
    | nil => rfl
    | cons u earlier =>
      have hmem : "HeroStoryblok" ∈ [second].map (·.typeName) := by
        rw [(List.cons.inj (htypes.symm.trans hsplit)).2]
        simp
      rw [List.map_singleton, List.mem_singleton, (Component.compile_of_generatedType hsecond).1]
        at hmem
      exact absurd (hmem.trans hpage) (by decide)
  exact ⟨inside, later, hsplit, hread.2 ⟨nofun, nofun⟩⟩

/-- The line of the description is taken for the header of the page. -/
theorem hero_read_for_page :
    (GeneratorConfig.compile {}).bannerComment = none ∧ GeneratorConfig.custom {} = none ∧
    ([hero, page].map fun c => TypeNamer.typeName {} c.name).Nodup ∧
    ∃ earlier inside later, (GeneratorConfig.generate {} [hero, page]).types = earlier ++
        ⟨"PageStoryblok", .component "page",
          interfaceHeader "PageStoryblok" ++ "\n" ++ inside ++ "\n\x7d\n"⟩ :: later ∧
      Artifact.interfaceMembers?
        (Artifact.emit (GeneratorConfig.generate {} [hero, page]).declarations) "PageStoryblok" ≠
          some ((lines inside).map trim) := by
  have hnodup : ([hero, page].map fun c => TypeNamer.typeName {} c.name).Nodup := by decide
  have hdocuments : hero.Documents (GeneratorConfig.context {} [hero, page])
      (interfaceHeader "PageStoryblok") := by decide
  have hname : TypeNamer.typeName {} page.name = "PageStoryblok" := by decide
  obtain ⟨earlier, inside, later, htypes, hread⟩ :=
    @GeneratorConfig.interfaceMembers?_of_component {} rfl rfl [hero] [] page hnodup
  rw [hname] at htypes hread
  exact ⟨rfl, rfl, hnodup, earlier, inside, later, htypes, fun hown =>
    (hread.1 hown).1 hero List.mem_cons_self hdocuments⟩

end Decoy

end Blokwork
