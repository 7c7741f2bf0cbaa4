import Blokwork.Proofs.Artifact.Concatenation
import Blokwork.Proofs.Generate.TypeNames
import Blokwork.Proofs.TypeScript.PropertyLines

/-!
# Lines of generated declarations

A helper type is no interface, or an interface in which no line behind the first one ends with a
header and none names a component of its type name (`GeneratorConfig.lines_of_helper`). In the
interface of a component each property has one line below its comment. So the lines with headers
are those of descriptions, one line names the component, and none closes the interface before its
end (`Component.exists_lines`).
-/

namespace Blokwork

open Text TypeScript

/-! ## The line that names the component -/

/-- The line of an interface that names the component. -/
def componentLine (name : String) : String :=
  componentProperty ++ ": " ++ Json.quote name ++ ";"

/-- The line that names the component: the key and a literal. -/
theorem toList_componentLine (name : String) : (componentLine name).toList =
    componentProperty.toList ++ ':' :: ' ' :: ((Json.quote name).toList ++ [';']) := by
  have happend (key : String) : (key ++ ": " ++ Json.quote name ++ ";").toList =
      key.toList ++ ':' :: ' ' :: ((Json.quote name).toList ++ [';']) := by simp
  exact happend _

/-- The line that names the component starts like an identifier. -/
theorem isIdentifierStart_componentLine (name : String) :
    ∃ c ∈ (componentLine name).toList.head?, isIdentifierStart c = true := by
  rw [toList_componentLine]
  exact ⟨'c', rfl, by decide⟩

/-- A quoted string is told by its start. -/
theorem eq_of_quote_append {a b : String} {rest more : List Char}
    (h : (Json.quote a).toList ++ rest = (Json.quote b).toList ++ more) : a = b := by
  rw [Json.toList_quote, Json.toList_quote, List.cons_append, List.cons_append, List.append_assoc,
    List.append_assoc] at h
  have hread := congrArg (Json.readString .keep) (List.cons.inj h).2
  rw [List.singleton_append, List.singleton_append, Json.readString_quote,
    Json.readString_quote] at hread
  exact (Prod.mk.inj (Except.ok.inj hread)).1

/-- A property is another line, unless it has the key and the value. -/
theorem apart_componentLine {name text : String} {head : PropertyHead}
    (h : head.key = componentProperty → ∃ other, other ≠ name ∧ text = Json.quote other) :
    Apart (componentLine name).toList (TypeExpr.propertyStart head ++ ": " ++ text).toList := by
  rintro more ⟨behind, hbehind⟩
  obtain ⟨c, rest, hstart, hc, -⟩ := exists_propertyStart head
  have hblank : isBlankChar c = false := by
    rcases hc with hc | rfl
    · exact isBlankChar_of_isIdentifierStart hc
    · decide
  have htext : (TypeExpr.propertyStart head ++ ": " ++ text).toList ++ more =
      (TypeExpr.propertyStart head).toList ++ ':' :: ' ' :: (text.toList ++ more) := by simp
  rw [htext, hstart, List.cons_append, List.dropWhile_cons_of_neg (by simp [hblank]),
    ← List.cons_append, ← hstart, toList_componentLine] at hbehind
  have heq : componentProperty.toList
        ++ ':' :: (' ' :: ((Json.quote name).toList ++ (';' :: behind))) =
      (TypeExpr.propertyKey head.key).toList
        ++ ((if head.optional then "?" else "").toList ++ ':' :: ' ' ::
          (text.toList ++ more)) := by
    simpa [TypeExpr.propertyStart] using hbehind
  unfold TypeExpr.propertyKey at heq
  split at heq
  · next hkey =>
    cases hoptional : head.optional with
    | true =>
      rw [hoptional] at heq
      cases (identifier_ends (by decide) hkey (by decide) (by decide) heq).2
    | false =>
      rw [hoptional] at heq
      obtain ⟨hname, -⟩ := identifier_ends (by decide) hkey (by decide) (by decide) heq
      obtain ⟨other, hother, rfl⟩ := h hname.symm
      rw [hname] at heq
      have hvalues := (List.cons.inj (List.cons.inj (List.append_cancel_left heq)).2).2
      exact hother (eq_of_quote_append hvalues).symm
  · rw [Json.toList_quote head.key] at heq
    cases (List.cons.inj heq).1

/-! ## Schemas of helper types -/

namespace HelperType

/-- The types of the schema can stand in a declaration, in which no line names the component. -/
def QuietFor (options : CompileOptions) (name : String) (schema : Json) : Prop :=
  schema.EveryObject (QuietSchema options (componentLine name).toList)

/-- A property of that schema has no comment. -/
def Undescribed (schema : Json) : Prop := schema.members?.bind description? = none

/-- The property has no comment and does not name the component. -/
def OtherThan (name : String) (p : String × Json) : Prop :=
  Undescribed p.2 ∧
    (p.1 = componentProperty → ∃ other, other ≠ name ∧ p.2 = oneOfTexts [other])

section Quiet

variable {options : CompileOptions} {name : String} {properties : List (String × Json)}

/-- The type of one text is the text in quotes. -/
theorem print_of_text {node : Dict Json} {text : String} (hleading : leading? node = some "enum")
    (hvalue : Dict.get? node "enum" = some (Json.strings [text])) {t : TypeExpr}
    (h : Describes options none (.obj node) t) (width level : Nat) :
    t.print width level = Json.quote text := by
  have hvalues : Describes options none (.obj node) (.oneOf [.literal (.str text)]) :=
    @Describes.values options node [.str text] hleading hvalue
  have hunion : TypeExpr.oneOf [.literal (.str text)] = .union [.literal (.str text)] := rfl
  rw [h.unique hvalues, hunion, TypeExpr.print]
  exact String.intercalate_singleton

/-- A node that is not given by a text is quiet when its members are, and its properties have no
comments and do not name the component. -/
theorem quietFor_node {node : Dict Json} (hproperties : propertiesIn node = properties)
    (htext : Dict.get? node "tsType" = none) (hmembers : ∀ m ∈ node, QuietFor options name m.2)
    (h : ∀ p ∈ properties, OtherThan name p) : QuietFor options name (.obj node) := by
  subst hproperties
  refine (Json.EveryObject_obj _).2 ⟨⟨fun _ hvalue => ?_, fun p hp => (h p hp).1, ?_⟩, hmembers⟩
  · rw [htext] at hvalue
    cases hvalue
  · intro p hp t ht optional width level
    refine apart_componentLine fun hkey => ?_
    obtain ⟨other, hother, hschema⟩ := (h p hp).2 hkey
    rw [hschema] at ht
    exact ⟨other, hother, print_of_text rfl rfl ht width level⟩

theorem quietFor_strings (texts : List String) : QuietFor options name (Json.strings texts) :=
  FragmentContext.everyObject_strings _ _

theorem quietFor_typed (type : String) : QuietFor options name (typed type) :=
  quietFor_node rfl rfl (List.forall_mem_singleton.2 trivial) nofun

theorem quietFor_nullable (type : String) : QuietFor options name (nullable type) :=
  quietFor_node rfl rfl (List.forall_mem_singleton.2 (quietFor_strings _)) nofun

theorem quietFor_oneOfTexts (texts : List String) : QuietFor options name (oneOfTexts texts) :=
  quietFor_node rfl rfl (List.forall_mem_singleton.2 (quietFor_strings _)) nofun

/-- A text that is given as a type is quiet when it is on one line. -/
theorem quietFor_verbatim {text : String} (h : '\n' ∉ text.toList) :
    QuietFor options name (verbatim text) := by
  refine (Json.EveryObject_obj _).2 ⟨quietSchema_of_no_properties rfl fun other hother => ?_,
    List.forall_mem_singleton.2 trivial⟩
  cases hother
  exact h

/-- An array is as quiet as its item. -/
theorem quietFor_arrayOf {item : Json} (h : QuietFor options name item) :
    QuietFor options name (arrayOf item) :=
  quietFor_node rfl rfl (List.forall_mem_cons.2 ⟨trivial, List.forall_mem_singleton.2 h⟩) nofun

/-- The properties are no keywords of a schema. -/
def KeysOnly (properties : Dict Json) : Prop :=
  propertiesIn properties = [] ∧ Dict.get? properties "tsType" = none

/-- Properties are as quiet as each of them, when none of their keys is taken for a keyword. -/
theorem quietFor_properties (hkeys : KeysOnly properties)
    (h : ∀ p ∈ properties, QuietFor options name p.2) : QuietFor options name (.obj properties) :=
  quietFor_node hkeys.1 hkeys.2 h nofun

theorem quietFor_looseObject (hkeys : KeysOnly properties)
    (h : ∀ p ∈ properties, QuietFor options name p.2 ∧ OtherThan name p) :
    QuietFor options name (looseObject properties) :=
  quietFor_node rfl rfl (List.forall_mem_cons.2 ⟨trivial, List.forall_mem_singleton.2
    (quietFor_properties hkeys fun p hp => (h p hp).1)⟩) fun p hp => (h p hp).2

/-- An object is quiet when its properties are, have no comments and do not name the component. -/
theorem quietFor_object (required : List String) (hkeys : KeysOnly properties)
    (h : ∀ p ∈ properties, QuietFor options name p.2 ∧ OtherThan name p) :
    QuietFor options name (object required properties) :=
  quietFor_node rfl rfl (List.forall_mem_cons.2 ⟨trivial, List.forall_mem_cons.2
    ⟨quietFor_strings _, List.forall_mem_singleton.2
      (quietFor_properties hkeys fun p hp => (h p hp).1)⟩⟩) fun p hp => (h p hp).2

theorem undescribed_typed (type : String) : Undescribed (typed type) := rfl

theorem undescribed_nullable (type : String) : Undescribed (nullable type) := rfl

theorem undescribed_oneOfTexts (texts : List String) : Undescribed (oneOfTexts texts) := rfl

theorem undescribed_verbatim (text : String) : Undescribed (verbatim text) := rfl

theorem undescribed_arrayOf (item : Json) : Undescribed (arrayOf item) := rfl

theorem quietFor_asset : QuietFor options name asset := by
  refine quietFor_object _ ⟨rfl, rfl⟩ ?_
  simp [quietFor_typed, quietFor_nullable, quietFor_oneOfTexts, OtherThan, componentProperty,
    undescribed_typed, undescribed_nullable, undescribed_oneOfTexts]

theorem quietFor_multilink : QuietFor options name multilink := by
  have hstory : QuietFor options name (verbatim "StoryblokStory<any>") :=
    quietFor_verbatim (by decide)
  refine quietFor_node rfl rfl
    (List.forall_mem_singleton.2 ((Json.EveryObject_arr _).2 ?_)) nofun
  simp only [List.forall_mem_cons]
  refine ⟨quietFor_looseObject ⟨rfl, rfl⟩ ?_, quietFor_looseObject ⟨rfl, rfl⟩ ?_,
    quietFor_looseObject ⟨rfl, rfl⟩ ?_, quietFor_looseObject ⟨rfl, rfl⟩ ?_, nofun⟩ <;>
  simp [linkTarget, quietFor_typed, quietFor_oneOfTexts, hstory, OtherThan, componentProperty,
    undescribed_typed, undescribed_oneOfTexts, undescribed_verbatim]

/-- A cell names its own component, which is another one. -/
theorem quietFor_tableCell {component : String} (hne : component ≠ name) :
    QuietFor options name (tableCell component) := by
  refine quietFor_object _ ⟨rfl, rfl⟩ ?_
  simp [quietFor_typed, quietFor_oneOfTexts, OtherThan, componentProperty, undescribed_typed,
    undescribed_oneOfTexts]
  exact ⟨component, hne, rfl⟩

/-- A table names the components of its head, its rows and its columns. -/
theorem quietFor_table (hhead : "_table_head" ≠ name) (hrow : "_table_row" ≠ name)
    (hcol : "_table_col" ≠ name) : QuietFor options name table := by
  have hcells {component : String} (hne : component ≠ name) :
      QuietFor options name (arrayOf (tableCell component)) :=
    quietFor_arrayOf (quietFor_tableCell hne)
  have hrows : QuietFor options name (arrayOf (object ["_uid", "component", "body"]
      [("_uid", typed "string"), ("component", oneOfTexts ["_table_row"]),
        ("body", arrayOf (tableCell "_table_col"))])) := by
    refine quietFor_arrayOf (quietFor_object _ ⟨rfl, rfl⟩ ?_)
    simp [quietFor_typed, quietFor_oneOfTexts, hcells hcol, OtherThan, componentProperty,
      undescribed_typed, undescribed_oneOfTexts, undescribed_arrayOf]
    exact ⟨"_table_row", hrow, rfl⟩
  refine quietFor_object _ ⟨rfl, rfl⟩ ?_
  simp [quietFor_oneOfTexts, hcells hhead, hrows, OtherThan, componentProperty,
    undescribed_oneOfTexts, undescribed_arrayOf]

/-- A rich text gives its own type name as a text. -/
theorem quietFor_richtext {self : String} (hself : '\n' ∉ self.toList) :
    QuietFor options name (richtext self) := by
  have hparts : QuietFor options name (arrayOf (verbatim self)) :=
    quietFor_arrayOf (quietFor_verbatim hself)
  have hany : QuietFor options name (verbatim "any") := quietFor_verbatim (by decide)
  refine quietFor_object _ ⟨rfl, rfl⟩ ?_
  simp [quietFor_typed, hparts, hany, OtherThan, componentProperty, undescribed_typed,
    undescribed_verbatim, undescribed_arrayOf]

end Quiet

/-- No line of a helper type names a component of the same type name. -/
theorem quietFor_schema? {options : CompileOptions} {namer : TypeNamer} {kind : FieldKind}
    {schema : Json} (h : schema? namer kind = some schema) {name : String}
    (hname : namer.typeName name = namer.typeName kind.name) : QuietFor options name schema := by
  cases kind with
  | asset => cases h; exact quietFor_asset
  | multiasset =>
    cases h
    exact quietFor_arrayOf (quietFor_verbatim (namer.lineFeed_not_mem_typeName _))
  | multilink => cases h; exact quietFor_multilink
  | table =>
    cases h
    rw [TypeNamer.typeName_eq_iff] at hname
    exact quietFor_table (by rintro rfl; revert hname; decide)
      (by rintro rfl; revert hname; decide)
      (by rintro rfl; revert hname; decide)
  | richtext => cases h; exact quietFor_richtext (namer.lineFeed_not_mem_typeName _)
  | _ => cases h

/-- The schema of a helper type that is declared as an interface has properties. -/
theorem exists_object_of_schema? {options : CompileOptions} {namer : TypeNamer} {kind : FieldKind}
    {node : Dict Json} (h : schema? namer kind = some (.obj node))
    (hobject : isObjectNode node = true) {t : TypeExpr}
    (ht : Describes options none (.obj node) t) : ∃ ps index, t = .object ps index ∧ ps ≠ [] := by
  obtain ⟨hleading, htype, hne⟩ : leading? node = some "type" ∧
      Dict.get? node "type" = some (.str "object") ∧ propertiesIn node ≠ [] := by
    cases kind with
    | asset | table | richtext =>
      cases h
      exact ⟨rfl, rfl, List.cons_ne_nil _ _⟩
    | multiasset | multilink =>
      cases h
      cases hobject
    | _ => cases h
  obtain ⟨members, further, hproperties, -, -, -, rfl⟩ :=
    (ht.of_leading_type hleading htype).exists_object
  refine ⟨_, _, rfl, fun hnil => hne ?_⟩
  rw [hproperties, List.map_eq_nil_iff.1 hnil]
  rfl

end HelperType

/-! ## Declarations of helper types -/

/-- The text is an interface of that name with these lines between its header and its brace. -/
def InterfaceLines (name text : String) (first : List Char) (ls : List (List Char)) : Prop :=
  rawLines text.toList =
    ((interfaceHeader name).toList ++ ['\n']) :: first :: (ls ++ [['\x7d', '\n']])

/-- The declaration declares an interface of that name. -/
def GeneratedType.DeclaresInterface (t : GeneratedType) (name : String) : Prop :=
  ("export interface " ++ name ++ " ").toList <+: t.declaration.toList

namespace GeneratedType

variable {t : GeneratedType} {name other : String}

/-- An interface of a name is declared by a text that opens so. -/
theorem declaresInterface_iff_opening : t.DeclaresInterface name ↔
    DeclarationForm.interfaceForm.opening ++ name.toList ++ [' '] <+: t.declaration.toList := by
  have htext (words : String) : (words ++ name ++ " ").toList =
      words.toList ++ name.toList ++ [' '] := by
    rw [String.toList_append, String.toList_append]
    rfl
  rw [DeclaresInterface, htext]
  rfl

/-- An interface is declared under its own name only. -/
theorem declaresInterface_iff {first : List Char} {ls : List (List Char)}
    (h : InterfaceLines name t.declaration first ls) (hname : isIdentifier name = true)
    (hother : isIdentifier other = true) : t.DeclaresInterface other ↔ other = name := by
  have htext : t.declaration.toList = DeclarationForm.interfaceForm.opening ++ name.toList
      ++ ' ' :: ('\x7b' :: '\n' :: (first :: (ls ++ [['\x7d', '\n']])).flatten) := by
    have hheader (words : String) (rest : List Char) :
        (words ++ name ++ " \x7b").toList ++ ['\n'] ++ rest =
          words.toList ++ name.toList ++ ' ' :: ('\x7b' :: '\n' :: rest) := by simp
    rw [← flatten_rawLines t.declaration.toList, h, List.flatten_cons]
    exact hheader _ _
  rw [declaresInterface_iff_opening, htext, opening_prefix_iff hother hname]
  exact and_iff_right rfl

end GeneratedType

namespace GeneratorConfig

variable {config : GeneratorConfig} {components : List Component}

/-- The declaration of a helper type is no interface and has no line with a header, or it is an
interface without another header, which does not name a component of its type name. -/
theorem lines_of_helper (hbanner : config.compile.bannerComment = none) {t : GeneratedType}
    (ht : t ∈ (config.generate components).types) {kind : FieldKind}
    (horigin : t.origin = .helper kind) :
    (∀ name, isIdentifier name = true → ¬ t.DeclaresInterface name ∧
        ∀ line ∈ rawLines t.declaration.toList, ¬ Heads name line) ∨
      ∃ first ls, InterfaceLines t.typeName t.declaration first ls ∧
        ∀ line ∈ first :: ls, (∀ name, isIdentifier name = true → ¬ Heads name line) ∧
          ∀ name, config.namer.typeName name = t.typeName →
            ¬ (componentLine name).toList <+: line.dropWhile isBlankChar := by
  have hlines : Component.bannerLines config.compile = "" := by
    rw [Component.bannerLines, hbanner]
    rfl
  obtain ⟨-, htypeName, schema, hschema, hcompile⟩ := exists_of_origin_helper ht horigin
  obtain ⟨node, rfl, hdescription⟩ := HelperType.exists_node_of_schema? hschema
  obtain ⟨d, hline, hname, hdname, hform, hdescribes⟩ :=
    Component.exists_line_of_compile hdescription hcompile
  rw [hlines, String.empty_append] at hline
  have hquiet {name : String} (hsame : config.namer.typeName name = t.typeName) :
      d.body.Everywhere (TypeExpr.QuietNode (componentLine name).toList) :=
    hdescribes.everywhere_quietNode
      (HelperType.quietFor_schema? hschema (hsame.trans htypeName))
  rw [← hdname] at hname
  by_cases hobject : isObjectNode node = true
  · rw [if_pos hobject] at hform
    obtain ⟨ps, index, hbody, hps⟩ :=
      HelperType.exists_object_of_schema? hschema hobject hdescribes
    have hinterface {name : String} (hsame : config.namer.typeName name = t.typeName) :=
      @Declaration.lines_of_interface d _ config.compile.indent
        (isIdentifierStart_componentLine name) hform ps index hbody hps (hquiet hsame) hname
    rw [← hline, hdname] at hinterface
    obtain ⟨first, ls, hrows, hinside⟩ := hinterface htypeName.symm
    refine .inr ⟨first, ls, hrows, fun line hmem => ⟨(hinside line hmem).1, fun name hsame => ?_⟩⟩
    -- the word is another one for each name, but the lines are the same
    obtain ⟨first', ls', hrows', hinside'⟩ := hinterface hsame
    obtain ⟨rfl, hrest⟩ := List.cons.inj (List.cons.inj (hrows.symm.trans hrows')).2
    obtain rfl := List.append_cancel_right hrest
    exact (hinside' line hmem).2
  · rw [if_neg hobject] at hform
    refine .inl fun name hother => ⟨fun hdeclares => ?_, fun line hmem => ?_⟩
    · obtain ⟨tail, htext, -⟩ := @Declaration.exists_line_eq d config.compile.indent
        (hdescribes.everywhere suits_textLaidOut (laidOut_of_schema? hschema))
      have hshape : d.form.opening ++ d.name.toList ++ ' ' :: tail.toList ++ ['\n'] =
          d.form.opening ++ d.name.toList ++ ' ' :: (tail.toList ++ ['\n']) := by simp
      rw [GeneratedType.declaresInterface_iff_opening, hline, htext, hshape,
        opening_prefix_iff hother hname, hform] at hdeclares
      cases hdeclares.1
    · rw [hline] at hmem
      exact Declaration.not_heads_of_alias (isIdentifierStart_componentLine kind.name) hform hname
        (hquiet htypeName.symm) hmem hother

end GeneratorConfig

/-! ## Properties of components -/

namespace FragmentContext

variable {ctx : FragmentContext} {options : CompileOptions} {name : String} {field : Field}

/-- The type of a choice, with a description or without. -/
theorem oneLine_choiceSchema (options : CompileOptions) (field : Field)
    (description : Option String) : ∃ node, choiceSchema field = .obj node ∧
      ∀ t, Describes options none (.obj (node ++ textMember "description" description)) t →
        t.OneLine := by
  unfold choiceSchema
  split
  · refine ⟨_, rfl, fun t ht => ?_⟩
    cases description <;>
      exact ht.unique (.named rfl rfl (.plain rfl)) ▸ TypeExpr.oneLine_keyword (by decide)
  · refine ⟨_, rfl, fun t ht => ?_⟩
    cases description <;>
      exact ht.unique (.values rfl rfl) ▸ TypeExpr.oneLine_values _

/-- The type of a fragment without a type as text. -/
theorem oneLine_baseMembers {members : Dict Json} (h : baseMembers? field = some members)
    {description : Option String} {t : TypeExpr}
    (ht : Describes options none (.obj (members ++ textMember "description" description)) t)
    (htype : (ctx.typeText name field).value = none) : t.OneLine := by
  obtain ⟨node, hnode, hchoice⟩ := oneLine_choiceSchema options field description
  obtain ⟨item, hitem, hplain⟩ := oneLine_choiceSchema options field none
  rw [textMember, List.append_nil] at hplain
  unfold baseMembers? at h
  unfold typeText at htype
  cases hkind : field.kind with
  | text | textarea | markdown | datetime | number | boolean =>
    rw [hkind] at h
    cases h
    cases description <;>
      exact ht.unique (.named rfl rfl (.plain rfl)) ▸ TypeExpr.oneLine_keyword (by decide)
  | singleOption =>
    rw [hkind, hnode] at h
    cases h
    exact hchoice t ht
  | multiOption =>
    rw [hkind, hitem] at h
    cases h
    have harray := ht.of_leading_type (by cases description <;> rfl) (by cases description <;> rfl)
    obtain ⟨hnone, -⟩ | ⟨items, hitems, -⟩ | ⟨schema, u, hschema, hu, rfl⟩ := harray.array_cases
    · cases description <;> cases hnone
    · cases description <;> cases hitems
    · have heq : schema = .obj item := by cases description <;> cases hschema <;> rfl
      exact (hplain u (heq ▸ hu)).array
  | bloks =>
    rw [hkind] at h
    cases h
    have harray := ht.of_leading_type (by cases description <;> rfl) (by cases description <;> rfl)
    obtain ⟨-, rfl⟩ | ⟨items, hitems, -⟩ | ⟨schema, u, hschema, -⟩ := harray.array_cases
    · exact (TypeExpr.oneLine_untyped options).array
    · cases description <;> cases hitems
    · cases description <;> cases hschema
  | asset | multiasset | multilink | table | richtext =>
    rw [hkind] at htype
    cases htype
  | _ =>
    rw [hkind] at h
    cases h

/-- The type of a field with a kind of its own is printed in one line. -/
theorem oneLine_of_plainFragments {fragments : Dict Json}
    (h : (ctx.plainFragments name field).value = some fragments) {f : String × Json}
    (hf : f ∈ fragments) {t : TypeExpr} (ht : Describes options none f.2 t) : t.OneLine := by
  unfold plainFragments at h
  split at h
  · cases h
  next members hmembers =>
  cases h
  obtain rfl := List.mem_singleton.1 hf
  cases htype : (ctx.typeText name field).value with
  | none =>
    rw [htype, textMember, List.append_nil] at ht
    exact oneLine_baseMembers hmembers ht htype
  | some text =>
    have htext : Dict.get? (members ++ textMember "tsType" (ctx.typeText name field).value
        ++ textMember "description" field.description) "tsType" = some (.str text) := by
      rw [Dict.get?_append, Dict.get?_append, (baseMembers?_givesText hmembers).1, htype]
      rfl
    have hleading := (absent_nil _).leading? (Dict.has_of_get? htext) rfl
    rw [ht.unique (.text hleading htext)]
    exact fun _ _ => ctx.lineFeed_not_mem_typeText htype

end FragmentContext

namespace Component

variable {ctx : FragmentContext} {c : Component} {options : CompileOptions}

/-- Without types of the caller, the types of properties are printed in one line. -/
theorem oneLine_of_mem_properties (hcustom : ctx.custom = none) {p : String × Json}
    (hp : p ∈ c.properties ctx) {t : TypeExpr} (ht : Describes options none p.2 t) :
    t.OneLine := by
  obtain hinjected | ⟨e, -, -, fragments, hfragments, hmem⟩ | ⟨types, htypes, -⟩ :=
    properties_cases hp
  · rcases List.mem_cons.1 hinjected with rfl | hinjected
    · exact ht.unique (.named rfl rfl (.plain rfl)) ▸ TypeExpr.oneLine_keyword (by decide)
    · obtain rfl := List.mem_singleton.1 hinjected
      exact ht.unique (.values rfl rfl) ▸ TypeExpr.oneLine_values _
  · exact FragmentContext.oneLine_of_plainFragments hfragments hmem ht
  · rw [hcustom] at htypes
    cases htypes

/-! ## Lines of components -/

/-- A line of the description of a property ends like that. -/
def Documents (ctx : FragmentContext) (c : Component) (ending : String) : Prop :=
  ∃ p ∈ c.properties ctx, ∃ text ∈ p.2.members?.bind description?, ∃ line ∈ lines text,
    ending.toList <:+ line.toList

instance (ctx : FragmentContext) (c : Component) (ending : String) :
    Decidable (c.Documents ctx ending) :=
  inferInstanceAs (Decidable (∃ p ∈ c.properties ctx, ∃ text ∈ p.2.members?.bind description?,
    ∃ line ∈ lines text, _))

/-- These lines can stand inside the interface of the component: they do not close it, one of them
names the component, and those with headers are lines of comments that go on behind them. -/
structure Fills (ctx : FragmentContext) (c : Component) (first : List Char)
    (ls : List (List Char)) : Prop where
  inner : ∀ l ∈ first :: ls, IsInner l
  unstarred : ¬ IsStarred first
  starred : ∀ name, StarsBehind name (first :: ls)
  heads : ∀ name, isIdentifier name = true →
    ((∃ l ∈ first :: ls, Heads name l) ↔ c.Documents ctx (interfaceHeader name))
  named : ∃ l ∈ first :: ls, trimmed l = componentLine c.name

/-- The line that names the component, without its indent. -/
theorem trimmed_componentLine {pad : String} (hpad : ∀ c ∈ pad.toList, c = ' ') (name : String) :
    trimmed (pad ++ componentProperty ++ ": " ++ Json.quote name ++ ";\n").toList =
      componentLine name := by
  have hblank : ∀ c ∈ pad.toList, isBlankChar c = true := fun c hc => by rw [hpad c hc]; rfl
  have hletters : componentProperty.toList = 'c' :: "omponent".toList := by decide
  have htext (key : String) : (pad ++ key ++ ": " ++ Json.quote name ++ ";\n").toList =
      pad.toList ++ (key.toList ++ ':' :: ' ' :: ((Json.quote name).toList ++ [';']))
        ++ ['\n'] := by
    simp
  have hline : (componentLine name).toList =
      'c' :: ("omponent".toList ++ ':' :: ' ' :: (Json.quote name).toList ++ [';']) := by
    rw [toList_componentLine, hletters]
    simp
  rw [htext, ← toList_componentLine, hline, trimmed_indented hblank (by decide) (by decide),
    ← hline, String.ofList_toList]

/-- The lines of the interface of a component. -/
theorem exists_lines (hbanner : options.bannerComment = none) (hcustom : ctx.custom = none)
    {t : GeneratedType} (h : c.generatedType ctx options = .ok t) :
    ∃ first ls, InterfaceLines t.typeName t.declaration first ls ∧ c.Fills ctx first ls := by
  have hlines : bannerLines options = "" := by
    rw [bannerLines, hbanner]
    rfl
  obtain ⟨d, members, further, hline, hdname, hname, hform, hproperties, hmembers, hfurther,
      hbody⟩ :=
    exists_interfaceForm h
  rw [hlines, String.empty_append] at hline
  obtain ⟨u, hu⟩ := filter_members (distinct_properties ctx c) hproperties
    (get?_properties_component ctx c)
  have hcomponent : (componentProperty, componentSchema c.name, u) ∈ members :=
    List.mem_of_mem_filter (hu ▸ List.mem_singleton_self _)
  have hmem {m : String × Json × TypeExpr} (hm : m ∈ members) :
      (m.1, m.2.1) ∈ c.properties ctx := hproperties ▸ List.mem_map_of_mem hm
  obtain ⟨ps, hps⟩ : ∃ ps, ps = members.map fun m => ((⟨m.1, m.2.1.members?.bind description?,
    !c.requiredNames.contains m.1⟩, m.2.2) : PropertyHead × TypeExpr) := ⟨_, rfl⟩
  rw [← hps] at hbody
  have hne : ps ≠ [] := by
    rw [hps]
    exact List.ne_nil_of_mem (List.mem_map_of_mem hcomponent)
  have htypes : ∀ p ∈ ps, p.2.OneLine := by
    rw [hps]
    exact List.forall_mem_map.2 fun m hm =>
      oneLine_of_mem_properties hcustom (hmem hm) (hmembers m hm)
  have hindex : ∀ t ∈ further.map Prod.snd, t.OneLine := by
    intro t ht
    obtain ⟨p, hp, rfl⟩ := Option.map_eq_some_iff.1 ht
    obtain ⟨hanything, hp⟩ := hfurther p hp
    rw [hanything] at hp
    exact hp.unique describes_anything ▸ TypeExpr.oneLine_keyword (by decide)
  have hrows := @Declaration.rawLines_of_oneLine options.indent ps _ d hform hbody hname hne htypes
    hindex
  obtain ⟨first, ls, hcons, hfirst⟩ :=
    @exists_objectRows_eq_cons options.indent 1 ps (further.map Prod.snd) hne
  refine ⟨first, ls, ?_, ?_⟩
  · rw [InterfaceLines, hline, hrows, hdname, hcons]
    rfl
  have hspaces : ∀ c ∈ (TypeExpr.pad options.indent 1).toList, c = ' ' :=
    fun _ => eq_space_of_mem_pad
  refine ⟨?_, hfirst, ?_, fun name hname => ?_, ?_⟩
  · rw [← hcons]
    exact fun l => isInner_of_mem_objectRows htypes hindex
  · rw [← hcons]
    exact starsBehind_objectRows
  · simp only [← hcons, exists_heads_objectRows_iff hname, hps, Documents, hproperties,
      List.mem_map, exists_exists_and_eq_and]
  · have hinjected : componentProperty ∈ injectedKeys := by decide
    refine ⟨(TypeExpr.pad options.indent 1 ++ componentProperty ++ ": " ++ Json.quote c.name
      ++ ";\n").toList, ?_, trimmed_componentLine hspaces c.name⟩
    have hquote : u.print options.indent 1 = Json.quote c.name :=
      HelperType.print_of_text rfl rfl (hmembers _ hcomponent) _ _
    rw [← hcons]
    refine List.mem_append_left _ (List.mem_flatMap.2 ⟨_, hps ▸ List.mem_map_of_mem hcomponent,
      List.mem_append_right _ (List.mem_singleton.2 ?_)⟩)
    have hstart (description : Option String) :
        TypeExpr.propertyStart ⟨componentProperty, description, !true⟩ = componentProperty := by
      have hkey : TypeExpr.propertyKey componentProperty = componentProperty := by decide
      rw [TypeExpr.propertyStart, hkey]
      exact String.append_empty
    dsimp only
    rw [hquote, contains_requiredNames hinjected, hstart]

end Component

end Blokwork
