import Blokwork.Generate.FieldFragment
import Blokwork.Proofs.TypeScript.Members
import Blokwork.Proofs.TypeScript.Names

/-!
# Property fragments of fields

Type names are identifiers, whatever they are made from (`isIdentifier_typeName`). The types that
fields are given as texts are type names, arrays of some, or a type name with variants taken out,
so they are self-contained and refer to these types only (`spellsTypeOf_typeText`). A fragment
gives no other text (`plainFragments_givesText`).
-/

namespace Blokwork

open TypeScript

/-! ## Type names are identifiers -/

theorem isAlphanum_toUpper {c : Char} (h : c.isAlphanum = true) : c.toUpper.isAlphanum = true := by
  have hlower : ∀ n < 26, (Char.ofNat (97 + n)).toUpper.isAlphanum = true := by decide
  by_cases hc : 97 ≤ c.toNat ∧ c.toNat ≤ 122
  · have hupper := hlower (c.toNat - 97) (by omega)
    rwa [Nat.add_sub_cancel' hc.1, Char.ofNat_toNat] at hupper
  · have hsame : c.toUpper = c := dif_neg hc
    rwa [hsame]

/-- The letters of a name in Pascal case. -/
theorem isAlphanum_of_mem_pascalCase {atStart : Bool} {cs : List Char} {c : Char}
    (h : c ∈ pascalCase atStart cs) : c.isAlphanum = true := by
  induction cs generalizing atStart with
  | nil => cases h
  | cons d cs ih =>
    unfold pascalCase at h
    split at h
    · next hd =>
      rcases List.mem_cons.1 h with rfl | h
      · split
        · exact isAlphanum_toUpper hd
        · exact hd
      · exact ih h
    · exact ih h

namespace TypeNamer

theorem guarded_isIdentifier {cs : List Char} (h : ∀ c ∈ cs, c.isAlphanum = true) :
    isIdentifier (String.ofList (guarded cs)) = true := by
  have hpart {c : Char} (hc : c.isAlphanum = true) : isIdentifierPart c = true := by
    simp [isIdentifierPart, hc]
  cases cs with
  | nil => decide
  | cons c cs =>
    obtain ⟨hc, hcs⟩ := List.forall_mem_cons.1 h
    have hparts : cs.all isIdentifierPart = true := List.all_eq_true.2 fun d hd => hpart (hcs d hd)
    rw [guarded]
    split
    · simp [isIdentifier, isIdentifierStart, hpart hc, hparts]
    · next hdigit =>
      have halpha : c.isAlpha = true := by simpa [Char.isAlphanum, hdigit] using hc
      simp [isIdentifier, isIdentifierStart, halpha, hparts]

/-- Every type name is an identifier. -/
theorem isIdentifier_typeName (namer : TypeNamer) (name : String) :
    isIdentifier (namer.typeName name) = true := by
  refine guarded_isIdentifier fun c hc => ?_
  simp only [List.mem_append] at hc
  rcases hc with (hc | hc) | hc <;> exact isAlphanum_of_mem_pascalCase hc

end TypeNamer

/-! ## Types given as texts -/

namespace FragmentContext

variable (ctx : FragmentContext)

/-- The names of some types as alternatives. -/
theorem spells_typeNames (names : List String) :
    Spells (String.intercalate TypeExpr.orSeparator (names.map ctx.namer.typeName))
      (joined '|' (names.map fun name => [.word (ctx.namer.typeName name)])) := by
  have hnames : List.Forall₂ Spells (names.map ctx.namer.typeName)
      (names.map fun name => [.word (ctx.namer.typeName name)]) := by
    rw [List.forall₂_map_left_iff, List.forall₂_map_right_iff]
    exact List.forall₂_same.2 fun name _ => lex_identifier (ctx.namer.isIdentifier_typeName name)
  exact spells_intercalate (by decide) (by decide) hnames

/-- The text of a type that refers to the types with these names, and to no others. -/
def SpellsTypeOf (names : List String) (text : String) : Prop :=
  ∃ ts, Spells text ts ∧ Contained ts ∧
    ∀ K : String → Prop, (∀ name ∈ names, K (ctx.namer.typeName name)) → RefersTo K ts

theorem spellsTypeOf_typeName (name : String) :
    ctx.SpellsTypeOf [name] (ctx.namer.typeName name) :=
  ⟨_, lex_identifier (ctx.namer.isIdentifier_typeName name), contained_token rfl rfl,
    fun _ h => .word (h name List.mem_cons_self)⟩

theorem spellsTypeOf_arrayOf (names : List String) :
    ctx.SpellsTypeOf names (ctx.arrayOf names) := by
  match names with
  | [] =>
    have hnever : Spells "never[]" [.word "never", .mark '[', .mark ']'] := by decide
    have hparts : parts? [] [] [.word "never", .mark '[', .mark ']'] =
        some [[.word "never", .mark '[', .mark ']']] := by decide
    have hnames : typeNames [.word "never", .mark '[', .mark ']'] = [] := by decide
    exact ⟨_, hnever, contained_of_parts? hparts, fun K _ name h => by rw [hnames] at h; cases h⟩
  | [only] =>
    have hname := lex_identifier (ctx.namer.isIdentifier_typeName only)
    have hbrackets : Spells "[]" [.mark '[', .mark ']'] := by decide
    have hnothing : Enclosed [] := passedOver_nil
    have hword : Contained [.word (ctx.namer.typeName only)] := contained_token rfl rfl
    exact ⟨_, spells_append hname hbrackets (by decide),
      hword.append (contained_bracketed rfl rfl rfl rfl hnothing),
      fun K h => (RefersTo.word (h only List.mem_cons_self)).append nofun⟩
  | first :: second :: more =>
    let item := String.intercalate TypeExpr.orSeparator
      ((first :: second :: more).map ctx.namer.typeName)
    have htext : ctx.arrayOf (first :: second :: more) = TypeExpr.printArray item := by
      have hseparator : Text.contains item TypeExpr.orSeparator = true :=
        contains_intercalate _ _ _ _
      rw [TypeExpr.printArray, hseparator]
      rfl
    have hitem : Contained (joined '|'
        ((first :: second :: more).map fun name => [.word (ctx.namer.typeName name)])) :=
      PassedOver.joined (contained_token rfl rfl)
        (List.forall_mem_map.2 fun name _ => contained_token rfl rfl)
    rw [htext]
    exact ⟨_, spells_printArray (ctx.spells_typeNames _), contained_arrayTokens item hitem,
      fun K h => (RefersTo.joined '|' (List.forall_mem_map.2 fun name hname =>
        .word (h name hname))).arrayTokens item⟩

/-- The variants of links that may be taken out refer to no types. -/
theorem closed_excludedVariants (field : Field) :
    ∃ ts, Closed (String.intercalate " | " (excludedVariants field)).toList ts ∧ Contained ts ∧
      typeNames ts = [] := by
  have hvariants : ∀ email asset : Bool,
      let variants := (if email then [] else ["\x7b linktype?: \"email\" \x7d"])
        ++ (if asset then [] else ["\x7b linktype?: \"asset\" \x7d"])
      let read := scan .between (String.intercalate " | " variants).toList
      read.2 = .between ∧ parts? [] [] read.1 = some [read.1] ∧ typeNames read.1 = [] := by decide
  obtain ⟨hclosed, hparts, hnames⟩ := hvariants field.emailLinkType field.assetLinkType
  exact ⟨_, Prod.ext rfl hclosed, contained_of_parts? hparts, hnames⟩

theorem spellsTypeOf_linkType (field : Field) :
    ctx.SpellsTypeOf [FieldKind.multilink.name] (ctx.linkType field) := by
  have hname := ctx.namer.isIdentifier_typeName FieldKind.multilink.name
  obtain ⟨ts, hvariants, hcontained, hnames⟩ := closed_excludedVariants field
  unfold linkType
  split
  · exact ctx.spellsTypeOf_typeName _
  · have hlead : Closed "Exclude<".toList [.word "Exclude", .mark '<'] := by decide
    have hcomma : Closed ", ".toList [.mark ','] := by decide
    have hend : Closed ">".toList [.mark '>'] := by decide
    have hrest : Spells (", " ++ String.intercalate " | " (excludedVariants field) ++ ">")
        (.mark ',' :: (ts ++ [.mark '>'])) := by
      simpa [Spells] using (hcomma.append (hvariants.append hend)).lex
    have hspells := spells_named hname hlead hrest (by simp [StartsApart]; decide)
    have hinside :
        Enclosed (.word (ctx.namer.typeName FieldKind.multilink.name) :: .mark ',' :: ts) :=
      PassedOver.append (enclosed_token (t := .word _) rfl)
        (PassedOver.append (enclosed_token (t := .mark ',') rfl) hcontained.enclosed)
    have hbracketed : Contained (.mark '<' :: (_ ++ [.mark '>'])) :=
      contained_bracketed rfl rfl rfl rfl hinside
    have hexclude : Contained [.word "Exclude"] := contained_token rfl rfl
    refine ⟨_, by simpa [String.append_assoc] using hspells,
      by simpa using hexclude.append hbracketed, fun K h => ?_⟩
    have hnone : typeNames [.word "Exclude", .mark '<'] = [] := by decide
    have hexclusion : RefersTo K [.word "Exclude", .mark '<'] := fun _ hmem => by
      rw [hnone] at hmem
      cases hmem
    have hvariantNames : RefersTo K ts := fun _ hmem => by
      rw [hnames] at hmem
      cases hmem
    exact hexclusion.append ((RefersTo.word (h _ List.mem_cons_self)).append
      ((RefersTo.mark ',').append (hvariantNames.append (.mark '>'))))

example : (lex (linkType ⟨{}, {}, none⟩ { kind := .multilink }).toList).map typeNames =
    some ["MultilinkStoryblok"] := by decide

/-- The names whose types the type of a field refers to: of components, or of its own kind. -/
def referredNames (name : String) (field : Field) : List String :=
  match field.kind with
  | .bloks => (ctx.allowedComponents name field).value.getD []
  | kind => if kind.isShared then [kind.name] else []

/-- The type that a field is given as a text. -/
theorem spellsTypeOf_typeText {name : String} {field : Field} {text : String}
    (h : (ctx.typeText name field).value = some text) :
    ctx.SpellsTypeOf (ctx.referredNames name field) text := by
  unfold typeText at h
  unfold referredNames
  split at h
  · next hkind =>
    cases h
    rw [hkind]
    exact ctx.spellsTypeOf_linkType field
  · next hkind =>
    obtain ⟨names, hnames, rfl⟩ := Option.map_eq_some_iff.1 h
    rw [hkind, hnames]
    exact ctx.spellsTypeOf_arrayOf names
  · next hbloks =>
    dsimp only at h
    split at h
    · next hshared =>
      cases h
      split
      · next hkind => exact absurd hkind hbloks
      · rw [if_pos hshared]
        exact ctx.spellsTypeOf_typeName _
    · cases h

theorem isSelfContained_typeText {name : String} {field : Field} {text : String}
    (h : (ctx.typeText name field).value = some text) : isSelfContained text = true := by
  obtain ⟨ts, hts, hcontained, -⟩ := ctx.spellsTypeOf_typeText h
  exact isSelfContained_iff.2 ⟨ts, hts, hcontained⟩

/-! ## Texts in fragments -/

theorem everyObject_strings (P : Dict Json → Prop) (texts : List String) :
    (Json.strings texts).EveryObject P :=
  (Json.EveryObject_arr _).2 (List.forall_mem_map.2 fun _ _ => trivial)

/-- The schema of a choice gives no type as text. -/
theorem choiceSchema_givesText (field : Field) :
    ∃ node, choiceSchema field = .obj node ∧ Dict.get? node "tsType" = none ∧
      ∀ T, ∀ m ∈ node, m.2.EveryObject (GivesText T) := by
  unfold choiceSchema
  split
  · exact ⟨_, rfl, rfl, fun T => List.forall_mem_singleton.2 trivial⟩
  · refine ⟨_, rfl, rfl, fun T => List.forall_mem_cons.2 ⟨trivial, List.forall_mem_singleton.2 ?_⟩⟩
    exact everyObject_strings _ _

/-- A fragment gives no type as text before one is put into it. -/
theorem baseMembers?_givesText {field : Field} {members : Dict Json}
    (h : baseMembers? field = some members) :
    Dict.get? members "tsType" = none ∧ ∀ T, ∀ m ∈ members, m.2.EveryObject (GivesText T) := by
  obtain ⟨node, hnode, hnone, hmembers⟩ := choiceSchema_givesText field
  have hchoice (T : String → Prop) : (choiceSchema field).EveryObject (GivesText T) := by
    rw [hnode, Json.EveryObject_obj]
    exact ⟨fun text htext => by simp [hnone] at htext, hmembers T⟩
  have htyped (s : String) : Dict.get? [("type", Json.str s)] "tsType" = none ∧
      ∀ T, ∀ m ∈ [("type", Json.str s)], m.2.EveryObject (GivesText T) :=
    ⟨rfl, fun T => List.forall_mem_singleton.2 trivial⟩
  unfold baseMembers? at h
  cases hkind : field.kind with
  | text | textarea | markdown | datetime | number | boolean | bloks | asset | multiasset |
    multilink | table | richtext =>
    rw [hkind] at h
    cases h
    exact htyped _
  | singleOption =>
    rw [hkind, hnode] at h
    cases h
    exact ⟨hnone, hmembers⟩
  | multiOption =>
    rw [hkind] at h
    cases h
    exact ⟨rfl, fun T => List.forall_mem_cons.2 ⟨trivial, List.forall_mem_singleton.2 (hchoice T)⟩⟩
  | _ =>
    rw [hkind] at h
    cases h

/-- The fragment of a field with a kind of its own gives the field's type as text, or none. -/
theorem plainFragments_givesText {name : String} {field : Field} {fragments : Dict Json}
    (h : (ctx.plainFragments name field).value = some fragments) {T : String → Prop}
    (htypes : ∀ text, (ctx.typeText name field).value = some text → T text) :
    ∀ f ∈ fragments, f.2.EveryObject (GivesText T) := by
  unfold plainFragments at h
  split at h
  · cases h
  · next members hmembers =>
    cases h
    obtain ⟨hnone, hgives⟩ := baseMembers?_givesText hmembers
    have htextMember (key : String) (text : Option String) :
        ∀ m ∈ textMember key text, m.2.EveryObject (GivesText T) := by
      cases text with
      | none => exact nofun
      | some s => exact List.forall_mem_singleton.2 trivial
    refine List.forall_mem_singleton.2 ((Json.EveryObject_obj _).2 ⟨?_, ?_⟩)
    · intro text htext
      refine htypes text ?_
      have hdescription :
          Dict.get? (textMember "description" field.description) "tsType" = none := by
        cases field.description <;> rfl
      rw [Dict.get?_append, Dict.get?_append, hnone, hdescription, Option.none_or,
        Option.or_none] at htext
      cases htype : (ctx.typeText name field).value with
      | none => simp [htype, textMember] at htext
      | some s => simpa [htype, textMember] using htext
    · intro m hm
      rcases List.mem_append.1 hm with hm | hm
      · rcases List.mem_append.1 hm with hm | hm
        · exact hgives T m hm
        · exact htextMember _ _ m hm
      · exact htextMember _ _ m hm

/-- A text that the node gives as its type is self-contained. -/
def TextContained (node : Dict Json) : Prop :=
  ∀ text, Dict.get? node "tsType" = some (.str text) → isSelfContained text = true

theorem plainFragments_contained {name : String} {field : Field} {fragments : Dict Json}
    (h : (ctx.plainFragments name field).value = some fragments) :
    ∀ f ∈ fragments, f.2.EveryObject TextContained :=
  ctx.plainFragments_givesText h fun _ htext => ctx.isSelfContained_typeText htext

end FragmentContext

end Blokwork
