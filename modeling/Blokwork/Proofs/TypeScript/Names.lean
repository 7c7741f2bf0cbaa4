import Blokwork.Proofs.TypeScript.Meaning

/-!
# Type names in a text

`typeNames` are the words by which a text refers to types. The words of the language are none, and
neither are keys. A printed type refers to no type but by the texts in it that are taken as they
are (`TypeExpr.refersTo_tokens`), and a declaration line to those of its type and to itself
(`Declaration.textRefersTo_line`).
-/

namespace Blokwork.TypeScript

/-- The words of types, values and declarations. -/
def languageWords : List String := typeKeywords ++ ["true", "false", "export", "interface", "type"]

/-- A word in front of these tokens is a key. -/
def isBehindKey : List Token → Bool
  | .mark ':' :: _ => true
  | .mark '?' :: .mark ':' :: _ => true
  | _ => false

/-- The word in front of these tokens takes variants out of a union. -/
def isExclusion (word : String) (behind : List Token) : Bool :=
  word = "Exclude" && behind.head? = some (.mark '<')

/-- The word in front of these tokens is the name of a type. -/
def isTypeName (word : String) (behind : List Token) : Bool :=
  !(languageWords.contains word || isBehindKey behind || isExclusion word behind)

/-- The names of types among some tokens, in order. -/
def typeNames : List Token → List String
  | [] => []
  | .word word :: rest => if isTypeName word rest then word :: typeNames rest else typeNames rest
  | _ :: rest => typeNames rest

/-- The tokens refer to types of the kind only. -/
def RefersTo (K : String → Prop) (ts : List Token) : Prop := ∀ name ∈ typeNames ts, K name

/-- The text refers to types of the kind only. -/
def TextRefersTo (K : String → Prop) (text : String) : Prop := ∃ ts, Spells text ts ∧ RefersTo K ts

variable {K : String → Prop} {ts us : List Token}

/-! ## Names in parts -/

/-- What stands behind a key stands behind it whatever follows. -/
theorem isTypeName_of_append {word : String} (h : isTypeName word (ts ++ us) = true) :
    isTypeName word ts = true := by
  simp only [isTypeName, Bool.not_eq_true', Bool.or_eq_false_iff] at h ⊢
  obtain ⟨⟨hword, hkey⟩, hexclusion⟩ := h
  refine ⟨⟨hword, ?_⟩, ?_⟩
  · unfold isBehindKey
    split
    · cases hkey
    · cases hkey
    · rfl
  · cases ts with
    | nil => simp [isExclusion]
    | cons t ts => exact hexclusion

/-- A type name in two lists of tokens is in one of them: what the second one starts with can only
take a name away from the first. -/
theorem mem_typeNames_append {name : String} (h : name ∈ typeNames (ts ++ us)) :
    name ∈ typeNames ts ∨ name ∈ typeNames us := by
  induction ts with
  | nil => exact .inr h
  | cons t ts ih =>
    cases t with
    | word word =>
      rw [List.cons_append, typeNames] at h
      rw [typeNames]
      split at h
      · next hname =>
        rw [if_pos (isTypeName_of_append hname)]
        rcases List.mem_cons.1 h with rfl | h
        · exact .inl List.mem_cons_self
        · exact (ih h).imp_left (List.mem_cons_of_mem _)
      · split
        · exact (ih h).imp_left (List.mem_cons_of_mem _)
        · exact ih h
    | number | text | mark | arrow | lineBreak => exact ih h

namespace RefersTo

/-- Tokens that refer to known types may follow each other. -/
theorem append (ht : RefersTo K ts) (hu : RefersTo K us) : RefersTo K (ts ++ us) :=
  fun name h => (mem_typeNames_append h).elim (ht name) (hu name)

theorem nil : RefersTo K [] := nofun

/-- Tokens put together from parts refer to what the parts refer to. -/
theorem flatten {parts : List (List Token)} (h : ∀ p ∈ parts, RefersTo K p) :
    RefersTo K parts.flatten := by
  induction parts with
  | nil => exact nil
  | cons p parts ih =>
    obtain ⟨hp, hparts⟩ := List.forall_mem_cons.1 h
    exact hp.append (ih hparts)

/-- A mark refers to no type. -/
theorem mark (c : Char) : RefersTo K [.mark c] := nofun

/-- Marks between parts refer to no type. -/
theorem joined (c : Char) {parts : List (List Token)} (h : ∀ p ∈ parts, RefersTo K p) :
    RefersTo K (joined c parts) := by
  induction parts with
  | nil => exact nil
  | cons p parts ih =>
    obtain ⟨hp, hparts⟩ := List.forall_mem_cons.1 h
    cases parts with
    | nil => simpa using hp
    | cons next parts =>
      rw [joined_cons_cons]
      exact hp.append ((mark c).append (ih hparts))

/-- A word may refer to the type of its name, so that has to be known. -/
theorem word {name : String} (h : K name) : RefersTo K [.word name] := by
  intro other hother
  rw [typeNames] at hother
  split at hother
  · obtain rfl := List.mem_singleton.1 hother
    exact h
  · cases hother

/-- The words of the language are no names. -/
theorem of_mem_languageWords {word : String} (h : word ∈ languageWords) :
    RefersTo K [.word word] := by
  have hnot : isTypeName word [] = false := by simp [isTypeName, h]
  intro name hname
  rw [typeNames, hnot] at hname
  cases hname

/-- Brackets refer to no type. -/
theorem bracketed (o c : Char) (h : RefersTo K ts) : RefersTo K (.mark o :: (ts ++ [.mark c])) :=
  (mark o).append (h.append (mark c))

/-- An array refers to what its item refers to. -/
theorem arrayTokens (item : String) (h : RefersTo K ts) : RefersTo K (arrayTokens item ts) := by
  have hbrackets : RefersTo K [.mark '[', .mark ']'] := nofun
  unfold TypeScript.arrayTokens
  split
  · exact (h.bracketed '(' ')').append hbrackets
  · exact h.append hbrackets

/-- A part in parentheses refers to what the part refers to. -/
theorem partTokens (member : String) (h : RefersTo K ts) : RefersTo K (partTokens member ts) := by
  unfold TypeScript.partTokens
  split
  · exact h.bracketed '(' ')'
  · exact h

/-- A block refers to what its lines refer to. -/
theorem blockTokens (h : RefersTo K ts) : RefersTo K (blockTokens ts) := by
  have hline : RefersTo K [.lineBreak] := nofun
  unfold TypeScript.blockTokens
  split
  · exact nofun
  · exact (mark '\x7b').append (hline.append (h.append (mark '\x7d')))

/-- A key is no name. -/
theorem propertyTokens (head : PropertyHead) (h : RefersTo K ts) :
    RefersTo K (propertyTokens head ts) := by
  have hend : RefersTo K [.mark ';', .lineBreak] := nofun
  have hcomment : RefersTo K (if head.description.isSome then [.lineBreak] else []) := by
    split <;> exact nofun
  have hkey : typeNames (keyToken head.key :: ((if head.optional then [.mark '?'] else [])
      ++ .mark ':' :: (ts ++ [.mark ';', .lineBreak]))) =
      typeNames (ts ++ [.mark ';', .lineBreak]) := by
    unfold keyToken
    cases head.optional <;> split <;> simp [typeNames, isTypeName, isBehindKey]
  refine hcomment.append fun name hname => ?_
  rw [hkey] at hname
  exact h.append hend name hname

/-- The line of further keys refers to what their type refers to. -/
theorem indexLineTokens (h : RefersTo K ts) : RefersTo K (indexLineTokens ts) := by
  have hend : RefersTo K [.mark ';', .lineBreak] := nofun
  have hkey : typeNames
      [.mark '[', .word "k", .mark ':', .word "string", .mark ']', .mark ':'] = [] := by decide
  refine RefersTo.append (fun name hname => ?_) (h.append hend)
  rw [hkey] at hname
  cases hname

end RefersTo

mutual

/-- A JSON value refers to no type. -/
theorem refersTo_literalTokens (j : Json) : RefersTo K (literalTokens j) := by
  cases j with
  | null => exact .of_mem_languageWords (by decide)
  | bool b => cases b <;> exact .of_mem_languageWords (by decide)
  | num | str => exact nofun
  | arr xs => exact (RefersTo.joined ',' (refersTo_literalItems xs)).bracketed '[' ']'
  | obj ms => exact (RefersTo.joined ',' (refersTo_literalMembers ms)).bracketed '\x7b' '\x7d'
termination_by structural j

/-- A literal refers to no type, and neither do its items. -/
theorem refersTo_literalItems (xs : List Json) : ∀ p ∈ literalItems xs, RefersTo K p := by
  match xs with
  | [] => exact nofun
  | x :: xs => exact List.forall_mem_cons.2 ⟨refersTo_literalTokens x, refersTo_literalItems xs⟩
termination_by structural xs

/-- The keys of a literal are no type names, and neither are its values. -/
theorem refersTo_literalMembers (ms : List (String × Json)) :
    ∀ p ∈ literalMembers ms, RefersTo K p := by
  match ms with
  | [] => exact nofun
  | (k, x) :: ms =>
    have hkey : RefersTo K [.text (Json.quote k), .mark ':'] := nofun
    exact List.forall_mem_cons.2
      ⟨hkey.append (refersTo_literalTokens x), refersTo_literalMembers ms⟩
termination_by structural ms

end

/-! ## Names in printed types -/

namespace TypeExpr

/-- A word is one of the language, and text that is taken as it is refers to types of the kind
only. -/
def NamesKnown (K : String → Prop) : TypeExpr → Prop
  | .keyword word => word ∈ typeKeywords
  | .verbatim text => TextRefersTo K text
  | _ => True

mutual

/-- A printed type refers to types by the texts in it alone. -/
theorem refersTo_tokens (t : TypeExpr) (width level : Nat) (h : t.Everywhere (NamesKnown K)) :
    RefersTo K (tokens width level t) := by
  cases t with
  | keyword word => exact .of_mem_languageWords (List.mem_append_left _ h)
  | literal value => exact refersTo_literalTokens value
  | verbatim text =>
    obtain ⟨ts, hts, hrefers⟩ := h
    simpa [tokens, show lex text.toList = some ts from hts] using hrefers
  | union ms => exact .joined '|' (refersTo_tokensAll ms width level ((Everywhere_union ms).1 h).2)
  | intersection ms =>
    have hparts := refersTo_tokensAll ms width level ((Everywhere_intersection ms).1 h).2
    rw [tokensAll_eq] at hparts
    rw [tokens, printAll_eq, tokensAll_eq, List.zipWith_map_left, List.zipWith_map_right,
      List.zipWith_self]
    exact .joined '&' (List.forall_mem_map.2 fun m hm =>
      (hparts _ (List.mem_map_of_mem hm)).partTokens _)
  | array item => exact (refersTo_tokens item width level h.2).arrayTokens _
  | tuple ts =>
    have hparts := refersTo_tokensAll ts width level ((Everywhere_tuple ts).1 h).2
    exact (RefersTo.joined ',' hparts).bracketed '[' ']'
  | object ps index =>
    obtain ⟨-, hps, hindex⟩ := (Everywhere_object ps index).1 h
    have hlines := RefersTo.flatten (refersTo_tokensProperties ps width (level + 1) hps)
    cases index with
    | none => exact (hlines.append .nil).blockTokens
    | some t =>
      have htype := refersTo_tokens t width (level + 1) (hindex t rfl)
      exact (hlines.append htype.indexLineTokens).blockTokens
termination_by structural t

/-- Types in a list, one by one. -/
theorem refersTo_tokensAll (ts : List TypeExpr) (width level : Nat)
    (h : ∀ t ∈ ts, t.Everywhere (NamesKnown K)) :
    ∀ p ∈ tokensAll width level ts, RefersTo K p := by
  match ts with
  | [] => exact nofun
  | t :: ts =>
    have ⟨ht, hts⟩ := List.forall_mem_cons.1 h
    exact List.forall_mem_cons.2
      ⟨refersTo_tokens t width level ht, refersTo_tokensAll ts width level hts⟩
termination_by structural ts

/-- Properties, one by one: a key is no type name. -/
theorem refersTo_tokensProperties (ps : List (PropertyHead × TypeExpr)) (width level : Nat)
    (h : ∀ p ∈ ps, p.2.Everywhere (NamesKnown K)) :
    ∀ p ∈ tokensProperties width level ps, RefersTo K p := by
  match ps with
  | [] => exact nofun
  | (head, t) :: ps =>
    have ⟨ht, hps⟩ := List.forall_mem_cons.1 h
    exact List.forall_mem_cons.2
      ⟨(refersTo_tokens t width level ht).propertyTokens head,
        refersTo_tokensProperties ps width level hps⟩
termination_by structural ps

end

end TypeExpr

/-! ## Names in declarations -/

/-- The text that a node gives as its type, if any, is as asked. -/
def GivesText (T : String → Prop) (node : Dict Json) : Prop :=
  ∀ text, Dict.get? node "tsType" = some (.str text) → T text

/-- A schema in which every given text refers to known types has a type that does. -/
theorem suits_namesKnown : Suits (GivesText (TextRefersTo K)) (TypeExpr.NamesKnown K) where
  anything := nofun
  keyword h := h
  literal _ := trivial
  verbatim h hvalue := h _ hvalue
  union _ := trivial
  noNames _ _ := trivial
  intersection _ := trivial
  array _ := trivial
  tuple _ := trivial
  object _ _ := trivial

theorem suits_lexical_of_refersTo : Suits (GivesText (TextRefersTo K)) TypeExpr.Lexical :=
  suits_lexical nofun fun h hvalue => by
    obtain ⟨ts, hts, -⟩ := h _ hvalue
    exact Option.isSome_of_eq_some hts

/-- The printed type of a schema refers to the types that the texts in the schema refer to. -/
theorem Describes.textRefersTo {options : CompileOptions} {schema : Json} {t : TypeExpr}
    (h : Describes options none schema t)
    (hschema : schema.EveryObject (GivesText (TextRefersTo K))) (width level : Nat) :
    TextRefersTo K (t.print width level) :=
  ⟨_, TypeExpr.spells_print t level (h.everywhere suits_lexical_of_refersTo hschema),
    TypeExpr.refersTo_tokens t width level (h.everywhere suits_namesKnown hschema)⟩

/-- So does its declaration, besides to itself. -/
theorem Declaration.textRefersTo_line {d : Declaration} {width : Nat}
    (hname : isIdentifier d.name = true) (hknown : K d.name)
    (hbody : TextRefersTo K (d.body.print width 0)) : TextRefersTo K (d.line width) := by
  obtain ⟨ts, hts, hrefers⟩ := hbody
  have hword (word : String) (h : word ∈ languageWords) : RefersTo K [.word word] :=
    .of_mem_languageWords h
  have hexport := hword "export" (by decide)
  have hlead := RefersTo.word hknown
  unfold line
  split
  · have hend : RefersTo K [.lineBreak] := nofun
    exact ⟨_, spells_interface hname hts,
      hexport.append ((hword "interface" (by decide)).append hlead) |>.append
        (hrefers.append hend)⟩
  · have hend : RefersTo K [.mark ';', .lineBreak] := nofun
    exact ⟨_, spells_alias hname hts,
      hexport.append ((hword "type" (by decide)).append (hlead.append (.mark '=')))
        |>.append (hrefers.append hend)⟩

end Blokwork.TypeScript
