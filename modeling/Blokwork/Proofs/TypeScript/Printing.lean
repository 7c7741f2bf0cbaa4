import Blokwork.Proofs.TypeScript.Grammar

/-!
# What a printed type reads as

`TypeExpr.tokens` are the tokens of a printed type, parentheses and line breaks included
(`spells_print`). Parentheses are put where the text of a part shows a separator; a separator
inside a string or inside brackets puts them where none are needed, which changes no type. And
without a separator in its text a type binds as strongly as its place asks for, so that what is
printed is derived, in the grammar of types, as the tree that was printed (`TypeExpr.readsBack`).
-/

namespace Blokwork.TypeScript

/-! ## Conditions on all nodes -/

namespace TypeExpr

mutual

/-- Every node of the tree is of that kind. -/
def Everywhere (P : TypeExpr → Prop) : TypeExpr → Prop
  | .union ms => P (.union ms) ∧ EverywhereAll P ms
  | .intersection ms => P (.intersection ms) ∧ EverywhereAll P ms
  | .array t => P (.array t) ∧ Everywhere P t
  | .tuple ts => P (.tuple ts) ∧ EverywhereAll P ts
  | .object ps index =>
    P (.object ps index) ∧ EverywhereProperties P ps ∧
      (match index with
        | some t => Everywhere P t
        | none => True)
  | .keyword word => P (.keyword word)
  | .literal value => P (.literal value)
  | .verbatim text => P (.verbatim text)

/-- `Everywhere` over several types. -/
def EverywhereAll (P : TypeExpr → Prop) : List TypeExpr → Prop
  | [] => True
  | t :: ts => Everywhere P t ∧ EverywhereAll P ts

/-- `Everywhere` over the types of properties. -/
def EverywhereProperties (P : TypeExpr → Prop) : List (PropertyHead × TypeExpr) → Prop
  | [] => True
  | (_, t) :: ps => Everywhere P t ∧ EverywhereProperties P ps

end

variable {P : TypeExpr → Prop}

/-- `EverywhereAll` in the natural per-element form. -/
theorem EverywhereAll_iff (ts : List TypeExpr) :
    EverywhereAll P ts ↔ ∀ t ∈ ts, Everywhere P t := by
  induction ts with
  | nil => simp [EverywhereAll]
  | cons t ts ih => simp [EverywhereAll, ih]

/-- `EverywhereProperties` in the natural per-element form. -/
theorem EverywhereProperties_iff (ps : List (PropertyHead × TypeExpr)) :
    EverywhereProperties P ps ↔ ∀ p ∈ ps, Everywhere P p.2 := by
  induction ps with
  | nil => simp [EverywhereProperties]
  | cons p ps ih => obtain ⟨head, t⟩ := p; simp [EverywhereProperties, ih]

/-- What is asked everywhere of a union is asked of it and of its members. -/
theorem Everywhere_union (ms : List TypeExpr) :
    Everywhere P (.union ms) ↔ P (.union ms) ∧ ∀ m ∈ ms, Everywhere P m := by
  rw [Everywhere, EverywhereAll_iff]

theorem Everywhere_intersection (ms : List TypeExpr) :
    Everywhere P (.intersection ms) ↔ P (.intersection ms) ∧ ∀ m ∈ ms, Everywhere P m := by
  rw [Everywhere, EverywhereAll_iff]

theorem Everywhere_tuple (ts : List TypeExpr) :
    Everywhere P (.tuple ts) ↔ P (.tuple ts) ∧ ∀ t ∈ ts, Everywhere P t := by
  rw [Everywhere, EverywhereAll_iff]

/-- What is asked everywhere of an object is asked of the types of its properties and of further
keys. -/
theorem Everywhere_object (ps : List (PropertyHead × TypeExpr)) (index : Option TypeExpr) :
    Everywhere P (.object ps index) ↔
      P (.object ps index) ∧ (∀ p ∈ ps, Everywhere P p.2) ∧ ∀ t ∈ index, Everywhere P t := by
  cases index <;> simp [Everywhere, EverywhereProperties_iff]

end TypeExpr

/-! ## Tokens -/

/-- The token of a property key. -/
def keyToken (key : String) : Token :=
  if isIdentifier key then .word key else .text (Json.quote key)

/-- The tokens of a property line and of the comment above it. -/
def propertyTokens (head : PropertyHead) (type : List Token) : List Token :=
  (if head.description.isSome then [.lineBreak] else [])
    ++ keyToken head.key :: ((if head.optional then [.mark '?'] else [])
    ++ .mark ':' :: (type ++ [.mark ';', .lineBreak]))

/-- The tokens of the line for further keys. -/
def indexLineTokens (type : List Token) : List Token :=
  [.mark '[', .word "k", .mark ':', .word "string", .mark ']', .mark ':']
    ++ (type ++ [.mark ';', .lineBreak])

/-- The tokens of lines in braces. -/
def blockTokens (lines : List Token) : List Token :=
  if lines.isEmpty then [.mark '\x7b', .mark '\x7d']
  else .mark '\x7b' :: .lineBreak :: (lines ++ [.mark '\x7d'])

/-- A part in parentheses. -/
def parenthesized (tokens : List Token) : List Token := .mark '(' :: (tokens ++ [.mark ')'])

/-- The tokens of an array of the printed item. -/
def arrayTokens (item : String) (tokens : List Token) : List Token :=
  (if Text.contains item TypeExpr.orSeparator || Text.contains item TypeExpr.andSeparator then
    parenthesized tokens
  else tokens) ++ [.mark '[', .mark ']']

/-- The tokens of a printed member of an intersection. -/
def partTokens (member : String) (tokens : List Token) : List Token :=
  if Text.contains member TypeExpr.orSeparator then parenthesized tokens else tokens

namespace TypeExpr

mutual

/-- The tokens of a type printed at nesting level `level`, with `width` spaces for each level. -/
def tokens (width level : Nat) : TypeExpr → List Token
  | .keyword word => [.word word]
  | .literal value => literalTokens value
  | .verbatim text => (lex text.toList).getD []
  | .union ms => joined '|' (tokensAll width level ms)
  | .intersection ms =>
    joined '&' (List.zipWith partTokens (printAll width level ms) (tokensAll width level ms))
  | .array item => arrayTokens (print width level item) (tokens width level item)
  | .tuple ts => .mark '[' :: (joined ',' (tokensAll width level ts) ++ [.mark ']'])
  | .object ps index =>
    blockTokens ((tokensProperties width (level + 1) ps).flatten
      ++ (match index with
          | some t => indexLineTokens (tokens width (level + 1) t)
          | none => []))

/-- The tokens of several types. -/
def tokensAll (width level : Nat) : List TypeExpr → List (List Token)
  | [] => []
  | t :: ts => tokens width level t :: tokensAll width level ts

/-- The tokens of several property lines. -/
def tokensProperties (width level : Nat) : List (PropertyHead × TypeExpr) → List (List Token)
  | [] => []
  | (head, t) :: ps =>
    propertyTokens head (tokens width level t) :: tokensProperties width level ps

end

/-- Types in a list are printed one by one. -/
theorem printAll_eq (width level : Nat) (ts : List TypeExpr) :
    printAll width level ts = ts.map (print width level) := by
  induction ts with
  | nil => rfl
  | cons t ts ih => simp [printAll, ih]

/-- The tokens of types in a list are those of each. -/
theorem tokensAll_eq (width level : Nat) (ts : List TypeExpr) :
    tokensAll width level ts = ts.map (tokens width level) := by
  induction ts with
  | nil => rfl
  | cons t ts ih => simp [tokensAll, ih]

/-- The tokens of properties are those of each, its head in front of its type. -/
theorem tokensProperties_eq (width level : Nat) (ps : List (PropertyHead × TypeExpr)) :
    tokensProperties width level ps =
      ps.map fun p => propertyTokens p.1 (tokens width level p.2) := by
  induction ps with
  | nil => rfl
  | cons p ps ih => simp [tokensProperties, ih]

/-- A word is an identifier, and text taken as it is ends in no open string or comment. -/
def Lexical : TypeExpr → Prop
  | .keyword word => isIdentifier word = true
  | .verbatim text => (lex text.toList).isSome = true
  | _ => True

end TypeExpr

/-! ## The tokens of printed types -/

section Lines

variable {text : String} {tokens : List Token}

/-- Parentheses are tokens of their own. -/
theorem spells_parenthesized (h : Spells text tokens) :
    Spells ("(" ++ text ++ ")") (parenthesized tokens) :=
  spells_bracketed (by decide) (by decide) (by decide) h

/-- Texts one behind the other spell their tokens one behind the other, if no token goes across the
seam. -/
theorem spells_append {text' : String} {tokens' : List Token} (h : Spells text tokens)
    (h' : Spells text' tokens') (hapart : StartsApart text'.toList) :
    Spells (text ++ text') (tokens ++ tokens') := by
  unfold Spells at h h' ⊢
  rw [String.toList_append]
  exact lex_append h h' hapart

/-- An item gets its parentheses in the text and in the tokens alike. -/
theorem spells_printArray (h : Spells text tokens) :
    Spells (TypeExpr.printArray text) (arrayTokens text tokens) := by
  have hbrackets : Spells "[]" [.mark '[', .mark ']'] := by decide
  unfold TypeExpr.printArray arrayTokens
  split
  · have hclose : Spells ")[]" [.mark ')', .mark '[', .mark ']'] := by decide
    have hopen : Closed "(".toList [.mark '('] := by decide
    have hitem := spells_append h hclose (by decide)
    unfold Spells at hitem ⊢
    simpa [parenthesized] using hopen.lex_append hitem
  · exact spells_append h hbrackets (by decide)

/-- A part of an intersection gets its parentheses in the text and in the tokens alike. -/
theorem spells_printPart (h : Spells text tokens) :
    Spells (TypeExpr.printPart text) (partTokens text tokens) := by
  unfold TypeExpr.printPart partTokens
  split
  · exact spells_parenthesized h
  · exact h

/-- The parts of an intersection, each with its parentheses. -/
theorem spells_printParts {texts : List String} {parts : List (List Token)}
    (h : List.Forall₂ Spells texts parts) :
    List.Forall₂ Spells (texts.map TypeExpr.printPart) (List.zipWith partTokens texts parts) := by
  induction h with
  | nil => exact .nil
  | cons hpart _ ih => exact .cons (spells_printPart hpart) ih

/-- A key is one token, a word or a text in quotes. -/
theorem spells_propertyKey (key : String) : Spells (TypeExpr.propertyKey key) [keyToken key] := by
  unfold TypeExpr.propertyKey keyToken
  split
  · next h => exact lex_identifier h
  · exact (closed_quote key).lex

/-- The indent consists of spaces. -/
theorem eq_space_of_mem_pad {width level : Nat} {c : Char}
    (h : c ∈ (TypeExpr.pad width level).toList) : c = ' ' := by
  rw [TypeExpr.pad, String.toList_ofList] at h
  exact (List.mem_replicate.1 h).2

/-- A type behind a colon, to the end of its line. -/
theorem closed_typed (h : Spells text tokens) :
    Closed (": " ++ text ++ ";\n").toList (.mark ':' :: (tokens ++ [.mark ';', .lineBreak])) := by
  have hcolon : Closed ": ".toList [.mark ':'] := by decide
  have hend : Closed ";\n".toList [.mark ';', .lineBreak] := by decide
  have htype := closed_append_of_lex h hend (by decide) (by decide)
  simpa [List.append_assoc] using hcolon.append htype

/-- A line of a property ends with a line feed, which closes its last token. -/
theorem closed_printProperty (width level : Nat) (head : PropertyHead) (h : Spells text tokens) :
    Closed (TypeExpr.printProperty (TypeExpr.pad width level) head text).toList
      (propertyTokens head tokens) := by
  have hpad : ∀ c ∈ (TypeExpr.pad width level).toList, c = ' ' := fun _ => eq_space_of_mem_pad
  have hline : Closed (TypeExpr.pad width level ++ (TypeExpr.propertyKey head.key
      ++ ((if head.optional then "?" else "") ++ (": " ++ text ++ ";\n")))).toList
      (keyToken head.key :: ((if head.optional then [.mark '?'] else [])
        ++ .mark ':' :: (tokens ++ [.mark ';', .lineBreak]))) := by
    have hrest : Closed ((if head.optional then "?" else "") ++ (": " ++ text ++ ";\n")).toList
        ((if head.optional then [.mark '?'] else [])
          ++ .mark ':' :: (tokens ++ [.mark ';', .lineBreak])) := by
      rw [String.toList_append]
      refine Closed.append ?_ (closed_typed h)
      cases head.optional <;> decide
    have hapart : StartsApart
        ((if head.optional then "?" else "") ++ (": " ++ text ++ ";\n")).toList := by
      cases head.optional <;> simp [StartsApart] <;> decide
    have hkey := closed_append_of_lex (spells_propertyKey head.key) hrest hapart (by simp)
    simpa [List.append_assoc] using (closed_spaces hpad).append hkey
  unfold TypeExpr.printProperty propertyTokens
  obtain ⟨key, description, optional⟩ := head
  cases description with
  | none => simpa [String.append_assoc] using hline
  | some d => simpa [String.append_assoc] using (closed_docComment d hpad).append hline

/-- The line of further keys ends with a line feed, which closes its last token. -/
theorem closed_printIndex (width level : Nat) (h : Spells text tokens) :
    Closed (TypeExpr.printIndex (TypeExpr.pad width level) text).toList
      (indexLineTokens tokens) := by
  have hpad : Closed (TypeExpr.pad width level).toList [] :=
    closed_spaces fun _ => eq_space_of_mem_pad
  have hkey : Closed "[k: string]: ".toList
      [.mark '[', .word "k", .mark ':', .word "string", .mark ']', .mark ':'] := by decide
  have hend : Closed ";\n".toList [.mark ';', .lineBreak] := by decide
  have htype := closed_append_of_lex h hend (by decide) (by decide)
  unfold TypeExpr.printIndex indexLineTokens
  simpa [List.append_assoc] using hpad.append (hkey.append htype)

/-- Lines have a text exactly when they have tokens. -/
theorem closed_printBlock (width level : Nat) (h : Closed text.toList tokens)
    (hempty : text = "" ↔ tokens = []) :
    Closed (TypeExpr.printBlock text (TypeExpr.pad width level)).toList (blockTokens tokens) := by
  have hpad : Closed (TypeExpr.pad width level).toList [] :=
    closed_spaces fun _ => eq_space_of_mem_pad
  have hopen : Closed "\x7b\n".toList [.mark '\x7b', .lineBreak] := by decide
  have hclose : Closed "\x7d".toList [.mark '\x7d'] := by decide
  unfold TypeExpr.printBlock blockTokens
  by_cases htext : text = ""
  · have htokens := hempty.1 htext
    have hbraces : Closed "\x7b\x7d".toList [.mark '\x7b', .mark '\x7d'] := by decide
    subst htext htokens
    exact hbraces
  · have htokens : ¬ tokens = [] := fun h => htext (hempty.2 h)
    have hisEmpty : text.isEmpty = false := by simpa [String.isEmpty_iff] using htext
    rw [hisEmpty]
    simpa [htokens, List.append_assoc] using hopen.append (h.append (hpad.append hclose))

end Lines

namespace TypeExpr

variable {width : Nat}

mutual

/-- A printed type has its tokens. -/
theorem spells_print (t : TypeExpr) (level : Nat) (h : t.Everywhere Lexical) :
    Spells (print width level t) (tokens width level t) := by
  cases t with
  | keyword word => exact lex_identifier h
  | literal value => exact spells_compact value
  | verbatim text =>
    obtain ⟨ts, hts⟩ := Option.isSome_iff_exists.1 h
    simp [Spells, print, tokens, hts]
  | union ms =>
    exact spells_intercalate (by decide) (by decide)
      (spells_printAll ms level ((Everywhere_union ms).1 h).2)
  | intersection ms =>
    exact spells_intercalate (by decide) (by decide)
      (spells_printParts (spells_printAll ms level ((Everywhere_intersection ms).1 h).2))
  | array item => exact spells_printArray (spells_print item level h.2)
  | tuple ts =>
    exact spells_bracketed (by decide) (by decide) (by decide) (spells_intercalate (by decide)
      (by decide) (spells_printAll ts level ((Everywhere_tuple ts).1 h).2))
  | object ps index =>
    obtain ⟨-, hps, hindex⟩ := (Everywhere_object ps index).1 h
    have hlines := closed_printProperties ps (level + 1) hps
    cases index with
    | none =>
      refine (closed_printBlock width level (by simpa using hlines) ?_).lex
      cases ps <;> simp [printProperties, tokensProperties, printProperty, propertyTokens]
    | some t =>
      have hline := closed_printIndex width (level + 1) (spells_print t (level + 1) (hindex t rfl))
      refine (closed_printBlock width level (by simpa using hlines.append hline) ?_).lex
      simp [printIndex, indexLineTokens]
termination_by structural t

/-- What types in a list print spells their tokens, one by one. -/
theorem spells_printAll (ts : List TypeExpr) (level : Nat) (h : ∀ t ∈ ts, t.Everywhere Lexical) :
    List.Forall₂ Spells (printAll width level ts) (tokensAll width level ts) := by
  match ts with
  | [] => exact .nil
  | t :: ts =>
    exact .cons (spells_print t level (h t List.mem_cons_self))
      (spells_printAll ts level fun u hu => h u (List.mem_cons_of_mem _ hu))
termination_by structural ts

/-- The lines of the properties of an object, one behind the other. -/
theorem closed_printProperties (ps : List (PropertyHead × TypeExpr)) (level : Nat)
    (h : ∀ p ∈ ps, p.2.Everywhere Lexical) :
    Closed (String.join (printProperties width level ps)).toList
      (tokensProperties width level ps).flatten := by
  match ps with
  | [] => exact closed_nil
  | (head, t) :: ps =>
    have hline := closed_printProperty width level head
      (spells_print t level (h (head, t) List.mem_cons_self))
    have hlines := closed_printProperties ps level fun p hp => h p (List.mem_cons_of_mem _ hp)
    simpa [printProperties, tokensProperties] using hline.append hlines
termination_by structural ps

end

end TypeExpr

/-! ## Tokens without line breaks -/

/-- The tokens that are no line breaks. -/
def significant (tokens : List Token) : List Token := tokens.filter fun t => t ≠ .lineBreak

@[simp] theorem significant_nil : significant [] = [] := rfl

@[simp] theorem significant_append (a b : List Token) :
    significant (a ++ b) = significant a ++ significant b := List.filter_append a b

@[simp] theorem significant_lineBreak (ts : List Token) :
    significant (.lineBreak :: ts) = significant ts := rfl

@[simp] theorem significant_mark (c : Char) (ts : List Token) :
    significant (.mark c :: ts) = .mark c :: significant ts := rfl

@[simp] theorem significant_word (w : String) (ts : List Token) :
    significant (.word w :: ts) = .word w :: significant ts := rfl

@[simp] theorem significant_number (n : String) (ts : List Token) :
    significant (.number n :: ts) = .number n :: significant ts := rfl

@[simp] theorem significant_text (s : String) (ts : List Token) :
    significant (.text s :: ts) = .text s :: significant ts := rfl

/-- Marks between parts are significant. -/
theorem significant_joined (c : Char) (parts : List (List Token)) :
    significant (joined c parts) = joined c (parts.map significant) := by
  induction parts with
  | nil => rfl
  | cons part parts ih =>
    cases parts with
    | nil => simp
    | cons next parts =>
      simp only [joined_cons_cons, significant_append, significant_mark, ih, List.map_cons]

mutual

/-- A JSON value is on one line. -/
theorem significant_literalTokens (j : Json) :
    significant (literalTokens j) = literalTokens j := by
  cases j with
  | null | bool | num | str => rfl
  | arr xs => simp [literalTokens, significant_joined, significant_literalItems xs]
  | obj ms => simp [literalTokens, significant_joined, significant_literalMembers ms]
termination_by structural j

/-- A literal is on one line, so all of its tokens are significant. -/
theorem significant_literalItems (xs : List Json) :
    (literalItems xs).map significant = literalItems xs := by
  match xs with
  | [] => rfl
  | x :: xs => simp [literalItems, significant_literalTokens x, significant_literalItems xs]
termination_by structural xs

/-- The members of a literal, as its items. -/
theorem significant_literalMembers (ms : List (String × Json)) :
    (literalMembers ms).map significant = literalMembers ms := by
  match ms with
  | [] => rfl
  | (k, x) :: ms =>
    simp [literalMembers, significant_literalTokens x, significant_literalMembers ms]
termination_by structural ms

end

/-! ## Separators in a text -/

/-- A pattern occurs in a text that has it in the middle. -/
theorem occursIn_append {pattern : List Char} (before after : List Char) :
    Text.occursIn pattern (before ++ (pattern ++ after)) = true := by
  induction before with
  | nil =>
    cases pattern with
    | nil => cases after <;> simp [Text.occursIn]
    | cons c pattern => simp [Text.occursIn]
  | cons c before ih => simp [Text.occursIn, ih]

/-- Two parts or more show what separates them. -/
theorem contains_intercalate (separator a b : String) (more : List String) :
    Text.contains (String.intercalate separator (a :: b :: more)) separator = true := by
  rw [Text.contains, String.intercalate_cons_cons, String.toList_append, String.toList_append,
    List.append_assoc]
  exact occursIn_append _ _

/-- How strongly a type with that text binds at least. -/
def levelOf (text : String) : Precedence :=
  if Text.contains text TypeExpr.orSeparator then .union
  else if Text.contains text TypeExpr.andSeparator then .intersection
  else .suffixed

namespace Reads

variable {text : String} {ts : List Token} {t : TypeExpr}

/-- A type that binds as strongly as an array binds as strongly as any text asks for. -/
theorem levelOf (h : Reads .suffixed ts t) : Reads (levelOf text) ts t := by
  unfold TypeScript.levelOf
  split
  · exact h.suffixed_union
  split
  · exact h.operand .and
  · exact h

/-- Whatever the level of a text is, it can stand where a union can. -/
theorem union_of_levelOf (h : Reads (TypeScript.levelOf text) ts t) : Reads .union ts t := by
  unfold TypeScript.levelOf at h
  split at h
  · exact h
  split at h
  · exact h.operand .or
  · exact h.suffixed_union

/-- Without the separator of a union, a type binds as an intersection does. -/
theorem intersection_of_levelOf (h : Reads (TypeScript.levelOf text) ts t)
    (htext : ¬ Text.contains text TypeExpr.orSeparator = true) : Reads .intersection ts t := by
  unfold TypeScript.levelOf at h
  rw [if_neg htext] at h
  split at h
  · exact h
  · exact h.operand .and

/-- A text without separators needs no parentheses in front of a suffix. -/
theorem suffixed_of_levelOf (h : Reads (TypeScript.levelOf text) ts t)
    (hor : ¬ Text.contains text TypeExpr.orSeparator = true)
    (hand : ¬ Text.contains text TypeExpr.andSeparator = true) : Reads .suffixed ts t := by
  unfold TypeScript.levelOf at h
  rwa [if_neg hor, if_neg hand] at h

/-- An item in the brackets of an array. -/
theorem arrayTokens (h : Reads (TypeScript.levelOf text) ts t) :
    Reads .suffixed (arrayTokens text ts) (.array t) := by
  unfold TypeScript.arrayTokens
  split
  · exact h.union_of_levelOf.paren.primary.array
  · next hnot =>
    rw [Bool.or_eq_true, not_or] at hnot
    exact (h.suffixed_of_levelOf hnot.1 hnot.2).array

/-- A member of an intersection. -/
theorem partTokens (h : Reads (TypeScript.levelOf text) ts t) :
    Reads .intersection (partTokens text ts) t := by
  unfold TypeScript.partTokens
  split
  · exact h.union_of_levelOf.paren.primary.operand .and
  · next hnot => exact h.intersection_of_levelOf hnot

/-- A member of an intersection by itself. -/
theorem partTokens_levelOf (h : Reads (TypeScript.levelOf text) ts t) :
    Reads (TypeScript.levelOf (TypeExpr.printPart text)) (TypeScript.partTokens text ts) t := by
  unfold TypeScript.partTokens TypeExpr.printPart
  split
  · exact h.union_of_levelOf.paren.primary.levelOf
  · exact h

end Reads

/-! ## Printed types are derived -/

/-- Line breaks play no part in whether an item has parentheses. -/
theorem significant_arrayTokens (text : String) (ts : List Token) :
    significant (arrayTokens text ts) = arrayTokens text (significant ts) := by
  unfold arrayTokens parenthesized
  split <;> simp

/-- Line breaks play no part in whether a part has parentheses. -/
theorem significant_partTokens (text : String) (ts : List Token) :
    significant (partTokens text ts) = partTokens text (significant ts) := by
  unfold partTokens parenthesized
  split <;> simp

namespace TypeExpr

/-- A word is the name of a type, no text is taken as it is, and no chain is empty. -/
def Regular : TypeExpr → Prop
  | .keyword word => word ∈ typeKeywords
  | .verbatim _ => False
  | .union ms => ms ≠ []
  | .intersection ms => ms ≠ []
  | _ => True

/-- The line that a property is printed on. -/
def lineOf (width level : Nat) (p : PropertyHead × TypeExpr) : PropertyLine where
  keyToken := keyToken p.1.key
  key := p.1.key
  optional := p.1.optional
  typeTokens := significant (tokens width level p.2)
  type := p.2

/-- The token of a key is read as that key, quoted or not. -/
theorem spellsKey_keyToken (key : String) : SpellsKey (keyToken key) key := by
  unfold keyToken
  split
  · next h => exact .identifier h
  · exact .quoted key

/-- Without line breaks the tokens of a property are those of one line of the grammar. -/
theorem significant_propertyTokens (width level : Nat) (p : PropertyHead × TypeExpr) :
    significant (propertyTokens p.1 (tokens width level p.2)) = (lineOf width level p).tokens := by
  obtain ⟨⟨key, description, optional⟩, t⟩ := p
  have hkey (ts : List Token) :
      significant (keyToken key :: ts) = keyToken key :: significant ts := by
    unfold keyToken
    split <;> rfl
  cases description <;> cases optional <;>
    simp [propertyTokens, PropertyLine.tokens, lineOf, hkey]

section Forms

variable {width level : Nat}

/-- The type is read from its tokens, as strongly bound as its text shows. -/
def ReadsBack (width level : Nat) (t : TypeExpr) : Prop :=
  Reads (levelOf (print width level t)) (significant (tokens width level t)) t

/-- A union reads as one of its members if each of them reads back. -/
theorem readsBack_union {ms : List TypeExpr} (hne : ms ≠ [])
    (h : ∀ m ∈ ms, ReadsBack width level m) : ReadsBack width level (.union ms) := by
  unfold ReadsBack at h ⊢
  match ms, hne with
  | [m], _ =>
    have hm := h m (List.mem_singleton_self m)
    simpa [print, printAll, tokens, tokensAll, Operator.combine] using
      hm.congr (normal_combine_singleton .or m).symm
  | a :: b :: more, hne =>
    have htext : levelOf (print width level (.union (a :: b :: more))) = .union :=
      if_pos (contains_intercalate _ _ _ _)
    have hparts : ∀ p ∈ (a :: b :: more).map fun m => (significant (tokens width level m), m),
        Reads .union p.1 p.2 := List.forall_mem_map.2 fun m hm => (h m hm).union_of_levelOf
    have hchain := Reads.chain .or (by simp) hparts
    rw [htext, tokens, significant_joined, tokensAll_eq]
    simpa [Operator.combine, Operator.level, Operator.mark, Function.comp_def] using hchain

/-- An intersection reads as one of its parts if each of them reads back. -/
theorem readsBack_intersection {ms : List TypeExpr} (hne : ms ≠ [])
    (h : ∀ m ∈ ms, ReadsBack width level m) : ReadsBack width level (.intersection ms) := by
  unfold ReadsBack at h ⊢
  match ms, hne with
  | [m], _ =>
    have hm := (h m (List.mem_singleton_self m)).partTokens_levelOf
    simpa [print, printAll, tokens, tokensAll, significant_partTokens, Operator.combine] using
      hm.congr (normal_combine_singleton .and m).symm
  | a :: b :: more, hne =>
    have hand : Text.contains (print width level (.intersection (a :: b :: more))) andSeparator =
        true := contains_intercalate _ _ _ _
    have hparts : ∀ p ∈ (a :: b :: more).map fun m =>
        (partTokens (print width level m) (significant (tokens width level m)), m),
        Reads .intersection p.1 p.2 := List.forall_mem_map.2 fun m hm => (h m hm).partTokens
    have hchain := Reads.chain .and (by simp) hparts
    have htokens : significant (tokens width level (.intersection (a :: b :: more))) =
        joined '&' ((a :: b :: more).map fun m =>
          partTokens (print width level m) (significant (tokens width level m))) := by
      rw [tokens, significant_joined, printAll_eq, tokensAll_eq, List.zipWith_map_left,
        List.zipWith_map_right, List.zipWith_self, List.map_map]
      simp only [Function.comp_def, significant_partTokens]
    have hlevel : Reads .intersection (significant (tokens width level
        (.intersection (a :: b :: more)))) (.intersection (a :: b :: more)) := by
      rw [htokens]
      simpa [Operator.combine, Operator.level, Operator.mark, Function.comp_def] using hchain
    unfold levelOf
    rw [hand]
    split
    · exact hlevel.operand .or
    · exact hlevel

/-- An array reads as one of its item if that reads back. -/
theorem readsBack_array {item : TypeExpr} (h : ReadsBack width level item) :
    ReadsBack width level (.array item) := by
  unfold ReadsBack at h ⊢
  rw [tokens, significant_arrayTokens]
  exact h.arrayTokens.levelOf

/-- A tuple reads as one of its items if each of them reads back. -/
theorem readsBack_tuple {ts : List TypeExpr} (h : ∀ t ∈ ts, ReadsBack width level t) :
    ReadsBack width level (.tuple ts) := by
  have hparts : ∀ p ∈ ts.map fun t => (significant (tokens width level t), t),
      Reads .union p.1 p.2 := List.forall_mem_map.2 fun t ht => (h t ht).union_of_levelOf
  have htuple : Reads (levelOf (print width level (.tuple ts))) _ _ :=
    (Reads.tuple hparts).primary.levelOf
  unfold ReadsBack
  rw [tokens, tokensAll_eq]
  simpa [significant_joined, List.map_map, Function.comp_def] using htuple

/-- Without line breaks a block is its lines between braces. -/
theorem significant_blockTokens (lines : List Token) :
    significant (blockTokens lines) = .mark '\x7b' :: (significant lines ++ [.mark '\x7d']) := by
  unfold blockTokens
  split
  · next h => simp [List.isEmpty_iff.1 h]
  · simp

/-- Without line breaks the properties of an object are lines of the grammar. -/
theorem significant_properties (width level : Nat) (ps : List (PropertyHead × TypeExpr)) :
    significant (tokensProperties width level ps).flatten =
      (ps.map (lineOf width level)).flatMap PropertyLine.tokens := by
  rw [tokensProperties_eq]
  induction ps with
  | nil => rfl
  | cons p ps ih => simp [significant_propertyTokens, ih]

/-- An object is derived as an object with the same normal form. -/
theorem exists_object {ps : List (PropertyHead × TypeExpr)} {index : Option TypeExpr}
    (hps : ∀ p ∈ ps, ReadsBack width (level + 1) p.2)
    (hindex : ∀ t ∈ index, ReadsBack width (level + 1) t) :
    ∃ properties further,
      Derives .primary (significant (tokens width level (.object ps index)))
        (.object properties further) ∧
      (object properties further).normal = (object ps index).normal := by
  have hkeys : ∀ l ∈ ps.map (lineOf width (level + 1)), SpellsKey l.keyToken l.key :=
    List.forall_mem_map.2 fun p _ => spellsKey_keyToken p.1.key
  have htypes : ∀ l ∈ ps.map (lineOf width (level + 1)), Reads .union l.typeTokens l.type :=
    List.forall_mem_map.2 fun p hp => (hps p hp).union_of_levelOf
  let further := index.map fun t => (significant (tokens width (level + 1) t), t)
  have hfurther : ∀ p ∈ further, Reads .union p.1 p.2 := by
    intro p hp
    obtain ⟨t, ht, rfl⟩ := Option.map_eq_some_iff.1 hp
    exact (hindex t ht).union_of_levelOf
  have htokens : significant (tokens width level (.object ps index)) =
      .mark '\x7b' :: ((ps.map (lineOf width (level + 1))).flatMap PropertyLine.tokens ++
        (indexTokens further ++ [.mark '\x7d'])) := by
    cases index <;> simp [tokens, significant_blockTokens, significant_properties, further,
      indexTokens, indexLineTokens]
  have hproperties : ((ps.map (lineOf width (level + 1))).map PropertyLine.property).map
      (fun p => ({ p.1 with description := none }, p.2.normal)) =
      ps.map fun p => ({ p.1 with description := none }, p.2.normal) := by
    simp [Function.comp_def, lineOf, PropertyLine.property]
  have hindexTypes : (further.map Prod.snd).map normal = index.map normal := by
    cases index <;> rfl
  obtain ⟨properties, types, hderives, hnormal⟩ := Reads.exists_object hkeys htypes hfurther
  refine ⟨properties, types, htokens ▸ hderives, hnormal.trans ?_⟩
  rw [normal_object, normal_object, hproperties, hindexTypes]

end Forms

mutual

/-- **A printed type is derived as the tree that was printed.** -/
theorem readsBack (t : TypeExpr) (width level : Nat) (h : t.Everywhere Regular) :
    ReadsBack width level t := by
  cases t with
  | keyword word => exact (Reads.of_derives (.keyword h)).primary.levelOf
  | literal value =>
    have hliteral : Reads (levelOf (print width level (.literal value))) _ _ :=
      (Reads.of_derives (.literal value)).primary.levelOf
    unfold ReadsBack
    rwa [tokens, significant_literalTokens]
  | verbatim text => exact h.elim
  | union ms =>
    have hms := (Everywhere_union ms).1 h
    exact readsBack_union hms.1 (readsBackAll ms width level hms.2)
  | intersection ms =>
    have hms := (Everywhere_intersection ms).1 h
    exact readsBack_intersection hms.1 (readsBackAll ms width level hms.2)
  | array item => exact readsBack_array (readsBack item width level h.2)
  | tuple ts => exact readsBack_tuple (readsBackAll ts width level ((Everywhere_tuple ts).1 h).2)
  | object ps index =>
    obtain ⟨-, hps, hindex⟩ := (Everywhere_object ps index).1 h
    have hindexBack : ∀ t ∈ index, ReadsBack width (level + 1) t := by
      cases index with
      | none => exact nofun
      | some t =>
        rintro _ ⟨⟩
        exact readsBack t width (level + 1) (hindex t rfl)
    obtain ⟨properties, further, hderives, hnormal⟩ :=
      exists_object (readsBackProperties ps width (level + 1) hps) hindexBack
    exact ((Reads.of_derives hderives).congr hnormal).primary.levelOf
termination_by structural t

/-- The types of a list read back. -/
theorem readsBackAll (ts : List TypeExpr) (width level : Nat)
    (h : ∀ t ∈ ts, t.Everywhere Regular) : ∀ t ∈ ts, ReadsBack width level t := by
  match ts with
  | [] => exact nofun
  | t :: ts =>
    have ⟨ht, hts⟩ := List.forall_mem_cons.1 h
    exact List.forall_mem_cons.2 ⟨readsBack t width level ht, readsBackAll ts width level hts⟩
termination_by structural ts

/-- The types of properties read back. -/
theorem readsBackProperties (ps : List (PropertyHead × TypeExpr)) (width level : Nat)
    (h : ∀ p ∈ ps, p.2.Everywhere Regular) : ∀ p ∈ ps, ReadsBack width level p.2 := by
  match ps with
  | [] => exact nofun
  | (head, t) :: ps =>
    have ⟨ht, hps⟩ := List.forall_mem_cons.1 h
    exact List.forall_mem_cons.2
      ⟨readsBack t width level ht, readsBackProperties ps width level hps⟩
termination_by structural ps

end

end TypeExpr

end Blokwork.TypeScript
