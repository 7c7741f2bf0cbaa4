import Blokwork.Proofs.TypeScript.Headers

/-!
# Lines of a property

A property whose type has one line is printed on a line of its own, below a comment with a line for
each line of its description (`propertyLines`). No such line closes the declaration. The lines of
the comment end as those of the description do, so these are the only ones that can end with the
header of an interface (`exists_heads_propertyLines_iff`), and behind each of them the comment goes
on, with a star (`starsBehind_propertyLines`).
-/

namespace Blokwork.TypeScript

open Text

/-! ## Escaped comments -/

section Escaped

variable {c : Char} {w cs front back : List Char}

/-- A suffix without a character starts behind it. -/
theorem suffix_append_cons_iff (hw : c ∉ w) : w <:+ front ++ c :: back ↔ w <:+ back := by
  constructor
  · rintro ⟨before, h⟩
    rcases List.append_eq_append_iff.1 h with ⟨rest, -, hw'⟩ | ⟨rest, -, hback⟩
    · rw [hw'] at hw
      exact absurd (List.mem_append_right _ List.mem_cons_self) hw
    · cases rest with
      | nil =>
        rw [List.nil_append] at hback
        exact absurd (hback ▸ List.mem_cons_self) hw
      | cons d rest => exact ⟨rest, (List.cons.inj hback).2.symm⟩
  · exact fun h => h.trans ((List.suffix_cons c back).trans (List.suffix_append _ _))

/-- A suffix starts behind what its first character is not in. -/
theorem cons_suffix_append_iff (hc : c ∉ front) : c :: w <:+ front ++ back ↔ c :: w <:+ back := by
  constructor
  · rintro ⟨before, h⟩
    rcases List.append_eq_append_iff.1 h with ⟨rest, hfront, hw⟩ | ⟨rest, -, hback⟩
    · cases rest with
      | nil => exact ⟨[], hw⟩
      | cons d rest =>
        obtain rfl := (List.cons.inj hw).1
        exact absurd (hfront ▸ List.mem_append_right _ List.mem_cons_self) hc
    · exact ⟨rest, hback.symm⟩
  · exact fun h => h.trans (List.suffix_append _ _)

/-- Suffixes with the same last character are compared in front of it. -/
theorem suffix_concat_concat_iff : w ++ [c] <:+ cs ++ [c] ↔ w <:+ cs := by
  constructor
  · rintro ⟨before, h⟩
    rw [← List.append_assoc] at h
    exact ⟨before, List.append_cancel_right h⟩
  · rintro ⟨before, rfl⟩
    exact ⟨before, (List.append_assoc _ _ _).symm⟩

/-- It takes a slash for a text to need an escape. -/
theorem escapeClosers_of_not_mem (h : '/' ∉ cs) : escapeClosers cs = cs := by
  induction cs using escapeClosers.induct with
  | case1 rest ih => simp at h
  | case2 c rest hnot ih =>
    rw [List.mem_cons, not_or] at h
    rw [escapeClosers, ih h.2]
    exact hnot
  | case3 => rfl

/-- Slashes stay where they are; what the escape puts in stands in front of them. -/
theorem slash_mem_escapeClosers (h : '/' ∈ cs) : '/' ∈ escapeClosers cs := by
  induction cs using escapeClosers.induct with
  | case1 rest ih => simp [escapeClosers]
  | case2 c rest hnot ih =>
    rw [escapeClosers, List.mem_cons]
    · exact (List.mem_cons.1 h).imp_right ih
    · exact hnot
  | case3 => cases h

/-- Escaped text ends as the text does, with anything that has no slash. -/
theorem suffix_escapeClosers_iff (hw : '/' ∉ w) : w <:+ escapeClosers cs ↔ w <:+ cs := by
  induction cs using escapeClosers.induct with
  | case1 rest ih =>
    have hescaped : w <:+ ['*', '\\'] ++ '/' :: escapeClosers rest ↔ w <:+ escapeClosers rest :=
      suffix_append_cons_iff hw
    have hplain : w <:+ ['*'] ++ '/' :: rest ↔ w <:+ rest := suffix_append_cons_iff hw
    exact hescaped.trans (ih.trans hplain.symm)
  | case2 c rest hnot ih =>
    rw [escapeClosers, List.suffix_cons_iff, List.suffix_cons_iff, ih]
    · refine or_congr_left ⟨fun h => ?_, fun h => ?_⟩ <;> subst h <;>
        rw [List.mem_cons, not_or] at hw
      · rw [escapeClosers_of_not_mem fun hmem => hw.2 (slash_mem_escapeClosers hmem)]
      · rw [escapeClosers_of_not_mem hw.2]
    · exact hnot
  | case3 => rfl

end Escaped

/-! ## Lines of a comment -/

/-- The line shows something behind its indent, and does not close a declaration. -/
def IsInner (line : List Char) : Prop := ∃ pad c rest, (∀ d ∈ pad, d = ' ') ∧ c ≠ '\x7d' ∧
  '\n' ∉ c :: rest ∧ line = pad ++ c :: (rest ++ ['\n'])

namespace IsInner

variable {line : List Char}

/-- An inner line is a line. -/
theorem isLine (h : IsInner line) : IsLine line := by
  obtain ⟨pad, c, rest, hpad, -, hbreak, rfl⟩ := h
  refine ⟨pad ++ c :: rest, ?_, by simp⟩
  rw [List.mem_append, not_or]
  exact ⟨lineFeed_not_mem_spaces hpad, hbreak⟩

/-- An inner line is not the one that closes a block. -/
theorem ne_brace (h : IsInner line) : line ≠ ['\x7d', '\n'] := by
  obtain ⟨pad, c, rest, hpad, hc, -, rfl⟩ := h
  intro heq
  cases pad with
  | nil => exact hc (List.cons.inj heq).1
  | cons d pad =>
    obtain rfl := hpad d List.mem_cons_self
    cases (List.cons.inj heq).1

/-- An inner line is not empty. -/
theorem ne_lineFeed (h : IsInner line) : line ≠ ['\n'] := by
  obtain ⟨pad, c, rest, -, -, -, rfl⟩ := h
  intro heq
  have hlength := congrArg List.length heq
  rw [List.length_append, List.length_cons, List.length_append] at hlength
  simp only [List.length_singleton] at hlength
  omega

end IsInner

/-- Behind its indent the line starts with a star. -/
def IsStarred (line : List Char) : Prop := (line.dropWhile isBlankChar).head? = some '*'

/-- A line of a comment is one that starts with a star when the blank around it is left out. -/
theorem isStarred_iff {line : List Char} :
    IsStarred line ↔ (trimmed line).toList.head? = some '*' := by
  rw [IsStarred, toList_trimmed]
  constructor
  · intro h
    obtain ⟨rest, hrest⟩ := List.head?_eq_some_iff.1 h
    rw [hrest, dropBlankEnd_cons (by decide)]
    rfl
  · intro h
    obtain ⟨rest, hrest⟩ := List.head?_eq_some_iff.1 h
    obtain ⟨more, hmore⟩ := trimmed_prefix line
    rw [toList_trimmed, hrest] at hmore
    rw [← hmore]
    rfl

section Comment

variable {name line pad : String}

/-- A line of a comment has a star behind its indent. -/
theorem exists_commentLine (pad : String) (hline : '\n' ∉ line.toList) :
    ∃ rest, '\n' ∉ rest ∧
      (commentLine pad line).toList = pad.toList ++ ' ' :: '*' :: (rest ++ ['\n']) := by
  have hescaped : '\n' ∉ escapeClosers line.toList := fun hmem => by
    rcases mem_of_mem_escapeClosers hmem with hmem | hmem
    · exact hline hmem
    · cases hmem
  unfold commentLine
  dsimp only
  split
  · exact ⟨[], List.not_mem_nil, by simp⟩
  · refine ⟨' ' :: escapeClosers line.toList, ?_, by simp⟩
    rw [List.mem_cons, not_or]
    exact ⟨by decide, hescaped⟩

/-- The lines of a comment have their star behind the indent and a space. -/
theorem isStarred_indented (hpad : ∀ c ∈ pad.toList, c = ' ') (rest : List Char) :
    IsStarred (pad.toList ++ ' ' :: '*' :: rest) := by
  have hblank : ∀ c ∈ pad.toList, isBlankChar c = true := fun c hc => by rw [hpad c hc]; rfl
  rw [IsStarred, List.dropWhile_append_of_pos hblank]
  rfl

/-- A line of a comment ends with a header if the line that it shows does. -/
theorem heads_commentLine_iff (hpad : ∀ c ∈ pad.toList, c = ' ')
    (hname : isIdentifier name = true) : Heads name (commentLine pad line).toList ↔
      (interfaceHeader name).toList <:+ line.toList := by
  obtain ⟨rest, hrest⟩ := exists_interfaceHeader_eq_cons name
  have hslash : '/' ∉ (interfaceHeader name).toList :=
    not_mem_interfaceHeader hname (by decide) (by decide) (by decide)
  unfold commentLine
  dsimp only
  split
  · next hblank =>
    have htext : (pad ++ " *\n").toList = (pad.toList ++ [' ']) ++ ['*', '\n'] := by simp
    rw [htext]
    refine iff_of_false (not_heads_of_last (by decide) _) fun h => ?_
    rw [← suffix_escapeClosers_iff hslash, hrest] at h
    have hletter := List.all_eq_true.1 hblank 'e'
      (by rw [String.toList_ofList]; exact h.subset List.mem_cons_self)
    exact absurd hletter (by decide)
  · have htext : (pad ++ " * " ++ String.ofList (escapeClosers line.toList) ++ "\n").toList =
        pad.toList ++ [' ', '*', ' '] ++ escapeClosers line.toList ++ ['\n'] := by simp
    have hstart : 'e' ∉ pad.toList ++ [' ', '*', ' '] := by
      rw [List.mem_append, not_or]
      refine ⟨fun hmem => ?_, by decide⟩
      cases hpad _ hmem
    rw [htext, Heads, suffix_concat_concat_iff, hrest, cons_suffix_append_iff hstart, ← hrest,
      suffix_escapeClosers_iff hslash]

end Comment

/-! ## Lines with stars behind headers -/

/-- Behind each line with the header of that name stands another one, with a star. -/
def StarsBehind (name : String) (ls : List (List Char)) : Prop :=
  ∀ front line back, ls = front ++ line :: back → Heads name line →
    ∃ next more, back = next :: more ∧ IsStarred next

section Stars

variable {name : String} {ls ms : List (List Char)}

/-- There is nothing to ask of lines of which none is a header. -/
theorem starsBehind_of_forall_not (h : ∀ l ∈ ls, ¬ Heads name l) : StarsBehind name ls := by
  rintro front line back rfl hline
  exact absurd hline (h line (List.mem_append_right _ List.mem_cons_self))

/-- Behind a header in the first lines come the rest of these, and then the others. -/
theorem StarsBehind.append (hls : StarsBehind name ls) (hms : StarsBehind name ms) :
    StarsBehind name (ls ++ ms) := by
  intro front line back h hline
  rcases List.append_eq_append_iff.1 h with ⟨rest, -, hrest⟩ | ⟨rest, hfront, hrest⟩
  · exact hms rest line back hrest hline
  · cases rest with
    | nil => exact hms [] line back hrest.symm hline
    | cons l rest =>
      obtain ⟨rfl, rfl⟩ := List.cons.inj hrest
      obtain ⟨next, more, rfl, hnext⟩ := hls front _ rest hfront hline
      exact ⟨next, more ++ ms, rfl, hnext⟩

/-- Lines that are made part by part. -/
theorem starsBehind_flatMap {α : Type} {f : α → List (List Char)} {xs : List α}
    (h : ∀ x ∈ xs, StarsBehind name (f x)) : StarsBehind name (xs.flatMap f) := by
  induction xs with
  | nil => exact starsBehind_of_forall_not nofun
  | cons x xs ih =>
    obtain ⟨hx, hxs⟩ := List.forall_mem_cons.1 h
    exact hx.append (ih hxs)

/-- In front of a last line without the header all lines have stars. -/
theorem starsBehind_concat {last : List Char} (hlast : ¬ Heads name last) (hstar : IsStarred last)
    (h : ∀ l ∈ ls, IsStarred l) : StarsBehind name (ls ++ [last]) := by
  intro front line back heq hline
  cases back with
  | nil =>
    obtain ⟨-, rfl⟩ := List.append_inj' heq rfl |>.imp_right List.singleton_inj.1
    exact absurd hline hlast
  | cons next more =>
    have hmem : next ∈ ls ++ [last] := by
      rw [heq]
      exact List.mem_append_right _ (List.mem_cons_of_mem _ List.mem_cons_self)
    refine ⟨next, more, rfl, ?_⟩
    rcases List.mem_append.1 hmem with hmem | hmem
    · exact h next hmem
    · rw [List.mem_singleton.1 hmem]
      exact hstar

end Stars

/-! ## Types in one line -/

namespace TypeExpr

/-- The type is printed in one line. -/
def OneLine (t : TypeExpr) : Prop := ∀ width level, '\n' ∉ (t.print width level).toList

/-- A keyword is on one line. -/
theorem oneLine_keyword {word : String} (h : word ∈ typeKeywords) : (keyword word).OneLine :=
  fun _ _ => lineFeed_not_mem_typeKeyword h

/-- What is given for a value without a type is on one line. -/
theorem oneLine_untyped (options : CompileOptions) : options.untyped.OneLine := by
  obtain ⟨word, hword, heq⟩ := untyped_mem_typeKeywords options
  rw [heq]
  exact oneLine_keyword hword

/-- The type of some values. -/
theorem oneLine_values (values : List Json) : (oneOf (values.map literal)).OneLine := by
  cases values with
  | nil => exact oneLine_keyword (by decide)
  | cons value values =>
    intro width level
    have hunion : oneOf ((value :: values).map literal) =
        union ((value :: values).map literal) := rfl
    rw [hunion, print, printAll_eq, List.map_map]
    exact lineFeed_not_mem_intercalate (by decide)
      (List.forall_mem_map.2 fun value _ => lineFeed_not_mem_compact value)

/-- An array is on one line if its item is. -/
theorem OneLine.array {t : TypeExpr} (h : t.OneLine) : t.array.OneLine := fun width level => by
  rw [print, printArray]
  split
  · exact lineFeed_not_mem_enclosed _ _ (by decide) (by decide) (h width level)
  · rw [String.toList_append, List.mem_append, not_or]
    exact ⟨h width level, by decide⟩

end TypeExpr

/-! ## Lines of a property -/

/-- The lines of the comment on a description. -/
def commentLines (pad : String) : Option String → List (List Char)
  | none => []
  | some text =>
    (pad ++ "/**\n").toList
      :: ((lines text).map (fun line => (commentLine pad line).toList) ++
        [(pad ++ " */\n").toList])

/-- The lines of a property whose type has one line. -/
def propertyLines (pad : String) (head : PropertyHead) (type : String) : List (List Char) :=
  commentLines pad head.description
    ++ [(pad ++ TypeExpr.propertyStart head ++ ": " ++ type ++ ";\n").toList]

/-- A comment consists of its lines. -/
theorem toList_docComment (text pad : String) :
    (docComment text pad).toList = (commentLines pad (some text)).flatten := by
  simp [docComment, commentLines, List.flatMap, Function.comp_def]

/-- A property consists of the lines of its comment and its own. -/
theorem toList_printProperty (pad : String) (head : PropertyHead) (type : String) :
    (TypeExpr.printProperty pad head type).toList = (propertyLines pad head type).flatten := by
  unfold TypeExpr.printProperty propertyLines
  cases head.description with
  | none => simp [commentLines, TypeExpr.propertyStart]
  | some text =>
    rw [List.flatten_append, ← toList_docComment]
    simp [TypeExpr.propertyStart]

/-- The letters stand in two ranges. -/
theorem toNat_of_isAlpha {c : Char} (h : c.isAlpha = true) :
    ('A'.toNat ≤ c.toNat ∧ c.toNat ≤ 'Z'.toNat) ∨ ('a'.toNat ≤ c.toNat ∧ c.toNat ≤ 'z'.toNat) := by
  rcases (Bool.or_eq_true_iff.1 h : c.isUpper = true ∨ c.isLower = true) with hupper | hlower
  · exact .inl (of_decide_eq_true hupper)
  · obtain ⟨hlow, hhigh⟩ := Bool.and_eq_true_iff.1 hlower
    exact .inr ⟨of_decide_eq_true hlow, of_decide_eq_true hhigh⟩

/-- What starts an identifier shows. -/
theorem isBlankChar_of_isIdentifierStart {c : Char} (h : isIdentifierStart c = true) :
    isBlankChar c = false := by
  have hshown : 0x21 ≤ c.toNat ∧ c.toNat ≤ 0x7e := by
    simp only [isIdentifierStart, Bool.or_eq_true, decide_eq_true_eq] at h
    rcases h with (hletter | rfl) | rfl
    · have hranges := toNat_of_isAlpha hletter
      simp at hranges
      omega
    · decide
    · decide
  simp [isBlankChar, blankRanges]
  omega

/-- A key starts with a letter or a quote. -/
theorem exists_propertyStart (head : PropertyHead) : ∃ c rest,
    (TypeExpr.propertyStart head).toList = c :: rest ∧ (isIdentifierStart c = true ∨ c = '"') ∧
      '\n' ∉ c :: rest := by
  have hbreak : '\n' ∉ (TypeExpr.propertyStart head).toList := by
    rw [TypeExpr.propertyStart, String.toList_append, List.mem_append, not_or]
    refine ⟨lineFeed_not_mem_propertyKey _, ?_⟩
    split <;> decide
  obtain ⟨c, rest, hkey, hc⟩ : ∃ c rest, (TypeExpr.propertyKey head.key).toList = c :: rest ∧
      (isIdentifierStart c = true ∨ c = '"') := by
    unfold TypeExpr.propertyKey
    split
    · next h =>
      obtain ⟨c, rest, hchars, hc, -⟩ := isIdentifierStart_of_isIdentifier h
      exact ⟨c, rest, hchars, .inl hc⟩
    · exact ⟨'"', _, Json.toList_quote _, .inr rfl⟩
  refine ⟨c, rest ++ (if head.optional then "?" else "").toList, ?_, hc, ?_⟩
  · rw [TypeExpr.propertyStart, String.toList_append, hkey, List.cons_append]
  · rw [TypeExpr.propertyStart, String.toList_append, hkey, List.cons_append] at hbreak
    exact hbreak

/-- The line that opens a comment is no header. -/
theorem not_heads_commentOpen (name pad : String) : ¬ Heads name (pad ++ "/**\n").toList := by
  have htext : (pad ++ "/**\n").toList = (pad.toList ++ ['/', '*']) ++ ['*', '\n'] := by simp
  rw [htext]
  exact not_heads_of_last (by decide) _

/-- The line that closes a comment is no header. -/
theorem not_heads_commentClose (name pad : String) : ¬ Heads name (pad ++ " */\n").toList := by
  have htext : (pad ++ " */\n").toList = (pad.toList ++ [' ', '*']) ++ ['/', '\n'] := by simp
  rw [htext]
  exact not_heads_of_last (by decide) _

/-- A line that ends with a semicolon is no header. -/
theorem not_heads_semicolon (name text : String) : ¬ Heads name (text ++ ";\n").toList := by
  have hlist : (text ++ ";\n").toList = text.toList ++ [';', '\n'] := by simp
  rw [hlist]
  exact not_heads_of_last (by decide) _

section Property

variable {name pad type : String} {head : PropertyHead} (hpad : ∀ c ∈ pad.toList, c = ' ')

include hpad

/-- The lines of a comment are inner ones: behind the indent stands a slash or a star. -/
theorem isInner_of_mem_commentLines {description : Option String} {l : List Char}
    (h : l ∈ commentLines pad description) : IsInner l := by
  cases description with
  | none => cases h
  | some text =>
    rcases List.mem_cons.1 h with rfl | h
    · exact ⟨pad.toList, '/', ['*', '*'], hpad, by decide, by decide, by simp⟩
    rcases List.mem_append.1 h with h | h
    · obtain ⟨line, hline, rfl⟩ := List.mem_map.1 h
      obtain ⟨rest, hrest, htext⟩ := exists_commentLine pad (lineFeed_not_mem_lines hline)
      refine ⟨pad.toList, ' ', '*' :: rest, hpad, by decide, ?_, htext⟩
      simp only [List.mem_cons, not_or]
      exact ⟨by decide, by decide, hrest⟩
    · rw [List.mem_singleton.1 h]
      exact ⟨pad.toList, ' ', ['*', '/'], hpad, by decide, by decide, by simp⟩

/-- The lines of a property are inner ones if its type is on one line. -/
theorem isInner_of_mem_propertyLines (htype : '\n' ∉ type.toList) {l : List Char}
    (h : l ∈ propertyLines pad head type) : IsInner l := by
  rcases List.mem_append.1 h with h | h
  · exact isInner_of_mem_commentLines hpad h
  · obtain rfl := List.mem_singleton.1 h
    obtain ⟨c, rest, hstart, hc, hbreak⟩ := exists_propertyStart head
    refine ⟨pad.toList, c, rest ++ [':', ' '] ++ type.toList ++ [';'], hpad, ?_, ?_, ?_⟩
    · rintro rfl
      exact hc.elim nofun nofun
    · rw [← List.cons_append, ← List.cons_append, ← List.cons_append]
      simp only [List.mem_append, not_or]
      exact ⟨⟨⟨hbreak, by decide⟩, htype⟩, by decide⟩
    · simp [hstart]

/-- The lines of a property that end with a header are those of its description. -/
theorem exists_heads_propertyLines_iff (hname : isIdentifier name = true) :
    (∃ l ∈ propertyLines pad head type, Heads name l) ↔
      ∃ text ∈ head.description, ∃ line ∈ lines text,
        (interfaceHeader name).toList <:+ line.toList := by
  constructor
  · rintro ⟨l, hl, hheads⟩
    rcases List.mem_append.1 hl with hl | hl
    · cases hdescription : head.description with
      | none => rw [hdescription] at hl; cases hl
      | some text =>
        rw [hdescription] at hl
        rcases List.mem_cons.1 hl with rfl | hl
        · exact absurd hheads (not_heads_commentOpen name pad)
        rcases List.mem_append.1 hl with hl | hl
        · obtain ⟨line, hline, rfl⟩ := List.mem_map.1 hl
          exact ⟨text, rfl, line, hline, (heads_commentLine_iff hpad hname).1 hheads⟩
        · rw [List.mem_singleton.1 hl] at hheads
          exact absurd hheads (not_heads_commentClose name pad)
    · rw [List.mem_singleton.1 hl] at hheads
      exact absurd hheads (not_heads_semicolon name _)
  · rintro ⟨text, htext, line, hline, hends⟩
    refine ⟨(commentLine pad line).toList, List.mem_append_left _ ?_,
      (heads_commentLine_iff hpad hname).2 hends⟩
    rw [Option.mem_def.1 htext]
    exact List.mem_cons_of_mem _ (List.mem_append_left _ (List.mem_map_of_mem hline))

/-- Behind a line of a comment that ends like a header the comment goes on. -/
theorem starsBehind_commentLines (name : String) (description : Option String) :
    StarsBehind name (commentLines pad description) := by
  cases description with
  | none => exact starsBehind_of_forall_not nofun
  | some text =>
    have hopen : StarsBehind name [(pad ++ "/**\n").toList] :=
      starsBehind_of_forall_not (List.forall_mem_singleton.2 (not_heads_commentOpen name pad))
    refine hopen.append (starsBehind_concat (not_heads_commentClose name pad) ?_
      (List.forall_mem_map.2 fun line hline => ?_))
    · have htext : (pad ++ " */\n").toList = pad.toList ++ ' ' :: '*' :: ['/', '\n'] := by simp
      rw [htext]
      exact isStarred_indented hpad _
    · obtain ⟨rest, -, htext⟩ := exists_commentLine pad (lineFeed_not_mem_lines hline)
      rw [htext]
      exact isStarred_indented hpad _

/-- Behind a header among the lines of a property its comment goes on. -/
theorem starsBehind_propertyLines (name : String) :
    StarsBehind name (propertyLines pad head type) :=
  (starsBehind_commentLines hpad name head.description).append
    (starsBehind_of_forall_not (List.forall_mem_singleton.2 (not_heads_semicolon name _)))

/-- The first line of a property has no star. -/
theorem exists_propertyLines_eq_cons : ∃ first rest,
    propertyLines pad head type = first :: rest ∧ ¬ IsStarred first := by
  have hfirst {c : Char} (hblank : isBlankChar c = false) (hc : c ≠ '*') (rest : List Char) :
      ¬ IsStarred (pad.toList ++ c :: rest) := by
    have hspaces : ∀ d ∈ pad.toList, isBlankChar d = true := fun d hd => by rw [hpad d hd]; rfl
    rw [IsStarred, List.dropWhile_append_of_pos hspaces,
      List.dropWhile_cons_of_neg (by simp [hblank])]
    exact fun h => hc (Option.some.inj h)
  unfold propertyLines
  cases head.description with
  | none =>
    obtain ⟨c, rest, hstart, hc, hbreak⟩ := exists_propertyStart head
    refine ⟨_, [], rfl, ?_⟩
    have htext : (pad ++ TypeExpr.propertyStart head ++ ": " ++ type ++ ";\n").toList =
        pad.toList ++ c :: (rest ++ (": " ++ type ++ ";\n").toList) := by simp [hstart]
    rw [htext]
    refine hfirst ?_ ?_ _
    · rcases hc with hc | rfl
      · exact isBlankChar_of_isIdentifierStart hc
      · decide
    · rintro rfl
      exact hc.elim nofun nofun
  | some text =>
    refine ⟨_, _, rfl, ?_⟩
    have htext : (pad ++ "/**\n").toList = pad.toList ++ '/' :: ['*', '*', '\n'] := by simp
    rw [htext]
    exact hfirst (by decide) (by decide) _

end Property

/-! ## Lines of an object -/

section Object

variable {width level : Nat} {ps : List (PropertyHead × TypeExpr)} {index : Option TypeExpr}

/-- The lines of an object whose types have one line each. -/
def objectRows (width level : Nat) (ps : List (PropertyHead × TypeExpr))
    (index : Option TypeExpr) : List (List Char) :=
  ps.flatMap (fun p => propertyLines (TypeExpr.pad width level) p.1 (p.2.print width level))
    ++ (index.map fun t =>
      (TypeExpr.printIndex (TypeExpr.pad width level) (t.print width level)).toList).toList

/-- The inside of an object consists of the rows of its properties and of further keys. -/
theorem toList_objectLines (width level : Nat) (ps : List (PropertyHead × TypeExpr))
    (index : Option TypeExpr) : (TypeExpr.objectLines width level ps index).toList =
      (objectRows width level ps index).flatten := by
  have hproperties : (String.join (TypeExpr.printProperties width level ps)).toList =
      (ps.flatMap fun p =>
        propertyLines (TypeExpr.pad width level) p.1 (p.2.print width level)).flatten := by
    induction ps with
    | nil => rfl
    | cons p ps ih =>
      rw [TypeExpr.printProperties, String.join_cons, String.toList_append, toList_printProperty,
        ih, List.flatMap_cons, List.flatten_append]
  unfold TypeExpr.objectLines
  rw [String.toList_append, hproperties, objectRows, List.flatten_append]
  cases index with
  | none => rfl
  | some t => exact congrArg _ (List.append_nil _).symm

/-- The rows of an object are inner ones if its types are on one line. -/
theorem isInner_of_mem_objectRows (hps : ∀ p ∈ ps, p.2.OneLine) (hindex : ∀ t ∈ index, t.OneLine)
    {l : List Char} (h : l ∈ objectRows width level ps index) : IsInner l := by
  rcases List.mem_append.1 h with h | h
  · obtain ⟨p, hp, hl⟩ := List.mem_flatMap.1 h
    exact isInner_of_mem_propertyLines (fun _ => eq_space_of_mem_pad) (hps p hp width level) hl
  · obtain ⟨t, ht, rfl⟩ := Option.map_eq_some_iff.1 (Option.mem_toList.1 h)
    refine ⟨(TypeExpr.pad width level).toList, '[',
      "k: string]: ".toList ++ (t.print width level).toList ++ [';'], fun _ => eq_space_of_mem_pad,
      by decide, ?_, ?_⟩
    · simp only [List.mem_cons, List.mem_append, not_or]
      exact ⟨by decide, ⟨by decide, hindex t ht width level⟩, by decide, List.not_mem_nil⟩
    · have htext (pad type : String) : (TypeExpr.printIndex pad type).toList =
          pad.toList ++ '[' :: ("k: string]: ".toList ++ type.toList ++ [';'] ++ ['\n']) := by
        simp [TypeExpr.printIndex]
      exact htext _ _

/-- The line of further keys is no header. -/
theorem not_heads_printIndex (name pad type : String) :
    ¬ Heads name (TypeExpr.printIndex pad type).toList :=
  not_heads_semicolon name (pad ++ "[k: string]: " ++ type)

/-- Behind a header among the rows of an object a comment goes on. -/
theorem starsBehind_objectRows (name : String) :
    StarsBehind name (objectRows width level ps index) := by
  refine (starsBehind_flatMap fun p _ => starsBehind_propertyLines (fun _ => eq_space_of_mem_pad)
    name).append (starsBehind_of_forall_not fun l hl => ?_)
  obtain ⟨t, -, rfl⟩ := Option.map_eq_some_iff.1 (Option.mem_toList.1 hl)
  exact not_heads_printIndex name _ _

/-- The lines of an object that end with a header are those of descriptions. -/
theorem exists_heads_objectRows_iff {name : String} (hname : isIdentifier name = true) :
    (∃ l ∈ objectRows width level ps index, Heads name l) ↔
      ∃ p ∈ ps, ∃ text ∈ p.1.description, ∃ line ∈ lines text,
        (interfaceHeader name).toList <:+ line.toList := by
  constructor
  · rintro ⟨l, hl, hheads⟩
    rcases List.mem_append.1 hl with hl | hl
    · obtain ⟨p, hp, hl⟩ := List.mem_flatMap.1 hl
      exact ⟨p, hp, (exists_heads_propertyLines_iff (fun _ => eq_space_of_mem_pad) hname).1
        ⟨l, hl, hheads⟩⟩
    · obtain ⟨t, -, rfl⟩ := Option.map_eq_some_iff.1 (Option.mem_toList.1 hl)
      exact absurd hheads (not_heads_printIndex name _ _)
  · rintro ⟨p, hp, hdescribed⟩
    obtain ⟨l, hl, hheads⟩ :=
      (@exists_heads_propertyLines_iff name (TypeExpr.pad width level) (p.2.print width level) p.1
        (fun _ => eq_space_of_mem_pad) hname).2 hdescribed
    exact ⟨l, List.mem_append_left _ (List.mem_flatMap.2 ⟨p, hp, hl⟩), hheads⟩

/-- The first line of an object has no star. -/
theorem exists_objectRows_eq_cons (hps : ps ≠ []) : ∃ first rest,
    objectRows width level ps index = first :: rest ∧ ¬ IsStarred first := by
  obtain ⟨p, ps, rfl⟩ := List.exists_cons_of_ne_nil hps
  obtain ⟨first, rest, hrows, hfirst⟩ :=
    @exists_propertyLines_eq_cons (TypeExpr.pad width level) (p.2.print width level) p.1
      fun _ => eq_space_of_mem_pad
  have hall : ∃ more, objectRows width level (p :: ps) index = first :: more := by
    rw [objectRows, List.flatMap_cons, hrows]
    exact ⟨_, rfl⟩
  obtain ⟨more, hmore⟩ := hall
  exact ⟨first, more, hmore, hfirst⟩

/-- The lines of an interface whose types have one line each. -/
theorem Declaration.rawLines_of_oneLine {d : Declaration} (hform : d.form = .interfaceForm)
    (hbody : d.body = .object ps index) (hname : isIdentifier d.name = true) (hne : ps ≠ [])
    (hps : ∀ p ∈ ps, p.2.OneLine) (hindex : ∀ t ∈ index, t.OneLine) :
    rawLines (d.line width).toList = ((interfaceHeader d.name).toList ++ ['\n'])
      :: (objectRows width 1 ps index ++ [['\x7d', '\n']]) := by
  rw [toList_line_of_interface hform hbody hne, toList_objectLines]
  have hheader : IsLine ((interfaceHeader d.name).toList ++ ['\n']) :=
    ⟨_, lineFeed_not_mem_interfaceHeader hname, rfl⟩
  have hbrace : IsLine ['\x7d', '\n'] := ⟨['\x7d'], by decide, rfl⟩
  have hlines : ∀ l ∈ objectRows width 1 ps index ++ [['\x7d', '\n']], IsLine l := by
    intro l hl
    rcases List.mem_append.1 hl with hl | hl
    · exact (isInner_of_mem_objectRows hps hindex hl).isLine
    · exact List.mem_singleton.1 hl ▸ hbrace
  rw [rawLines_line_append hheader, ← rawLines_flatten hlines, List.flatten_append,
    List.flatten_singleton]

end Object

end Blokwork.TypeScript
