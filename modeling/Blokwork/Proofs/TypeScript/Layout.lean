import Blokwork.Proofs.Text.Lines
import Blokwork.Proofs.TypeScript.Names

/-!
# Lines of a declaration

Descriptions, keys and values stand in a printed type behind something else: a star, a quote or the
key of a property. So every line of it but the first shows something, and none opens a declaration
(`TypeExpr.laidOut_print`), as long as the texts in it that are taken as they are have one line. Of
the lines of a declaration the first one opens it, and no other opens any
(`Declaration.opens_line`).
-/

namespace Blokwork.TypeScript

open Text

/-! ## Starts of lines -/

/-- The word that opens a declaration, with the blank behind it. -/
def exportWord : List Char := "export ".toList

/-- The text starts a line within a declaration: one that shows something and opens no declaration,
whatever is written behind it. -/
def StartsWithin (r : List Char) : Prop :=
  ∃ start rest, r = start ++ rest ∧ '\n' ∉ start ∧ (∃ c ∈ start, isBlankChar c = false) ∧
    ∀ more, ¬ exportWord <+: start ++ more

theorem isIdentifierPart_of_mem {name : String} (h : isIdentifier name = true) {c : Char}
    (hc : c ∈ name.toList) : isIdentifierPart c = true := by
  obtain ⟨first, rest, heq, hfirst, hrest⟩ := isIdentifierStart_of_isIdentifier h
  rw [heq] at hc
  rcases List.mem_cons.1 hc with rfl | hc
  · simp only [isIdentifierStart, isIdentifierPart, Char.isAlphanum, Bool.or_eq_true] at hfirst ⊢
    exact hfirst.imp_left (.imp_left .inl)
  · exact List.all_eq_true.1 hrest c hc

/-- A name ends where something else than a name stands. -/
theorem identifier_ends {name other : String} (hname : isIdentifier name = true)
    (hother : isIdentifier other = true) {c d : Char} (hc : isIdentifierPart c = false)
    (hd : isIdentifierPart d = false) {rest more : List Char}
    (h : name.toList ++ c :: rest = other.toList ++ d :: more) : name = other ∧ c = d := by
  have htake {name : String} (hname : isIdentifier name = true) {c : Char}
      (hc : isIdentifierPart c = false) (rest : List Char) :
      (name.toList ++ c :: rest).takeWhile isIdentifierPart = name.toList := by
    rw [List.takeWhile_append_of_pos fun _ => isIdentifierPart_of_mem hname,
      List.takeWhile_cons_of_neg (by simp [hc]), List.append_nil]
  have hsame := congrArg (List.takeWhile isIdentifierPart) h
  rw [htake hname hc, htake hother hd] at hsame
  rw [hsame] at h
  exact ⟨String.toList_injective hsame, (List.cons.inj (List.append_cancel_left h)).1⟩

namespace StartsWithin

variable {r : List Char}

theorem append (h : StartsWithin r) (more : List Char) : StartsWithin (r ++ more) := by
  obtain ⟨start, rest, rfl, hstart⟩ := h
  exact ⟨start, rest ++ more, List.append_assoc _ _ _, hstart⟩

/-- What holds of the start of a line holds of the line. -/
theorem firstLine (h : StartsWithin r) :
    (∃ c ∈ Text.firstLine r, isBlankChar c = false) ∧
      ∀ more, ¬ exportWord <+: Text.firstLine r ++ more := by
  obtain ⟨start, rest, rfl, hbreak, ⟨c, hc, hblank⟩, hopens⟩ := h
  rw [firstLine_append hbreak]
  refine ⟨⟨c, List.mem_append_left _ hc, hblank⟩, fun more => ?_⟩
  rw [List.append_assoc]
  exact hopens _

/-- A character that shows and does not start the word. -/
theorem of_char {c : Char} (hblank : isBlankChar c = false) (he : c ≠ 'e') (rest : List Char) :
    StartsWithin (c :: rest) := by
  refine ⟨[c], rest, rfl, ?_, ⟨c, List.mem_singleton_self c, hblank⟩, fun more h => ?_⟩
  · rw [List.mem_singleton]
    rintro rfl
    cases hblank
  · exact he (List.cons_prefix_cons.1 h).1.symm

/-- A name before something other than a blank. -/
theorem of_identifier {name : String} (hname : isIdentifier name = true) {c : Char}
    (hpart : isIdentifierPart c = false) (hblank : isBlankChar c = false) (rest : List Char) :
    StartsWithin (name.toList ++ c :: rest) := by
  have hbreak {d : Char} (hd : isBlankChar d = false) : d ≠ '\n' := by
    rintro rfl
    cases hd
  refine ⟨name.toList ++ [c], rest, by simp, ?_, ⟨c, by simp, hblank⟩, fun more h => ?_⟩
  · rw [List.mem_append, List.mem_singleton, not_or]
    refine ⟨fun hmem => ?_, (hbreak hblank).symm⟩
    cases isIdentifierPart_of_mem hname hmem
  · obtain ⟨after, hafter⟩ := h
    have hexport : exportWord ++ after = "export".toList ++ ' ' :: after := rfl
    rw [hexport, List.append_assoc] at hafter
    obtain ⟨-, rfl⟩ := identifier_ends (by decide) hname (by decide) hpart hafter
    cases hblank

/-- An indent changes nothing. -/
theorem indented {pad : List Char} (hpad : ∀ c ∈ pad, c = ' ') (h : StartsWithin r) :
    StartsWithin (pad ++ r) := by
  cases pad with
  | nil => exact h
  | cons c pad =>
    obtain ⟨start, rest, rfl, hbreak, ⟨d, hd, hblank⟩, -⟩ := h
    refine ⟨c :: pad ++ start, rest, (List.append_assoc _ _ _).symm, ?_,
      ⟨d, List.mem_append_right _ hd, hblank⟩, fun more h => ?_⟩
    · rw [List.mem_append, not_or]
      refine ⟨fun hmem => ?_, hbreak⟩
      cases hpad '\n' hmem
    · obtain rfl := hpad c List.mem_cons_self
      cases (List.cons_prefix_cons.1 h).1

end StartsWithin

/-! ## Parts of a declaration -/

/-- All lines of the text but the first start within a declaration. -/
structure LaidOut (s : String) : Prop where
  breaks : BreaksBefore StartsWithin s.toList

/-- The rest of a declaration from the start of a line on. -/
def Continues (r : List Char) : Prop := StartsWithin r ∧ BreaksBefore StartsWithin r

/-- Lines in front of the rest of a declaration. -/
def FullLines (s : String) : Prop := ∀ r, Continues r → Continues (s.toList ++ r)

section Parts

variable {s t pad : String}

theorem laidOut_of_not_mem (h : '\n' ∉ s.toList) : LaidOut s := ⟨breaksBefore_of_not_mem h⟩

theorem LaidOut.append (hs : LaidOut s) (ht : LaidOut t) : LaidOut (s ++ t) := by
  refine ⟨?_⟩
  rw [String.toList_append]
  exact hs.breaks.append (fun h => h.append _) ht.breaks

theorem laidOut_enclosed (opening closing : String) (hopening : '\n' ∉ opening.toList)
    (hclosing : '\n' ∉ closing.toList) (h : LaidOut s) : LaidOut (opening ++ s ++ closing) :=
  ((laidOut_of_not_mem hopening).append h).append (laidOut_of_not_mem hclosing)

theorem laidOut_intercalate {separator : String} (hseparator : LaidOut separator)
    {parts : List String} (h : ∀ p ∈ parts, LaidOut p) :
    LaidOut (String.intercalate separator parts) := by
  induction parts with
  | nil => exact laidOut_of_not_mem List.not_mem_nil
  | cons first parts ih =>
    obtain ⟨hfirst, hrest⟩ := List.forall_mem_cons.1 h
    cases parts with
    | nil => rwa [String.intercalate_singleton]
    | cons second parts =>
      rw [String.intercalate_cons_cons]
      exact (hfirst.append hseparator).append (ih hrest)

theorem FullLines.append (hs : FullLines s) (ht : FullLines t) : FullLines (s ++ t) := by
  intro r hr
  rw [String.toList_append, List.append_assoc]
  exact hs _ (ht r hr)

theorem fullLines_join {parts : List String} (h : ∀ p ∈ parts, FullLines p) :
    FullLines (String.join parts) := by
  induction parts with
  | nil => exact fun r hr => hr
  | cons first parts ih =>
    obtain ⟨hfirst, hrest⟩ := List.forall_mem_cons.1 h
    rw [String.join_cons]
    exact hfirst.append (ih hrest)

/-- A line behind an indent. -/
theorem fullLines_line (line : List Char) (htext : s.toList = pad.toList ++ (line ++ ['\n']))
    (hpad : ∀ c ∈ pad.toList, c = ' ') (hstart : StartsWithin line)
    (h : BreaksBefore StartsWithin line) : FullLines s := by
  intro r hr
  have hspaces : BreaksBefore StartsWithin pad.toList := by
    refine breaksBefore_of_not_mem fun hmem => ?_
    cases hpad '\n' hmem
  have happend {a b : List Char} (h : StartsWithin a) : StartsWithin (a ++ b) := h.append b
  rw [htext, List.append_assoc, List.append_assoc]
  refine ⟨(hstart.append _).indented hpad, hspaces.append happend ?_⟩
  exact h.append happend ⟨fun _ => hr.1, hr.2⟩

end Parts

/-! ## Comments -/

theorem mem_of_mem_escapeClosers {c : Char} {cs : List Char} (h : c ∈ escapeClosers cs) :
    c ∈ cs ∨ c = '\\' := by
  induction cs using escapeClosers.induct with
  | case1 rest ih =>
    simp only [escapeClosers, List.mem_cons] at h ⊢
    rcases h with h | h | h | h
    · exact .inl (.inl h)
    · exact .inr h
    · exact .inl (.inr (.inl h))
    · exact (ih h).imp_left fun h => .inr (.inr h)
  | case2 d rest hnot ih =>
    rw [escapeClosers, List.mem_cons] at h
    · rcases h with rfl | h
      · exact .inl List.mem_cons_self
      · exact (ih h).imp_left (List.mem_cons_of_mem d)
    · exact hnot
  | case3 => cases h

/-- A comment has full lines, whatever is described. -/
theorem fullLines_docComment (text : String) {pad : String} (hpad : ∀ c ∈ pad.toList, c = ' ') :
    FullLines (docComment text pad) := by
  have hslash (rest : List Char) : StartsWithin ('/' :: rest) := .of_char (by decide) (by decide) _
  have hstar (rest : List Char) : StartsWithin (' ' :: '*' :: rest) := by
    have hshown : StartsWithin ('*' :: rest) := .of_char (by decide) (by decide) _
    exact hshown.indented (List.forall_mem_singleton.2 rfl)
  have hopen : FullLines (pad ++ "/**\n") :=
    fullLines_line "/**".toList (by simp) hpad (hslash _) (breaksBefore_of_not_mem (by decide))
  have hclose : FullLines (pad ++ " */\n") :=
    fullLines_line " */".toList (by simp) hpad (hstar _) (breaksBefore_of_not_mem (by decide))
  have hline : ∀ line ∈ Text.lines text, FullLines (commentLine pad line) := by
    intro line hline
    unfold commentLine
    dsimp only
    split
    · exact fullLines_line " *".toList (by simp) hpad (hstar _)
        (breaksBefore_of_not_mem (by decide))
    · refine fullLines_line (" * ".toList ++ escapeClosers line.toList) (by simp) hpad (hstar _)
        (breaksBefore_of_not_mem fun hmem => ?_)
      rcases List.mem_append.1 hmem with hmem | hmem
      · exact absurd hmem (by decide)
      · rcases mem_of_mem_escapeClosers hmem with hmem | hmem
        · exact lineFeed_not_mem_lines hline hmem
        · cases hmem
  have hlines := fullLines_join (List.forall_mem_map.2 hline)
  have hall := (hopen.append hlines).append hclose
  rwa [← String.append_assoc] at hall

/-! ## Types -/

theorem lineFeed_not_mem_escapeChar (c : Char) : '\n' ∉ Json.escapeChar c := by
  unfold Json.escapeChar
  split_ifs with _ _ _ _ hbreak _ _ hcontrol
  any_goals decide
  · have hhigh := hexDigit_plain (c.toNat / 16) (by omega)
    have hlow := hexDigit_plain (c.toNat % 16) (Nat.mod_lt _ (by decide))
    simp [Ne.symm hhigh.2.2.1, Ne.symm hlow.2.2.1]
  · rw [List.mem_singleton]
    exact Ne.symm hbreak

theorem lineFeed_not_mem_quote (s : String) : '\n' ∉ (Json.quote s).toList := by
  rw [Json.toList_quote, List.mem_cons, List.mem_append, List.mem_flatMap, not_or, not_or]
  refine ⟨by decide, ?_, by decide⟩
  rintro ⟨c, -, hc⟩
  exact lineFeed_not_mem_escapeChar c hc

theorem lineFeed_not_mem_propertyKey (key : String) :
    '\n' ∉ (TypeExpr.propertyKey key).toList := by
  unfold TypeExpr.propertyKey
  split
  · next h =>
    intro hmem
    cases isIdentifierPart_of_mem h hmem
  · exact lineFeed_not_mem_quote key

section Printed

variable {type pad : String}

/-- A property has full lines, whatever its key is. -/
theorem fullLines_printProperty (hpad : ∀ c ∈ pad.toList, c = ' ') (head : PropertyHead)
    (h : LaidOut type) : FullLines (TypeExpr.printProperty pad head type) := by
  obtain ⟨key, description, optional⟩ := head
  obtain ⟨c, rest, hmark, hpart, hblank, hrest⟩ : ∃ c rest,
      ((if optional then "?" else "") ++ ": ").toList = c :: rest ∧
        isIdentifierPart c = false ∧ isBlankChar c = false ∧ '\n' ∉ c :: rest := by
    cases optional
    · exact ⟨':', [' '], rfl, by decide, by decide, by decide⟩
    · exact ⟨'?', [':', ' '], rfl, by decide, by decide, by decide⟩
  have hkey (more : List Char) :
      StartsWithin ((TypeExpr.propertyKey key).toList ++ (c :: rest ++ more)) := by
    unfold TypeExpr.propertyKey
    split
    · next h => exact .of_identifier h hpart hblank _
    · rw [Json.toList_quote]
      exact .of_char (by decide) (by decide) _
  have happend {a b : List Char} (h : StartsWithin a) : StartsWithin (a ++ b) := h.append b
  have hbreaks : BreaksBefore StartsWithin ((TypeExpr.propertyKey key).toList
      ++ (c :: rest ++ (type.toList ++ [';']))) := by
    refine BreaksBefore.append happend
      (breaksBefore_of_not_mem (lineFeed_not_mem_propertyKey key)) ?_
    refine BreaksBefore.append happend (breaksBefore_of_not_mem hrest) ?_
    exact h.breaks.append happend (breaksBefore_of_not_mem (by decide))
  have hline : FullLines (pad ++ TypeExpr.propertyKey key ++ (if optional then "?" else "")
      ++ ": " ++ type ++ ";\n") := by
    refine fullLines_line _ ?_ hpad (hkey _) hbreaks
    rw [← hmark]
    simp
  unfold TypeExpr.printProperty
  cases description with
  | none => simpa only [String.empty_append] using hline
  | some text =>
    have hcomment := (fullLines_docComment text hpad).append hline
    simpa only [String.append_assoc] using hcomment

/-- So has the line for further keys. -/
theorem fullLines_printIndex (hpad : ∀ c ∈ pad.toList, c = ' ') (h : LaidOut type) :
    FullLines (TypeExpr.printIndex pad type) := by
  have happend {a b : List Char} (h : StartsWithin a) : StartsWithin (a ++ b) := h.append b
  have hbreaks : BreaksBefore StartsWithin ("[k: string]: ".toList ++ (type.toList ++ [';'])) := by
    refine BreaksBefore.append happend (breaksBefore_of_not_mem (by decide)) ?_
    exact h.breaks.append happend (breaksBefore_of_not_mem (by decide))
  have hstart : StartsWithin ("[k: string]: ".toList ++ (type.toList ++ [';'])) :=
    StartsWithin.of_char (c := '[') (by decide) (by decide) _
  refine fullLines_line _ ?_ hpad hstart hbreaks
  have hend : ";\n".toList = [';'] ++ ['\n'] := rfl
  simp only [TypeExpr.printIndex, String.toList_append, hend, List.append_assoc]

/-- Lines in braces are laid out. -/
theorem laidOut_printBlock {lines : String} (hpad : ∀ c ∈ pad.toList, c = ' ')
    (h : FullLines lines) : LaidOut (TypeExpr.printBlock lines pad) := by
  have hclose : Continues (pad.toList ++ ['\x7d']) := by
    have hshown : StartsWithin ['\x7d'] := .of_char (by decide) (by decide) _
    refine ⟨hshown.indented hpad, breaksBefore_of_not_mem fun hmem => ?_⟩
    rcases List.mem_append.1 hmem with hmem | hmem
    · cases hpad '\n' hmem
    · exact absurd hmem (by decide)
  obtain ⟨hstart, hbreaks⟩ := h _ hclose
  have htext : ("\x7b\n" ++ lines ++ pad ++ "\x7d").toList =
      '\x7b' :: '\n' :: (lines.toList ++ (pad.toList ++ ['\x7d'])) := by simp
  unfold TypeExpr.printBlock
  split
  · exact laidOut_of_not_mem (by decide)
  · refine ⟨?_⟩
    rw [htext]
    exact ⟨nofun, fun _ => hstart, hbreaks⟩

theorem laidOut_printArray (h : LaidOut type) : LaidOut (TypeExpr.printArray type) := by
  unfold TypeExpr.printArray
  split
  · exact laidOut_enclosed "(" ")[]" (by decide) (by decide) h
  · exact h.append (laidOut_of_not_mem (by decide))

theorem laidOut_printPart (h : LaidOut type) : LaidOut (TypeExpr.printPart type) := by
  unfold TypeExpr.printPart
  split
  · exact laidOut_enclosed "(" ")" (by decide) (by decide) h
  · exact h

end Printed

theorem lineFeed_not_mem_intercalate {separator : String} (hseparator : '\n' ∉ separator.toList)
    {parts : List String} (h : ∀ p ∈ parts, '\n' ∉ p.toList) :
    '\n' ∉ (String.intercalate separator parts).toList := by
  induction parts with
  | nil => exact List.not_mem_nil
  | cons first parts ih =>
    obtain ⟨hfirst, hrest⟩ := List.forall_mem_cons.1 h
    cases parts with
    | nil => rwa [String.intercalate_singleton]
    | cons second parts =>
      rw [String.intercalate_cons_cons, String.toList_append, String.toList_append,
        List.mem_append, List.mem_append, not_or, not_or]
      exact ⟨⟨hfirst, hseparator⟩, ih hrest⟩

theorem lineFeed_not_mem_enclosed (opening closing : String) (hopening : '\n' ∉ opening.toList)
    (hclosing : '\n' ∉ closing.toList) {s : String} (h : '\n' ∉ s.toList) :
    '\n' ∉ (opening ++ s ++ closing).toList := by
  rw [String.toList_append, String.toList_append, List.mem_append, List.mem_append, not_or, not_or]
  exact ⟨⟨hopening, h⟩, hclosing⟩

mutual

/-- A value is written on one line. -/
theorem lineFeed_not_mem_compact (j : Json) : '\n' ∉ j.compact.toList := by
  cases j with
  | null => decide
  | bool b => cases b <;> decide
  | num n =>
    intro hmem
    cases Number.isMark_of_mem_text hmem
  | str s => exact lineFeed_not_mem_quote s
  | arr xs =>
    rw [Json.compact]
    exact lineFeed_not_mem_enclosed "[" "]" (by decide) (by decide)
      (lineFeed_not_mem_intercalate (by decide) (lineFeed_not_mem_compactItems xs))
  | obj ms =>
    rw [Json.compact]
    exact lineFeed_not_mem_enclosed "\x7b" "\x7d" (by decide) (by decide)
      (lineFeed_not_mem_intercalate (by decide) (lineFeed_not_mem_compactMembers ms))
termination_by structural j

theorem lineFeed_not_mem_compactItems (xs : List Json) :
    ∀ text ∈ Json.compactItems xs, '\n' ∉ text.toList := by
  match xs with
  | [] => exact nofun
  | x :: xs =>
    exact List.forall_mem_cons.2 ⟨lineFeed_not_mem_compact x, lineFeed_not_mem_compactItems xs⟩
termination_by structural xs

theorem lineFeed_not_mem_compactMembers (ms : List (String × Json)) :
    ∀ text ∈ Json.compactMembers ms, '\n' ∉ text.toList := by
  match ms with
  | [] => exact nofun
  | (k, x) :: ms =>
    have hmember : '\n' ∉ (Json.quote k ++ ":" ++ x.compact).toList := by
      rw [String.toList_append, String.toList_append, List.mem_append, List.mem_append, not_or,
        not_or]
      exact ⟨⟨lineFeed_not_mem_quote k, by decide⟩, lineFeed_not_mem_compact x⟩
    exact List.forall_mem_cons.2 ⟨hmember, lineFeed_not_mem_compactMembers ms⟩
termination_by structural ms

end

namespace TypeExpr

/-- Text that is taken as it is, is laid out. -/
def TextLaidOut : TypeExpr → Prop
  | .keyword text | .verbatim text => LaidOut text
  | _ => True

variable {width : Nat}

mutual

/-- A printed type is laid out. -/
theorem laidOut_print (t : TypeExpr) (level : Nat) (h : t.Everywhere TextLaidOut) :
    LaidOut (print width level t) := by
  cases t with
  | keyword word => exact h
  | literal value => exact laidOut_of_not_mem (lineFeed_not_mem_compact value)
  | verbatim text => exact h
  | union ms =>
    rw [print]
    exact laidOut_intercalate (laidOut_of_not_mem (by decide))
      (laidOut_printAll ms level ((Everywhere_union ms).1 h).2)
  | intersection ms =>
    have hparts := laidOut_printAll ms level ((Everywhere_intersection ms).1 h).2
    rw [print]
    exact laidOut_intercalate (laidOut_of_not_mem (by decide))
      (List.forall_mem_map.2 fun p hp => laidOut_printPart (hparts p hp))
  | array item => exact laidOut_printArray (laidOut_print item level h.2)
  | tuple ts =>
    rw [print]
    exact laidOut_enclosed "[" "]" (by decide) (by decide)
      (laidOut_intercalate (laidOut_of_not_mem (by decide))
        (laidOut_printAll ts level ((Everywhere_tuple ts).1 h).2))
  | object ps index =>
    obtain ⟨-, hps, hindex⟩ := (Everywhere_object ps index).1 h
    have hlines := fullLines_join (fullLines_printProperties ps (level + 1) hps)
    cases index with
    | none =>
      rw [print]
      exact laidOut_printBlock (fun _ => eq_space_of_mem_pad) (hlines.append fun r hr => hr)
    | some t =>
      have htype := laidOut_print t (level + 1) (hindex t rfl)
      rw [print]
      exact laidOut_printBlock (fun _ => eq_space_of_mem_pad)
        (hlines.append (fullLines_printIndex (fun _ => eq_space_of_mem_pad) htype))
termination_by structural t

theorem laidOut_printAll (ts : List TypeExpr) (level : Nat)
    (h : ∀ t ∈ ts, t.Everywhere TextLaidOut) :
    ∀ text ∈ printAll width level ts, LaidOut text := by
  match ts with
  | [] => exact nofun
  | t :: ts =>
    have ⟨ht, hts⟩ := List.forall_mem_cons.1 h
    exact List.forall_mem_cons.2 ⟨laidOut_print t level ht, laidOut_printAll ts level hts⟩
termination_by structural ts

theorem fullLines_printProperties (ps : List (PropertyHead × TypeExpr)) (level : Nat)
    (h : ∀ p ∈ ps, p.2.Everywhere TextLaidOut) :
    ∀ text ∈ printProperties width level ps, FullLines text := by
  match ps with
  | [] => exact nofun
  | (head, t) :: ps =>
    have ⟨ht, hps⟩ := List.forall_mem_cons.1 h
    exact List.forall_mem_cons.2
      ⟨fullLines_printProperty (fun _ => eq_space_of_mem_pad) head (laidOut_print t level ht),
        fullLines_printProperties ps level hps⟩
termination_by structural ps

end

end TypeExpr

theorem lineFeed_not_mem_typeKeyword {word : String} (h : word ∈ typeKeywords) :
    '\n' ∉ word.toList := by
  have hwords : ∀ w ∈ typeKeywords, '\n' ∉ w.toList := by decide
  exact hwords word h

/-- The types of schemas whose texts are laid out. -/
theorem suits_textLaidOut : Suits (GivesText LaidOut) TypeExpr.TextLaidOut where
  anything := nofun
  keyword h := laidOut_of_not_mem (lineFeed_not_mem_typeKeyword h)
  literal _ := trivial
  verbatim h hvalue := h _ hvalue
  union _ := trivial
  noNames _ _ := trivial
  intersection _ := trivial
  array _ := trivial
  tuple _ := trivial
  object _ _ := trivial

/-! ## Declarations -/

/-- The words in front of the declared name. -/
def DeclarationForm.opening : DeclarationForm → List Char
  | .interfaceForm => "export interface ".toList
  | .aliasForm => "export type ".toList

/-- The opening of a declaration tells its form and its name. -/
theorem opening_prefix_iff {form form' : DeclarationForm} {name other : String}
    (hname : isIdentifier name = true) (hother : isIdentifier other = true) (rest : List Char) :
    form.opening ++ name.toList ++ [' '] <+: form'.opening ++ other.toList ++ ' ' :: rest ↔
      form = form' ∧ name = other := by
  constructor
  · rintro ⟨more, h⟩
    have hform : form = form' := by
      have hletter := congrArg (fun cs : List Char => cs[7]?) h
      cases form <;> cases form' <;> first | rfl | cases hletter
    subst hform
    simp only [List.append_assoc, List.append_cancel_left_eq, List.singleton_append] at h
    exact ⟨rfl, (identifier_ends hname hother (by decide) (by decide) h).1⟩
  · rintro ⟨rfl, rfl⟩
    exact ⟨rest, by simp⟩

namespace Declaration

variable {d : Declaration} {width : Nat}

/-- A declaration below the lines above it: its opening, and a text that is laid out. -/
theorem exists_line_eq (h : d.body.Everywhere TypeExpr.TextLaidOut) : ∃ tail : String,
    (d.line width).toList = d.form.opening ++ d.name.toList ++ ' ' :: tail.toList ++ ['\n'] ∧
      LaidOut tail := by
  have hbody : LaidOut (d.body.print width 0) := TypeExpr.laidOut_print d.body 0 h
  unfold line
  generalize d.body.print width 0 = body at hbody
  cases d.form with
  | interfaceForm =>
    have htext (words name body : List Char) : words ++ name ++ [' '] ++ body ++ ['\n'] =
        words ++ name ++ ' ' :: body ++ ['\n'] := by simp
    refine ⟨body, ?_, hbody⟩
    rw [String.toList_append, String.toList_append, String.toList_append, String.toList_append]
    exact htext _ _ _
  | aliasForm =>
    have htext (words name equals body stop : List Char) :
        words ++ name ++ ' ' :: equals ++ body ++ (stop ++ ['\n']) =
          words ++ name ++ ' ' :: (equals ++ body ++ stop) ++ ['\n'] := by simp
    refine ⟨"= " ++ body ++ ";", ?_, laidOut_enclosed _ _ (by decide) (by decide) hbody⟩
    rw [String.toList_append, String.toList_append, String.toList_append, String.toList_append,
      String.toList_append, String.toList_append]
    exact htext "export type ".toList d.name.toList "= ".toList body.toList ";".toList

/-- The lines of a declaration: its opening, and lines within it. -/
theorem exists_rawLines (hname : isIdentifier d.name = true)
    (h : d.body.Everywhere TypeExpr.TextLaidOut) : Ended (d.line width) ∧ ∃ rest lines,
      rawLines (d.line width).toList =
        (d.form.opening ++ d.name.toList ++ ' ' :: rest) :: lines ∧
      ∀ line ∈ lines, ∃ r, StartsWithin r ∧ line = firstLine r ++ ['\n'] := by
  obtain ⟨tail, hline, htail⟩ := @exists_line_eq d width h
  have hopening : '\n' ∉ d.form.opening ++ d.name.toList ++ [' '] := by
    have hwords : '\n' ∉ d.form.opening := by cases d.form <;> decide
    simp only [List.mem_append, List.mem_singleton, not_or]
    refine ⟨⟨hwords, fun hmem => ?_⟩, by decide⟩
    cases isIdentifierPart_of_mem hname hmem
  have hcore : d.form.opening ++ d.name.toList ++ ' ' :: tail.toList =
      d.form.opening ++ d.name.toList ++ [' '] ++ tail.toList := by simp
  have hbreaks :
      BreaksBefore StartsWithin (d.form.opening ++ d.name.toList ++ ' ' :: tail.toList) := by
    rw [hcore]
    exact (breaksBefore_of_not_mem hopening).append (fun h => h.append _) htail.breaks
  obtain ⟨lines, hlines⟩ := rawLines_ended (d.form.opening ++ d.name.toList ++ ' ' :: tail.toList)
  have htailLines := hbreaks.tail_rawLines
  rw [hlines] at htailLines
  refine ⟨⟨_, hline⟩, firstLine tail.toList ++ ['\n'], lines, ?_, htailLines⟩
  rw [hline, hlines, hcore, firstLine_append hopening]
  simp

end Declaration

end Blokwork.TypeScript
