import Blokwork.Proofs.Text.Search
import Blokwork.Proofs.TypeScript.Layout

/-!
# Headers of interfaces

The first line of an interface ends with its header (`interfaceHeader`), and so can a line of a
comment, which ends as the described text does. No line of a printed type without comments ends
with a header: the brace at its end follows a mark and not a name, or the line ends otherwise. So
of the lines of a declaration without comments only the first one can end with a header, that of
its own name (`Declaration.lines_of_interface`, `Declaration.not_heads_of_alias`). The lines behind
it can be kept from starting with a word as well, by what is asked of the properties of the type.
-/

namespace Blokwork.TypeScript

open Text

/-- What the first line of an interface ends with. -/
def interfaceHeader (name : String) : String := "export interface " ++ name ++ " \x7b"

/-- The line ends with the header of an interface of that name. -/
def Heads (name : String) (line : List Char) : Prop :=
  (interfaceHeader name).toList ++ ['\n'] <:+ line

section Header

variable {name : String}

theorem toList_interfaceHeader (name : String) : (interfaceHeader name).toList =
    "export interface ".toList ++ name.toList ++ " \x7b".toList := by
  have happend (a b c : String) : (a ++ b ++ c).toList = a.toList ++ b.toList ++ c.toList := by
    rw [String.toList_append, String.toList_append]
  exact happend _ _ _

/-- Besides its name a header has blanks, letters and a brace. -/
theorem not_mem_interfaceHeader (hname : isIdentifier name = true) {c : Char}
    (hc : isIdentifierPart c = false) (hblank : c ≠ ' ') (hbrace : c ≠ '\x7b') :
    c ∉ (interfaceHeader name).toList := by
  have hopening :
      ("export interface ".toList.all fun d => isIdentifierPart d || d == ' ') = true := by
    decide
  have hclosing : (" \x7b".toList.all fun d => d == ' ' || d == '\x7b') = true := by decide
  simp only [List.all_eq_true, Bool.or_eq_true, beq_iff_eq] at hopening hclosing
  rw [toList_interfaceHeader, List.mem_append, List.mem_append]
  rintro ((hmem | hmem) | hmem)
  · rcases hopening c hmem with h | h
    · rw [hc] at h
      cases h
    · exact hblank h
  · rw [isIdentifierPart_of_mem hname hmem] at hc
    cases hc
  · exact (hclosing c hmem).elim hblank hbrace

theorem lineFeed_not_mem_interfaceHeader (hname : isIdentifier name = true) :
    '\n' ∉ (interfaceHeader name).toList :=
  not_mem_interfaceHeader hname (by decide) (by decide) (by decide)

theorem exists_interfaceHeader_eq_cons (name : String) :
    ∃ rest, (interfaceHeader name).toList = 'e' :: rest := by
  have hopening : "export interface ".toList = 'e' :: "xport interface ".toList := by decide
  exact ⟨_, (toList_interfaceHeader name).trans
    (congrArg (fun cs => cs ++ name.toList ++ " \x7b".toList) hopening)⟩

/-- A header from behind: a brace, a blank, the name, and a blank. -/
theorem reverse_interfaceHeader (name : String) : (interfaceHeader name).toList.reverse =
    '\x7b' :: ' ' :: (name.toList.reverse ++ ' ' :: "export interface".toList.reverse) := by
  have hreverse (words name : List Char) : (words ++ [' '] ++ name ++ [' ', '\x7b']).reverse =
      '\x7b' :: ' ' :: (name.reverse ++ ' ' :: words.reverse) := by simp
  have htext : (interfaceHeader name).toList =
      "export interface".toList ++ [' '] ++ name.toList ++ [' ', '\x7b'] := by
    have hopening : "export interface ".toList = "export interface".toList ++ [' '] := by decide
    have hbrace : " \x7b".toList = [' ', '\x7b'] := by decide
    exact (toList_interfaceHeader name).trans
      (congrArg₂ (fun a b => a ++ name.toList ++ b) hopening hbrace)
  rw [htext, hreverse]

theorem exists_reverse_interfaceHeader (hname : isIdentifier name = true) : ∃ c rest,
    (interfaceHeader name).toList.reverse = '\x7b' :: ' ' :: c :: rest ∧
      isIdentifierPart c = true := by
  obtain ⟨first, more, hchars, -⟩ := isIdentifierStart_of_isIdentifier hname
  obtain ⟨c, rest, hreverse⟩ : ∃ c rest, name.toList.reverse = c :: rest :=
    List.exists_cons_of_ne_nil (by simp [hchars])
  have hmem : c ∈ name.toList := by
    rw [← List.mem_reverse, hreverse]
    exact List.mem_cons_self
  exact ⟨c, _, by rw [reverse_interfaceHeader, hreverse, List.cons_append],
    isIdentifierPart_of_mem hname hmem⟩

/-- A line with another end has no header. -/
theorem not_heads_of_last {c : Char} (hc : c ≠ '\x7b') (front : List Char) :
    ¬ Heads name (front ++ [c, '\n']) := by
  intro h
  have hprefix := List.reverse_prefix.2 h
  rw [List.reverse_append, List.reverse_append, reverse_interfaceHeader] at hprefix
  exact hc (List.cons_prefix_cons.1 (List.cons_prefix_cons.1 hprefix).2).1.symm

/-- The header of an interface is that of its name only. -/
theorem heads_interfaceHeader_iff {other : String} (hname : isIdentifier name = true)
    (hother : isIdentifier other = true) :
    Heads other ((interfaceHeader name).toList ++ ['\n']) ↔ other = name := by
  have htake {name : String} (hname : isIdentifier name = true) (rest : List Char) :
      (name.toList.reverse ++ ' ' :: rest).takeWhile isIdentifierPart = name.toList.reverse := by
    rw [List.takeWhile_append_of_pos
        fun c hc => isIdentifierPart_of_mem hname (List.mem_reverse.1 hc),
      List.takeWhile_cons_of_neg (by decide), List.append_nil]
  constructor
  · intro h
    obtain ⟨more, hmore⟩ := List.reverse_prefix.2 h
    rw [List.reverse_append, List.reverse_append, reverse_interfaceHeader,
      reverse_interfaceHeader] at hmore
    have hnames : other.toList.reverse ++ ' ' :: ("export interface".toList.reverse ++ more) =
        name.toList.reverse ++ ' ' :: "export interface".toList.reverse := by
      rw [← List.cons_append, ← List.append_assoc]
      exact (List.cons.inj (List.cons.inj (List.cons.inj hmore).2).2).2
    have hsame := congrArg (List.takeWhile isIdentifierPart) hnames
    rw [htake hother, htake hname] at hsame
    exact String.toList_injective (List.reverse_injective hsame)
  · rintro rfl
    exact List.suffix_rfl

end Header

/-! ## Texts that no header ends in -/

/-- No header ends with the text, whatever stands in front of it. -/
def Shut (a : List Char) : Prop :=
  ∀ more name, isIdentifier name = true → ¬ (interfaceHeader name).toList <:+ more ++ a

namespace Shut

variable {a : List Char}

theorem prepend (h : Shut a) (front : List Char) : Shut (front ++ a) := fun more name hname => by
  rw [← List.append_assoc]
  exact h (more ++ front) name hname

/-- What a header ends with tells whether one can end here. -/
theorem of_reverse (h : ∀ more c rest, isIdentifierPart c = true →
    a.reverse ++ more ≠ '\x7b' :: ' ' :: c :: rest) : Shut a := by
  intro more name hname hsuffix
  obtain ⟨c, rest, hreverse, hpart⟩ := exists_reverse_interfaceHeader hname
  obtain ⟨behind, hbehind⟩ := List.reverse_prefix.2 hsuffix
  rw [List.reverse_append, hreverse] at hbehind
  exact h more.reverse c (rest ++ behind) hpart hbehind.symm

theorem char {c : Char} (hc : c ≠ '\x7b') : Shut [c] :=
  of_reverse fun _ _ _ _ h => hc (List.cons.inj h).1

theorem brace {c : Char} (hc : c ≠ ' ') : Shut [c, '\x7b'] :=
  of_reverse fun _ _ _ _ h => hc (List.cons.inj (List.cons.inj h).2).1

theorem blankBrace {c : Char} (hc : isIdentifierPart c = false) : Shut [c, ' ', '\x7b'] :=
  of_reverse fun _ d _ hd h => by
    obtain rfl := (List.cons.inj (List.cons.inj (List.cons.inj h).2).2).1
    rw [hc] at hd
    cases hd

end Shut

/-! ## Texts without lines that start with a word -/

/-- Behind its indent the text does not start with the word, whatever is written behind it. -/
def Apart (word r : List Char) : Prop := ∀ more, ¬ word <+: (r ++ more).dropWhile isBlankChar

namespace Apart

variable {word r : List Char}

theorem append (h : Apart word r) (more : List Char) : Apart word (r ++ more) := fun behind => by
  rw [List.append_assoc]
  exact h (more ++ behind)

/-- An indent changes nothing. -/
theorem indented {pad : List Char} (hpad : ∀ c ∈ pad, c = ' ') (h : Apart word r) :
    Apart word (pad ++ r) := fun more => by
  have hblank : ∀ c ∈ pad, isBlankChar c = true := fun c hc => by rw [hpad c hc]; rfl
  rw [List.append_assoc, List.dropWhile_append_of_pos hblank]
  exact h more

/-- A text that shows another character at once. -/
theorem of_char {c : Char} (hblank : isBlankChar c = false) (hword : ∃ d ∈ word.head?, d ≠ c)
    (rest : List Char) : Apart word (c :: rest) := fun more h => by
  obtain ⟨d, hd, hne⟩ := hword
  rw [List.cons_append, List.dropWhile_cons_of_neg (by simp [hblank])] at h
  cases word with
  | nil => cases hd
  | cons e word =>
    obtain rfl := Option.some.inj hd
    exact hne (List.cons_prefix_cons.1 h).1

end Apart

/-! ## Parts of a declaration -/

/-- The text can stand in a declaration: no header ends with one of its lines, and none but the
first starts with the word. -/
structure Quiet (word : List Char) (s : String) : Prop where
  shut : ∀ {left}, Shut (left ++ ['\x7b']) → ∀ {a r}, s.toList = a ++ '\n' :: r → Shut (left ++ a)
  rows : BreaksBefore (Apart word) s.toList

/-- The text consists of lines that can stand in a declaration. -/
structure QuietLines (word : List Char) (s : String) : Prop where
  ended : s = "" ∨ Ended s
  shut : ∀ {a r}, s.toList = a ++ '\n' :: r → Shut a
  rows : ∀ {r}, Apart word r → BreaksBefore (Apart word) r →
    Apart word (s.toList ++ r) ∧ BreaksBefore (Apart word) (s.toList ++ r)

/-- A line feed in a text of two parts is in one of them. -/
theorem append_eq_append_lineFeed {s t a r : List Char} (h : s ++ t = a ++ '\n' :: r) :
    (∃ rest, s = a ++ '\n' :: rest) ∨ ∃ front, a = s ++ front ∧ t = front ++ '\n' :: r := by
  rcases List.append_eq_append_iff.1 h with ⟨front, ha, ht⟩ | ⟨rest, hs, hr⟩
  · exact .inr ⟨front, ha, ht⟩
  · cases rest with
    | nil => exact .inr ⟨[], by simpa using hs.symm, by simpa using hr.symm⟩
    | cons c rest =>
      obtain rfl := (List.cons.inj hr).1
      exact .inl ⟨rest, hs⟩

/-- A line feed behind one character. -/
theorem eq_singleton_of_append_lineFeed {c : Char} (hc : c ≠ '\n') {front r : List Char}
    (h : [c, '\n'] = front ++ '\n' :: r) : front = [c] := by
  rcases front with _ | ⟨d, _ | ⟨e, front⟩⟩
  · exact absurd (List.cons.inj h).1 hc
  · rw [(List.cons.inj h).1]
  · cases front <;> cases h

section Parts

variable {word : List Char} {s t : String}

theorem quiet_of_not_mem (h : '\n' ∉ s.toList) : Quiet word s where
  shut _ _ _ heq := absurd (heq ▸ List.mem_append_right _ List.mem_cons_self) h
  rows := breaksBefore_of_not_mem h

namespace Quiet

theorem append (hs : Quiet word s) (ht : Quiet word t) (hshut : Shut (s.toList ++ ['\x7b'])) :
    Quiet word (s ++ t) where
  shut {left} hleft {a r} h := by
    rw [String.toList_append] at h
    rcases append_eq_append_lineFeed h with ⟨rest, hfront⟩ | ⟨front, rfl, hback⟩
    · exact hs.shut hleft hfront
    · rw [← List.append_assoc]
      refine ht.shut ?_ hback
      rw [List.append_assoc]
      exact hshut.prepend left
  rows := by
    rw [String.toList_append]
    exact hs.rows.append (fun h => h.append _) ht.rows

theorem append_text (hs : Quiet word s) (ht : '\n' ∉ t.toList) : Quiet word (s ++ t) where
  shut {left} hleft {a r} h := by
    rw [String.toList_append] at h
    rcases append_eq_append_lineFeed h with ⟨rest, hfront⟩ | ⟨front, rfl, hback⟩
    · exact hs.shut hleft hfront
    · exact absurd (hback ▸ List.mem_append_right _ List.mem_cons_self) ht
  rows := by
    rw [String.toList_append]
    exact hs.rows.append (fun h => h.append _) (breaksBefore_of_not_mem ht)

end Quiet

theorem quiet_enclosed (opening closing : String) (hopening : '\n' ∉ opening.toList)
    (hshut : Shut (opening.toList ++ ['\x7b'])) (hclosing : '\n' ∉ closing.toList)
    (h : Quiet word s) : Quiet word (opening ++ s ++ closing) :=
  ((quiet_of_not_mem hopening).append h hshut).append_text hclosing

theorem quiet_intercalate {separator : String} (hseparator : '\n' ∉ separator.toList)
    (hshut : Shut (separator.toList ++ ['\x7b'])) {parts : List String}
    (h : ∀ p ∈ parts, Quiet word p) : Quiet word (String.intercalate separator parts) := by
  induction parts with
  | nil => exact quiet_of_not_mem List.not_mem_nil
  | cons first parts ih =>
    obtain ⟨hfirst, hrest⟩ := List.forall_mem_cons.1 h
    cases parts with
    | nil => rwa [String.intercalate_singleton]
    | cons second parts =>
      rw [String.intercalate_cons_cons]
      refine (hfirst.append_text hseparator).append (ih hrest) ?_
      rw [String.toList_append, List.append_assoc]
      exact hshut.prepend _

theorem quietLines_empty : QuietLines word "" where
  ended := .inl rfl
  shut h := absurd (congrArg List.length h) (by simp)
  rows hr hbreaks := ⟨hr, hbreaks⟩

theorem QuietLines.append (hs : QuietLines word s) (ht : QuietLines word t) :
    QuietLines word (s ++ t) where
  ended := by
    rcases ht.ended with rfl | ⟨cs, hcs⟩
    · rw [String.append_empty]
      exact hs.ended
    · exact .inr ⟨s.toList ++ cs, by rw [String.toList_append, hcs, List.append_assoc]⟩
  shut {a r} h := by
    rw [String.toList_append] at h
    rcases append_eq_append_lineFeed h with ⟨rest, hfront⟩ | ⟨front, rfl, hback⟩
    · exact hs.shut hfront
    · exact (ht.shut hback).prepend _
  rows {r} hr hbreaks := by
    obtain ⟨hr, hbreaks⟩ := ht.rows hr hbreaks
    rw [String.toList_append, List.append_assoc]
    exact hs.rows hr hbreaks

theorem quietLines_join {parts : List String} (h : ∀ p ∈ parts, QuietLines word p) :
    QuietLines word (String.join parts) := by
  induction parts with
  | nil => exact quietLines_empty
  | cons first parts ih =>
    obtain ⟨hfirst, hrest⟩ := List.forall_mem_cons.1 h
    rw [String.join_cons]
    exact hfirst.append (ih hrest)

/-- No header ends with a line of a type that ends with a semicolon. -/
theorem shut_typed {lead type : String} (hlead : '\n' ∉ lead.toList)
    (hshut : Shut (lead.toList ++ ['\x7b'])) (htype : Quiet word type) {a r : List Char}
    (h : (lead ++ type ++ ";\n").toList = a ++ '\n' :: r) : Shut a := by
  have htext : (lead ++ type ++ ";\n").toList =
      lead.toList ++ (type.toList ++ (';' :: '\n' :: [])) := by
    rw [String.toList_append, String.toList_append, List.append_assoc]
    rfl
  rw [htext] at h
  rcases append_eq_append_lineFeed h with ⟨rest, hfront⟩ | ⟨front, rfl, hback⟩
  · exact absurd (hfront ▸ List.mem_append_right _ List.mem_cons_self) hlead
  rcases append_eq_append_lineFeed hback with ⟨rest, hfront⟩ | ⟨front, rfl, hsemicolon⟩
  · exact htype.shut hshut hfront
  · obtain rfl := eq_singleton_of_append_lineFeed (by decide) hsemicolon
    exact ((Shut.char (by decide)).prepend _).prepend _

/-- A line with a type. -/
theorem quietLines_typed {lead type : String} (hlead : '\n' ∉ lead.toList)
    (hshut : Shut (lead.toList ++ ['\x7b'])) (hapart : Apart word (lead ++ type).toList)
    (htype : Quiet word type) : QuietLines word (lead ++ type ++ ";\n") := by
  have hbreaks : BreaksBefore (Apart word) (lead ++ type).toList := by
    rw [String.toList_append]
    exact (breaksBefore_of_not_mem hlead).append (fun h => h.append _) htype.rows
  have htext : (lead ++ type ++ ";\n").toList = (lead ++ type).toList ++ (';' :: '\n' :: []) := by
    rw [String.toList_append]
    rfl
  refine ⟨.inr ⟨(lead ++ type).toList ++ [';'], by simp [htext]⟩, shut_typed hlead hshut htype,
    fun {r} hr hrest => ?_⟩
  rw [htext, List.append_assoc]
  refine ⟨hapart.append _, hbreaks.append (fun h => h.append _) ?_⟩
  exact ⟨nofun, fun _ => hr, hrest⟩

/-- A colon keeps a brace from ending a header. -/
theorem shut_colon (lead : String) : Shut ((lead ++ ": ").toList ++ ['\x7b']) := by
  rw [String.toList_append, List.append_assoc]
  exact (Shut.blankBrace (by decide)).prepend _

end Parts

/-! ## Types -/

namespace TypeExpr

/-- What stands in front of the colon of a property. -/
def propertyStart (head : PropertyHead) : String :=
  propertyKey head.key ++ if head.optional then "?" else ""

/-- Texts that are taken as they are have one line, and properties have no comments and do not
start with the word. -/
def QuietNode (word : List Char) : TypeExpr → Prop
  | .keyword text | .verbatim text => '\n' ∉ text.toList
  | .object properties _ => ∀ p ∈ properties, p.1.description = none ∧
      ∀ width level, Apart word (propertyStart p.1 ++ ": " ++ print width level p.2).toList
  | _ => True

end TypeExpr

section Printed

theorem lineFeed_not_mem_spaces {pad : List Char} (hpad : ∀ c ∈ pad, c = ' ') : '\n' ∉ pad :=
  fun hmem => by cases hpad _ hmem

variable {word : List Char} {type pad : String}
  (hword : ∃ c ∈ word.head?, isIdentifierStart c = true)

theorem quietLines_printProperty (hpad : ∀ c ∈ pad.toList, c = ' ') {head : PropertyHead}
    (hhead : head.description = none)
    (hapart : Apart word (TypeExpr.propertyStart head ++ ": " ++ type).toList)
    (h : Quiet word type) : QuietLines word (TypeExpr.printProperty pad head type) := by
  have hlead : '\n' ∉ (pad ++ TypeExpr.propertyStart head ++ ": ").toList := by
    refine lineFeed_not_mem_enclosed _ _ (lineFeed_not_mem_spaces hpad) (by decide) ?_
    rw [TypeExpr.propertyStart, String.toList_append, List.mem_append, not_or]
    refine ⟨lineFeed_not_mem_propertyKey _, ?_⟩
    split <;> decide
  have htext : TypeExpr.printProperty pad head type =
      pad ++ TypeExpr.propertyStart head ++ ": " ++ type ++ ";\n" := by
    rw [TypeExpr.printProperty, hhead]
    simp only [TypeExpr.propertyStart, String.empty_append, String.append_assoc]
  rw [htext]
  refine quietLines_typed hlead (shut_colon _) ?_ h
  rw [String.append_assoc, String.append_assoc, String.toList_append, ← String.append_assoc]
  exact hapart.indented hpad

include hword

theorem exists_ne_of_mark {c : Char} (hc : isIdentifierStart c = false) :
    ∃ d ∈ word.head?, d ≠ c := by
  obtain ⟨d, hd, hstart⟩ := hword
  refine ⟨d, hd, ?_⟩
  rintro rfl
  rw [hc] at hstart
  cases hstart

theorem quietLines_printIndex (hpad : ∀ c ∈ pad.toList, c = ' ') (h : Quiet word type) :
    QuietLines word (TypeExpr.printIndex pad type) := by
  have hlead : '\n' ∉ (pad ++ "[k: string]" ++ ": ").toList :=
    lineFeed_not_mem_enclosed _ _ (lineFeed_not_mem_spaces hpad) (by decide) (by decide)
  have htext : TypeExpr.printIndex pad type = pad ++ "[k: string]" ++ ": " ++ type ++ ";\n" := by
    have hkey : "[k: string]: " = "[k: string]" ++ ": " := by decide
    rw [TypeExpr.printIndex, hkey, ← String.append_assoc]
  rw [htext]
  refine quietLines_typed hlead (shut_colon _) ?_ h
  have hstart : Apart word ("[k: string]".toList ++ (": " ++ type).toList) :=
    Apart.append (Apart.of_char (by decide) (exists_ne_of_mark hword (by decide)) _) _
  rw [String.append_assoc, String.append_assoc, String.toList_append, String.toList_append]
  exact hstart.indented hpad

/-- Lines in braces. -/
theorem quiet_printBlock {lines : String} (hpad : ∀ c ∈ pad.toList, c = ' ')
    (h : QuietLines word lines) : Quiet word (TypeExpr.printBlock lines pad) := by
  have hclose : Apart word (pad.toList ++ ['\x7d']) :=
    (Apart.of_char (by decide) (exists_ne_of_mark hword (by decide)) _).indented hpad
  have hend : '\n' ∉ pad.toList ++ ['\x7d'] := by
    rw [List.mem_append, not_or]
    exact ⟨lineFeed_not_mem_spaces hpad, by decide⟩
  obtain ⟨hstart, hbreaks⟩ := h.rows hclose (breaksBefore_of_not_mem hend)
  have htext : ("\x7b\n" ++ lines ++ pad ++ "\x7d").toList =
      ['\x7b', '\n'] ++ (lines.toList ++ (pad.toList ++ ['\x7d'])) := by simp
  unfold TypeExpr.printBlock
  split
  · exact quiet_of_not_mem (by decide)
  · refine ⟨fun {left} hleft {a r} heq => ?_, ?_⟩
    · rw [htext] at heq
      rcases append_eq_append_lineFeed heq with ⟨rest, hopen⟩ | ⟨front, rfl, hlines⟩
      · obtain rfl := eq_singleton_of_append_lineFeed (by decide) hopen
        exact hleft
      · rcases append_eq_append_lineFeed hlines with ⟨rest, hlines⟩ | ⟨front, rfl, hlast⟩
        · exact ((h.shut hlines).prepend _).prepend _
        · exact absurd (hlast ▸ List.mem_append_right _ List.mem_cons_self) hend
    · rw [htext]
      exact ⟨nofun, fun _ => hstart, hbreaks⟩

omit hword in
theorem quiet_printArray (h : Quiet word type) : Quiet word (TypeExpr.printArray type) := by
  unfold TypeExpr.printArray
  split
  · exact quiet_enclosed "(" ")[]" (by decide) (.brace (by decide)) (by decide) h
  · exact h.append_text (by decide)

omit hword in
theorem quiet_printPart (h : Quiet word type) : Quiet word (TypeExpr.printPart type) := by
  unfold TypeExpr.printPart
  split
  · exact quiet_enclosed "(" ")" (by decide) (.brace (by decide)) (by decide) h
  · exact h

end Printed

namespace TypeExpr

/-- The lines between the braces of an object. -/
def objectLines (width level : Nat) (properties : List (PropertyHead × TypeExpr))
    (index : Option TypeExpr) : String :=
  String.join (printProperties width level properties)
    ++ match index with
      | some type => printIndex (pad width level) (print width level type)
      | none => ""

theorem print_object (width level : Nat) (properties : List (PropertyHead × TypeExpr))
    (index : Option TypeExpr) : print width level (.object properties index) =
      printBlock (objectLines width (level + 1) properties index) (pad width level) := by
  cases index <;> rw [print] <;> rfl

theorem objectLines_ne_empty {width level : Nat} {ps : List (PropertyHead × TypeExpr)}
    (hps : ps ≠ []) (index : Option TypeExpr) : objectLines width level ps index ≠ "" := by
  obtain ⟨⟨head, t⟩, ps, rfl⟩ := List.exists_cons_of_ne_nil hps
  intro h
  have hlength := congrArg String.length h
  cases index <;> simp [objectLines, printProperties, String.join_cons, printProperty] at hlength

theorem shut_orSeparator : Shut (orSeparator.toList ++ ['\x7b']) := by
  have htext : orSeparator.toList ++ ['\x7b'] = [' '] ++ ['|', ' ', '\x7b'] := by decide
  rw [htext]
  exact (Shut.blankBrace (by decide)).prepend _

theorem shut_andSeparator : Shut (andSeparator.toList ++ ['\x7b']) := by
  have htext : andSeparator.toList ++ ['\x7b'] = [' '] ++ ['&', ' ', '\x7b'] := by decide
  rw [htext]
  exact (Shut.blankBrace (by decide)).prepend _

theorem shut_comma : Shut (", ".toList ++ ['\x7b']) := Shut.blankBrace (by decide)

variable {word : List Char} {width : Nat}

theorem quietLines_objectLines (hword : ∃ c ∈ word.head?, isIdentifierStart c = true) {level : Nat}
    {ps : List (PropertyHead × TypeExpr)} {index : Option TypeExpr}
    (hps : ∀ text ∈ printProperties width level ps, QuietLines word text)
    (hindex : ∀ t ∈ index, Quiet word (print width level t)) :
    QuietLines word (objectLines width level ps index) := by
  refine (quietLines_join hps).append ?_
  cases index with
  | none => exact quietLines_empty
  | some t => exact quietLines_printIndex hword (fun _ => eq_space_of_mem_pad) (hindex t rfl)

mutual

/-- A printed type can stand in a declaration. -/
theorem quiet_print (hword : ∃ c ∈ word.head?, isIdentifierStart c = true)
    (t : TypeExpr) (level : Nat) (h : t.Everywhere (QuietNode word)) :
    Quiet word (print width level t) := by
  cases t with
  | keyword text => exact quiet_of_not_mem h
  | literal value => exact quiet_of_not_mem (lineFeed_not_mem_compact value)
  | verbatim text => exact quiet_of_not_mem h
  | union ms =>
    rw [print]
    exact quiet_intercalate (by decide) shut_orSeparator
      (quiet_printAll hword ms level ((Everywhere_union ms).1 h).2)
  | intersection ms =>
    have hparts := quiet_printAll hword ms level ((Everywhere_intersection ms).1 h).2
    rw [print]
    exact quiet_intercalate (by decide) shut_andSeparator
      (List.forall_mem_map.2 fun p hp => quiet_printPart (hparts p hp))
  | array item => exact quiet_printArray (quiet_print hword item level h.2)
  | tuple ts =>
    rw [print]
    exact quiet_enclosed "[" "]" (by decide) (.brace (by decide)) (by decide)
      (quiet_intercalate (by decide) shut_comma
        (quiet_printAll hword ts level ((Everywhere_tuple ts).1 h).2))
  | object ps index =>
    obtain ⟨hnode, hps, hindex⟩ := (Everywhere_object ps index).1 h
    have hproperties := quietLines_printProperties hword ps (level + 1) hps hnode
    rw [print_object]
    refine quiet_printBlock hword (fun _ => eq_space_of_mem_pad)
      (quietLines_objectLines hword hproperties ?_)
    cases index with
    | none => exact nofun
    | some t =>
      have htype := quiet_print hword t (level + 1) (hindex t rfl)
      exact fun u hu => Option.some.inj hu ▸ htype
termination_by structural t

theorem quiet_printAll (hword : ∃ c ∈ word.head?, isIdentifierStart c = true)
    (ts : List TypeExpr) (level : Nat)
    (h : ∀ t ∈ ts, t.Everywhere (QuietNode word)) :
    ∀ text ∈ printAll width level ts, Quiet word text := by
  match ts with
  | [] => exact nofun
  | t :: ts =>
    have ⟨ht, hts⟩ := List.forall_mem_cons.1 h
    exact List.forall_mem_cons.2 ⟨quiet_print hword t level ht, quiet_printAll hword ts level hts⟩
termination_by structural ts

theorem quietLines_printProperties (hword : ∃ c ∈ word.head?, isIdentifierStart c = true)
    (ps : List (PropertyHead × TypeExpr)) (level : Nat)
    (h : ∀ p ∈ ps, p.2.Everywhere (QuietNode word)) (hnode : QuietNode word (.object ps none)) :
    ∀ text ∈ printProperties width level ps, QuietLines word text := by
  match ps with
  | [] => exact nofun
  | (head, t) :: ps =>
    have ⟨ht, hps⟩ := List.forall_mem_cons.1 h
    have ⟨⟨hhead, hapart⟩, hnodes⟩ := List.forall_mem_cons.1 hnode
    exact List.forall_mem_cons.2
      ⟨quietLines_printProperty (fun _ => eq_space_of_mem_pad) hhead (hapart width level)
        (quiet_print hword t level ht),
        quietLines_printProperties hword ps level hps hnodes⟩
termination_by structural ps

end

end TypeExpr

/-! ## Types of schemas -/

/-- The node gives a text of one line, if it gives one, and its properties have no descriptions and
types that do not start with the word behind their keys. -/
structure QuietSchema (options : CompileOptions) (word : List Char) (node : Dict Json) : Prop where
  text : GivesText (fun text => '\n' ∉ text.toList) node
  plain : ∀ p ∈ propertiesIn node, p.2.members?.bind description? = none
  apart : ∀ p ∈ propertiesIn node, ∀ t, Describes options none p.2 t → ∀ optional width level,
    Apart word (TypeExpr.propertyStart ⟨p.1, none, optional⟩ ++ ": "
      ++ TypeExpr.print width level t).toList

theorem quietSchema_of_no_properties {options : CompileOptions} {word : List Char}
    {node : Dict Json} (h : propertiesIn node = [])
    (htext : GivesText (fun text => '\n' ∉ text.toList) node) : QuietSchema options word node where
  text := htext
  plain p hp := by rw [h] at hp; cases hp
  apart p hp := by rw [h] at hp; cases hp

/-- The types of schemas of such nodes. -/
theorem Describes.everywhere_quietNode {options : CompileOptions} {word : List Char}
    {name : Option String} {schema : Json} {t : TypeExpr} (h : Describes options name schema t)
    (hschema : schema.EveryObject (QuietSchema options word)) :
    t.Everywhere (TypeExpr.QuietNode word) := by
  have huntyped : options.untyped.Everywhere (TypeExpr.QuietNode word) := by
    obtain ⟨name, hname, heq⟩ := untyped_mem_typeKeywords options
    rw [heq]
    exact lineFeed_not_mem_typeKeyword hname
  have hnever : TypeExpr.never.Everywhere (TypeExpr.QuietNode word) :=
    lineFeed_not_mem_typeKeyword (by decide)
  have honeOf {ms : List TypeExpr} (h : ∀ m ∈ ms, m.Everywhere (TypeExpr.QuietNode word)) :
      (TypeExpr.oneOf ms).Everywhere (TypeExpr.QuietNode word) := by
    cases ms with
    | nil => exact hnever
    | cons m ms => exact (TypeExpr.Everywhere_union _).2 ⟨trivial, h⟩
  have hallOf {ms : List TypeExpr} (h : ∀ m ∈ ms, m.Everywhere (TypeExpr.QuietNode word)) :
      (TypeExpr.allOf ms).Everywhere (TypeExpr.QuietNode word) := by
    cases ms with
    | nil => exact hnever
    | cons m ms => exact (TypeExpr.Everywhere_intersection _).2 ⟨trivial, h⟩
  induction h with
  | everything | untyped => exact huntyped
  | nothing => exact hnever
  | text _ hvalue => exact ((Json.EveryObject_obj _).1 hschema).1.text _ hvalue
  | constant => trivial
  | values => exact honeOf (List.forall_mem_map.2 fun _ _ => trivial)
  | alternatives _ _ hvalue _ ih =>
    have hitems := hschema.items hvalue
    exact honeOf (List.forall_mem_map.2 fun m hm => ih m hm (hitems m hm))
  | parts _ hvalue _ ih =>
    have hitems := hschema.items hvalue
    exact hallOf (List.forall_mem_map.2 fun m hm => ih m hm (hitems m hm))
  | named _ _ _ ih | withProperties _ _ ih | withItems _ _ ih => exact ih hschema
  | names _ _ _ ih =>
    exact (TypeExpr.Everywhere_union _).2
      ⟨trivial, List.forall_mem_map.2 fun m hm => ih m hm hschema⟩
  | plain h =>
    obtain ⟨name, hname, rfl⟩ := mem_typeKeywords_of_plainType? h
    exact lineFeed_not_mem_typeKeyword hname
  | list => exact ⟨trivial, huntyped⟩
  | tuple hvalue _ ih =>
    have hitems := hschema.items hvalue
    exact (TypeExpr.Everywhere_tuple _).2
      ⟨trivial, List.forall_mem_map.2 fun m hm => ih m hm (hitems m hm)⟩
  | array hvalue _ ih => exact ⟨trivial, ih (hschema.get? hvalue)⟩
  | @object node members further hproperties hmembers hfurther _ ihProperties ihFurther =>
    have hnode := ((Json.EveryObject_obj _).1 hschema).1
    have hall := everyObject_properties hschema
    have hkeys := everyObject_furtherKeys options
      (quietSchema_of_no_properties rfl nofun) hschema
    rw [hproperties] at hall
    rw [hfurther] at hkeys
    refine (TypeExpr.Everywhere_object _ _).2 ⟨?_, ?_, ?_⟩
    · refine List.forall_mem_map.2 fun m hm => ?_
      have hp : (m.1, m.2.1) ∈ propertiesIn node := hproperties ▸ List.mem_map_of_mem hm
      exact ⟨hnode.plain _ hp, hnode.apart _ hp _ (hmembers m hm) _⟩
    · exact List.forall_mem_map.2 fun m hm =>
        ihProperties m hm (hall _ (List.mem_map_of_mem hm))
    · intro t ht
      obtain ⟨p, hp, rfl⟩ := Option.map_eq_some_iff.1 ht
      exact ihFurther p hp (hkeys _ (Option.mem_map_of_mem Prod.fst hp))

/-! ## Declarations -/

/-- No line ends with a header if no line feed stands behind one. -/
theorem not_heads_of_shut {cs : List Char} (h : ∀ {a r}, cs = a ++ '\n' :: r → Shut a)
    {line : List Char} (hline : line ∈ rawLines cs) {name : String}
    (hname : isIdentifier name = true) : ¬ Heads name line := by
  rintro ⟨front, rfl⟩
  obtain ⟨before, behind, hlines⟩ := List.append_of_mem hline
  have hcs : cs = before.flatten ++ (front ++ (interfaceHeader name).toList)
      ++ '\n' :: behind.flatten := by
    rw [← flatten_rawLines cs, hlines]
    simp
  exact h hcs [] name hname ((List.suffix_append _ _).trans (List.suffix_append _ _))

/-- What does not start the text does not start its first line. -/
theorem Apart.not_prefix_line {word r : List Char} (hne : word ≠ []) (h : Apart word r) :
    ¬ word <+: (firstLine r ++ ['\n']).dropWhile isBlankChar := by
  obtain ⟨behind, more, hmore⟩ : ∃ behind more, firstLine r ++ ['\n'] ++ behind = r ++ more := by
    have hr : firstLine r ++ r.dropWhile (· ≠ '\n') = r := List.takeWhile_append_dropWhile
    cases hrest : r.dropWhile (· ≠ '\n') with
    | nil =>
      rw [hrest, List.append_nil] at hr
      exact ⟨[], ['\n'], by rw [hr, List.append_nil]⟩
    | cons c rest =>
      obtain rfl : c = '\n' := by
        have hhead := List.head?_dropWhile_not (· ≠ '\n') r
        rw [hrest] at hhead
        simpa using hhead
      refine ⟨rest, [], ?_⟩
      rw [List.append_nil, List.append_assoc]
      exact (congrArg _ hrest.symm).trans hr
  intro hprefix
  refine h more ?_
  rw [← hmore, List.dropWhile_append]
  split
  · next hempty =>
    rw [List.isEmpty_iff.1 hempty] at hprefix
    exact absurd (List.prefix_nil.1 hprefix) hne
  · exact hprefix.trans (List.prefix_append _ _)

/-- Each line starts where none starts with the word. -/
theorem QuietLines.exists_of_mem_rawLines {word : List Char} {s : String} (h : QuietLines word s)
    (hword : ∃ c ∈ word.head?, isIdentifierStart c = true) {line : List Char}
    (hline : line ∈ rawLines s.toList) : ∃ r, Apart word r ∧ line = firstLine r ++ ['\n'] := by
  have hclose : Apart word ['\x7d'] :=
    Apart.of_char (by decide) (exists_ne_of_mark hword (by decide)) []
  obtain ⟨hstart, hbreaks⟩ := h.rows hclose ⟨nofun, trivial⟩
  obtain ⟨ls, hls⟩ := rawLines_ended (s.toList ++ ['\x7d'])
  have htail := hbreaks.tail_rawLines
  rw [hls] at htail
  have hmem : line ∈ rawLines (s.toList ++ ['\x7d'] ++ ['\n']) := by
    rcases h.ended with rfl | ⟨cs, hcs⟩
    · cases hline
    · rw [hcs, List.append_assoc, rawLines_ended_append, ← hcs]
      exact List.mem_append_left _ hline
  rw [hls] at hmem
  rcases List.mem_cons.1 hmem with rfl | hmem
  · exact ⟨_, hstart, rfl⟩
  · exact htail line hmem

namespace Declaration

variable {d : Declaration} {word : List Char} {width : Nat}

/-- The text of an interface: its header, the lines of its body, and a brace. -/
theorem toList_line_of_interface (hform : d.form = .interfaceForm)
    {ps : List (PropertyHead × TypeExpr)} {index : Option TypeExpr}
    (hbody : d.body = .object ps index) (hps : ps ≠ []) :
    (d.line width).toList = (interfaceHeader d.name).toList ++ ['\n']
      ++ ((TypeExpr.objectLines width 1 ps index).toList ++ ['\x7d', '\n']) := by
  have hne := @TypeExpr.objectLines_ne_empty width 1 ps hps index
  have htext (words lines : String) : (words ++ d.name ++ " " ++
      ("\x7b\n" ++ lines ++ TypeExpr.pad width 0 ++ "\x7d") ++ "\n").toList =
        (words ++ d.name ++ " \x7b").toList ++ ['\n'] ++ (lines.toList ++ ['\x7d', '\n']) := by
    have hpad : TypeExpr.pad width 0 = "" := rfl
    simp [hpad]
  rw [Declaration.line, hform, hbody]
  dsimp only
  rw [TypeExpr.print_object, TypeExpr.printBlock, if_neg (by simpa using hne)]
  exact htext _ _

variable (hword : ∃ c ∈ word.head?, isIdentifierStart c = true)

include hword

/-- No line of an alias ends with a header. -/
theorem not_heads_of_alias (hform : d.form = .aliasForm) (hname : isIdentifier d.name = true)
    (hbody : d.body.Everywhere (TypeExpr.QuietNode word)) {line : List Char}
    (hline : line ∈ rawLines (d.line width).toList) {name : String}
    (hother : isIdentifier name = true) : ¬ Heads name line := by
  have hlead : '\n' ∉ ("export type " ++ d.name ++ " = ").toList :=
    lineFeed_not_mem_enclosed _ _ (by decide) (by decide) fun hmem => by
      cases isIdentifierPart_of_mem hname hmem
  have hshut : Shut (("export type " ++ d.name ++ " = ").toList ++ ['\x7b']) := by
    have hequals : Shut (" = ".toList ++ ['\x7b']) := (Shut.blankBrace (by decide)).prepend [' ']
    rw [String.toList_append, List.append_assoc]
    exact hequals.prepend _
  rw [Declaration.line, hform] at hline
  exact not_heads_of_shut
    (shut_typed hlead hshut (TypeExpr.quiet_print hword d.body 0 hbody)) hline hother

/-- The lines of an interface: its header, lines without a header that do not start with the word,
and a brace. -/
theorem lines_of_interface (hform : d.form = .interfaceForm)
    {ps : List (PropertyHead × TypeExpr)} {index : Option TypeExpr}
    (hbody : d.body = .object ps index) (hps : ps ≠ [])
    (hquiet : d.body.Everywhere (TypeExpr.QuietNode word)) (hname : isIdentifier d.name = true) :
    ∃ first ls, rawLines (d.line width).toList =
        ((interfaceHeader d.name).toList ++ ['\n']) :: first :: (ls ++ [['\x7d', '\n']]) ∧
      ∀ line ∈ first :: ls, (∀ name, isIdentifier name = true → ¬ Heads name line) ∧
        ¬ word <+: line.dropWhile isBlankChar := by
  obtain ⟨hnode, hall, hindex⟩ := (TypeExpr.Everywhere_object ps index).1 (hbody ▸ hquiet)
  obtain ⟨lines, hlines⟩ : ∃ lines, lines = TypeExpr.objectLines width 1 ps index := ⟨_, rfl⟩
  have hquietLines : QuietLines word lines := hlines ▸
    TypeExpr.quietLines_objectLines hword
      (TypeExpr.quietLines_printProperties hword ps 1 hall hnode) fun t ht =>
        TypeExpr.quiet_print hword t 1 (hindex t ht)
  have hne : lines ≠ "" := hlines ▸ TypeExpr.objectLines_ne_empty hps index
  obtain ⟨cs, hcs⟩ := hquietLines.ended.resolve_left hne
  have hheader : IsLine ((interfaceHeader d.name).toList ++ ['\n']) :=
    ⟨_, lineFeed_not_mem_interfaceHeader hname, rfl⟩
  have htext : (d.line width).toList =
      (interfaceHeader d.name).toList ++ ['\n'] ++ (lines.toList ++ ['\x7d', '\n']) :=
    hlines ▸ toList_line_of_interface hform hbody hps
  have hrows : rawLines (d.line width).toList = ((interfaceHeader d.name).toList ++ ['\n'])
      :: (rawLines lines.toList ++ [['\x7d', '\n']]) := by
    rw [htext, rawLines_line_append hheader, hcs, rawLines_ended_append]
    rfl
  obtain ⟨ls, hls⟩ := rawLines_ended cs
  refine ⟨firstLine cs ++ ['\n'], ls, ?_, fun line hline => ?_⟩
  · rw [hrows, hcs, hls]
    rfl
  rw [← hls, ← hcs] at hline
  refine ⟨fun name => not_heads_of_shut hquietLines.shut hline, ?_⟩
  obtain ⟨r, hr, rfl⟩ := hquietLines.exists_of_mem_rawLines hword hline
  exact hr.not_prefix_line (by rintro rfl; obtain ⟨c, hc, -⟩ := hword; cases hc)

end Declaration

end Blokwork.TypeScript
