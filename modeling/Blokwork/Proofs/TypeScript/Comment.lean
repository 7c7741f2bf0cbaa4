import Mathlib.Data.List.Chain
import Blokwork.Proofs.TypeScript.PropertyLines

/-!
# Comments that nothing breaks out of

A comment ends where a star stands before a slash. A text has no such place if no two neighbours in
it are these characters (`Unclosed`), which is kept by texts put together as long as no seam makes
one (`Unclosed.append`). Escaped text has none (`unclosed_escapeClosers`), and since every line of
a comment ends with a line feed, neither has the whole comment before the line that closes it. So a
comment is closed once, at its end, whatever is described (`docComment_closes_once`); a reader of
tokens finds none in it but the break behind it (`closed_docComment`).

Lines are those of the library (`Text.lines`): a line ends at a line feed, and a carriage return in
the middle of a line is a character like any other.
-/

namespace Blokwork.TypeScript

open Text

/-! ## Texts that close no comment -/

/-- The first character before the second closes no comment. -/
def KeepsOpen (c d : Char) : Prop := ¬ (c = '*' ∧ d = '/')

/-- Nowhere in the text is a comment closed. -/
def Unclosed (cs : List Char) : Prop := cs.IsChain KeepsOpen

section Unclosed

variable {c : Char} {a b cs : List Char}

theorem unclosed_nil : Unclosed [] := List.isChain_nil

theorem Unclosed.cons (h : Unclosed cs) (hseam : c = '*' → cs.head? ≠ some '/') :
    Unclosed (c :: cs) := by
  refine List.isChain_cons.2 ⟨fun d hd => ?_, h⟩
  rintro ⟨hc, rfl⟩
  exact hseam hc hd

/-- No seam closes a comment if the first text does not end with a star. -/
theorem Unclosed.append (ha : Unclosed a) (hb : Unclosed b) (hend : a.getLast? ≠ some '*') :
    Unclosed (a ++ b) := by
  refine List.isChain_append.2 ⟨ha, hb, fun c hc d _ => ?_⟩
  rintro ⟨rfl, -⟩
  exact hend hc

/-- It takes a slash to close a comment. -/
theorem unclosed_of_not_mem (h : '/' ∉ cs) : Unclosed cs := by
  induction cs with
  | nil => exact unclosed_nil
  | cons c cs ih =>
    rw [List.mem_cons, not_or] at h
    exact (ih h.2).cons fun _ hhead => h.2 (List.mem_of_mem_head? hhead)

/-- A text that closes a comment in its last line, and not before, closes none elsewhere. -/
theorem eq_lineFeed_of_closes {front back : List Char} (h : Unclosed (a ++ ['*']))
    (heq : a ++ ['*', '/', '\n'] = front ++ '*' :: '/' :: back) : back = ['\n'] := by
  rcases List.eq_nil_or_concat back with rfl | ⟨more, d, rfl⟩
  · have hlast := congrArg List.getLast? heq
    simp at hlast
  have hbreak : a ++ ['*', '/'] ++ ['\n'] = front ++ '*' :: '/' :: more ++ [d] := by
    simpa using heq
  obtain ⟨hslash, hd⟩ := List.append_inj' hbreak rfl
  rcases List.eq_nil_or_concat more with rfl | ⟨rest, e, rfl⟩
  · exact hd.symm
  -- here it would be closed before its last slash
  have hslash : a ++ ['*'] ++ ['/'] = front ++ '*' :: '/' :: rest ++ [e] := by simpa using hslash
  rw [(List.append_inj' hslash rfl).1] at h
  exact absurd ⟨rfl, rfl⟩ (List.isChain_append_cons_cons.1 h).2.1

end Unclosed

/-! ## Escaped text -/

/-- Escaped text starts as the text does. -/
theorem head?_escapeClosers (cs : List Char) : (escapeClosers cs).head? = cs.head? := by
  induction cs using escapeClosers.induct with
  | case1 rest => rfl
  | case2 c rest hnot =>
    rw [escapeClosers]
    · rfl
    · exact hnot
  | case3 => rfl

/-- Escaped text closes no comment. -/
theorem unclosed_escapeClosers (cs : List Char) : Unclosed (escapeClosers cs) := by
  induction cs using escapeClosers.induct with
  | case1 rest ih =>
    -- the backslash stands between the star and the slash
    have hslash : Unclosed ('/' :: escapeClosers rest) := ih.cons fun h => absurd h (by decide)
    have hbackslash : Unclosed ('\\' :: '/' :: escapeClosers rest) :=
      hslash.cons fun h => absurd h (by decide)
    exact hbackslash.cons fun _ h => absurd (Option.some.inj h) (by decide)
  | case2 c rest hnot ih =>
    rw [escapeClosers]
    · refine ih.cons fun hc hhead => ?_
      rw [head?_escapeClosers] at hhead
      obtain ⟨more, hmore⟩ := List.head?_eq_some_iff.1 hhead
      exact hnot more hc hmore
    · exact hnot
  | case3 => exact unclosed_nil

/-! ## Lines of a comment -/

section Comment

variable {text pad : String}

/-- Lines end with a line feed, so that the seam behind none of them closes a comment. -/
theorem unclosed_flatten_append {ls : List (List Char)} {cs : List Char}
    (hlines : ∀ l ∈ ls, IsLine l) (h : ∀ l ∈ ls, Unclosed l) (hcs : Unclosed cs) :
    Unclosed (ls.flatten ++ cs) := by
  induction ls with
  | nil => exact hcs
  | cons l ls ih =>
    obtain ⟨⟨body, -, hbody⟩, hlines⟩ := List.forall_mem_cons.1 hlines
    obtain ⟨hl, h⟩ := List.forall_mem_cons.1 h
    have hend : l.getLast? ≠ some '*' := by
      rw [hbody, List.getLast?_concat]
      nofun
    rw [List.flatten_cons, List.append_assoc]
    exact hl.append (ih hlines h) hend

theorem Unclosed.indented {cs : List Char} (hpad : ∀ c ∈ pad.toList, c = ' ') (h : Unclosed cs) :
    Unclosed (pad.toList ++ cs) := by
  have hspaces : Unclosed pad.toList := unclosed_of_not_mem fun hmem => nomatch hpad _ hmem
  refine hspaces.append h fun hlast => ?_
  cases hpad _ (List.mem_of_getLast? hlast)

/-- No line of a description closes the comment. -/
theorem unclosed_commentLine (hpad : ∀ c ∈ pad.toList, c = ' ') (line : String) :
    Unclosed (commentLine pad line).toList := by
  unfold commentLine
  dsimp only
  split
  · rw [String.toList_append]
    exact (unclosed_of_not_mem (by decide)).indented hpad
  · have htext : (pad ++ " * " ++ String.ofList (escapeClosers line.toList) ++ "\n").toList =
        pad.toList ++ ([' ', '*', ' '] ++ (escapeClosers line.toList ++ ['\n'])) := by simp
    have hbreak : Unclosed (escapeClosers line.toList ++ ['\n']) := by
      refine List.isChain_append.2 ⟨unclosed_escapeClosers _, List.isChain_singleton _, ?_⟩
      rintro c - d hd ⟨-, rfl⟩
      cases hd
    have hstar : Unclosed [' ', '*', ' '] := unclosed_of_not_mem (by decide)
    rw [htext]
    exact (hstar.append hbreak nofun).indented hpad

/-- A comment has a line for each line of the description, between its first and its last. -/
theorem rawLines_docComment (text : String) (hpad : ∀ c ∈ pad.toList, c = ' ') :
    rawLines (docComment text pad).toList = commentLines pad (some text) := by
  rw [toList_docComment]
  exact rawLines_flatten fun l hl => (isInner_of_mem_commentLines hpad hl).isLine

/-- A comment is not closed before its last slash. -/
theorem exists_docComment_eq (text : String) (hpad : ∀ c ∈ pad.toList, c = ' ') :
    ∃ inside : String, docComment text pad = pad ++ "/**" ++ inside ++ "*/\n" ∧
      Unclosed ((pad ++ "/**" ++ inside).toList ++ ['*']) := by
  have hopen : Unclosed (pad ++ "/**\n").toList := by
    have hstars : Unclosed ['*', '*', '\n'] := unclosed_of_not_mem (by decide)
    have hslash : Unclosed ('/' :: ['*', '*', '\n']) := hstars.cons nofun
    rw [String.toList_append]
    exact hslash.indented hpad
  have hrows : ∀ l ∈ (pad ++ "/**\n").toList :: (lines text).map (fun line =>
      (commentLine pad line).toList), Unclosed l :=
    List.forall_mem_cons.2 ⟨hopen, List.forall_mem_map.2 fun line _ =>
      unclosed_commentLine hpad line⟩
  have hlines : ∀ l ∈ (pad ++ "/**\n").toList :: (lines text).map (fun line =>
      (commentLine pad line).toList), IsLine l := by
    intro l hl
    have hmem : l ∈ commentLines pad (some text) := List.mem_append_left _ hl
    exact (isInner_of_mem_commentLines hpad hmem).isLine
  have hend : Unclosed (pad.toList ++ [' ', '*']) :=
    (unclosed_of_not_mem (by decide)).indented hpad
  refine ⟨"\n" ++ String.join ((lines text).map (commentLine pad)) ++ pad ++ " ", ?_, ?_⟩
  · have hfirst : "/**\n" = "/**" ++ "\n" := rfl
    have hlast : " */\n" = " " ++ "*/\n" := rfl
    simp only [docComment, hfirst, hlast, String.append_assoc]
  · have hunclosed := unclosed_flatten_append hlines hrows hend
    simpa [List.flatMap, Function.comp_def] using hunclosed

/-- A line that starts with a star behind an opening starts so without its line end. -/
theorem exists_eq_of_star_prefix {start : String} {raw : List Char}
    (h : start.toList ++ ['*'] <+: raw) :
    ∃ rest, String.ofList (dropLineEnd raw) = start ++ "*" ++ rest := by
  rw [← prefix_dropLineEnd_iff (by decide) (by decide)] at h
  obtain ⟨rest, hrest⟩ := h
  refine ⟨String.ofList rest, String.toList_inj.1 ?_⟩
  rw [String.toList_ofList, ← hrest]
  simp

/-- Behind the indent each line of a comment opens it or has a star. -/
theorem exists_eq_of_mem_lines_docComment (hpad : ∀ c ∈ pad.toList, c = ' ') {line : String}
    (h : line ∈ lines (docComment text pad)) :
    ∃ rest, line = pad ++ "/**" ++ rest ∨ line = pad ++ " *" ++ rest := by
  rw [lines, rawLines_docComment text hpad] at h
  obtain ⟨raw, hraw, rfl⟩ := List.mem_map.1 h
  have hstar (more : List Char) (hmore : raw = pad.toList ++ ' ' :: '*' :: more) :
      ∃ rest, String.ofList (dropLineEnd raw) = pad ++ " *" ++ rest := by
    have hstart : (pad ++ " ").toList ++ ['*'] <+: raw := ⟨more, by simp [hmore]⟩
    obtain ⟨rest, hrest⟩ := exists_eq_of_star_prefix hstart
    exact ⟨rest, hrest.trans (by simp [String.append_assoc])⟩
  rcases List.mem_cons.1 hraw with rfl | hraw
  · have hstart : (pad ++ "/*").toList ++ ['*'] <+: (pad ++ "/**\n").toList := ⟨['\n'], by simp⟩
    obtain ⟨rest, hrest⟩ := exists_eq_of_star_prefix hstart
    exact ⟨rest, .inl (hrest.trans (by simp [String.append_assoc]))⟩
  rcases List.mem_append.1 hraw with hraw | hraw
  · obtain ⟨shown, hshown, rfl⟩ := List.mem_map.1 hraw
    obtain ⟨more, -, hmore⟩ := exists_commentLine pad (lineFeed_not_mem_lines hshown)
    obtain ⟨rest, hrest⟩ := hstar _ hmore
    exact ⟨rest, .inr hrest⟩
  · obtain rfl := List.mem_singleton.1 hraw
    obtain ⟨rest, hrest⟩ := hstar ['/', '\n'] (by simp)
    exact ⟨rest, .inr hrest⟩

/-- **Nothing breaks out of a comment.** Whatever is described, the comment opens behind its
indent, and the sequence that closes it stands in it once, before the line feed at its end. Each
line of the description has one line, between the first one and the last, and behind the indent a
line of the comment opens it or has a star. -/
theorem docComment_closes_once (text : String) {pad : String} (hpad : ∀ c ∈ pad.toList, c = ' ') :
    (∃ inside, docComment text pad = pad ++ "/**" ++ inside ++ "*/\n") ∧
    (∀ front back, docComment text pad = front ++ "*/" ++ back → back = "\n") ∧
    (lines (docComment text pad)).length = (lines text).length + 2 ∧
    ∀ line ∈ lines (docComment text pad),
      ∃ rest, line = pad ++ "/**" ++ rest ∨ line = pad ++ " *" ++ rest := by
  obtain ⟨inside, hinside, hunclosed⟩ := exists_docComment_eq text hpad
  refine ⟨⟨inside, hinside⟩, fun front back h => ?_, ?_, fun line hline =>
    exists_eq_of_mem_lines_docComment hpad hline⟩
  · rw [hinside] at h
    have hchars := congrArg String.toList h
    simp only [String.toList_append, List.append_assoc] at hchars
    have hback := @eq_lineFeed_of_closes _ front.toList back.toList hunclosed
      (by simpa using hchars)
    exact String.toList_inj.1 hback
  · rw [lines, rawLines_docComment text hpad, List.length_map, commentLines]
    simp

end Comment

namespace Remark

/-- A description that tries to close its comment, within lines and across their ends. -/
def text : String := "a */ b\r\n/\n*\r/**/"

/-- Its comment. -/
def comment : String := "  /**\n   * a *\\/ b\n   * /\n   * *\r/**\\/\n   */\n"

/-- Stars and slashes meet within its lines and across their ends, but only the last two close
it. -/
theorem docComment_closes_once_remark :
    (∀ c ∈ "  ".toList, c = ' ') ∧ docComment text "  " = comment ∧
    (∃ inside, docComment text "  " = "  " ++ "/**" ++ inside ++ "*/\n") ∧
    (∀ front back, docComment text "  " = front ++ "*/" ++ back → back = "\n") ∧
    (lines (docComment text "  ")).length = (lines text).length + 2 ∧
    ∀ line ∈ lines (docComment text "  "),
      ∃ rest, line = "  " ++ "/**" ++ rest ∨ line = "  " ++ " *" ++ rest := by
  have hpad : ∀ c ∈ "  ".toList, c = ' ' :=
    List.forall_mem_cons.2 ⟨rfl, List.forall_mem_singleton.2 rfl⟩
  have hcomment : docComment text "  " = comment := by decide +kernel
  exact ⟨hpad, hcomment, docComment_closes_once text hpad⟩

end Remark

end Blokwork.TypeScript
