import Blokwork.Text.Blank
import Blokwork.Text.Lines

/-!
# Laws of lines

A text that ends with a line feed is cut into the lines it has, and its lines stand before those of
what is written behind it (`rawLines_ended_append`). So texts that are joined by empty lines, and
have none themselves, are found again between the empty lines (`paragraphs_intercalate`).

`BreaksBefore` is what a text has to satisfy for every line but the first to start in some way. It
is kept where texts are put together, so it can be said of the parts of a line as well.
-/

namespace Blokwork.Text

/-! ## Cutting a text -/

/-- The text up to its first line feed. -/
def firstLine (cs : List Char) : List Char := cs.takeWhile (· ≠ '\n')

theorem firstLine_append {a : List Char} (h : '\n' ∉ a) (b : List Char) :
    firstLine (a ++ b) = a ++ firstLine b := by
  refine List.takeWhile_append_of_pos fun c hc => decide_eq_true ?_
  rintro rfl
  exact h hc

theorem rawLines_lineFeed (r : List Char) : rawLines ('\n' :: r) = ['\n'] :: rawLines r := by
  rw [rawLines, if_pos rfl]

/-- A character in front of a text that is not empty belongs to its first line. -/
theorem rawLines_cons {c : Char} (hc : c ≠ '\n') {r l : List Char} {ls : List (List Char)}
    (h : rawLines r = l :: ls) : rawLines (c :: r) = (c :: l) :: ls := by
  rw [rawLines, if_neg hc, h]

/-- The first line of a text that ends with a line feed. -/
theorem rawLines_ended (cs : List Char) :
    ∃ ls, rawLines (cs ++ ['\n']) = (firstLine cs ++ ['\n']) :: ls := by
  induction cs with
  | nil => exact ⟨[], rfl⟩
  | cons c cs ih =>
    obtain ⟨ls, hls⟩ := ih
    by_cases hc : c = '\n'
    · subst hc
      exact ⟨rawLines (cs ++ ['\n']), rawLines_lineFeed _⟩
    · refine ⟨ls, ?_⟩
      have hfirst : firstLine (c :: cs) = c :: firstLine cs :=
        List.takeWhile_cons_of_pos (decide_eq_true hc)
      rw [List.cons_append, rawLines_cons hc hls, hfirst]
      rfl

/-- A text that ends with a line feed has its own lines. -/
theorem rawLines_ended_append (a b : List Char) :
    rawLines (a ++ ['\n'] ++ b) = rawLines (a ++ ['\n']) ++ rawLines b := by
  induction a with
  | nil => exact rawLines_lineFeed b
  | cons c a ih =>
    obtain ⟨ls, hls⟩ := rawLines_ended a
    rw [hls] at ih
    by_cases hc : c = '\n'
    · subst hc
      simp only [List.cons_append, rawLines_lineFeed] at ih ⊢
      rw [ih, hls]
      rfl
    · rw [List.cons_append, List.cons_append, rawLines_cons hc ih, rawLines_cons hc hls]
      rfl

/-! ## Line ends -/

/-- What is dropped from a line is its line feed and a carriage return before it. -/
theorem exists_lineEnd (line : List Char) :
    ∃ ending, line = dropLineEnd line ++ ending ∧ ∀ c ∈ ending, c = '\r' ∨ c = '\n' := by
  have hreverse {r suffix : List Char} (h : line.reverse = suffix ++ r) :
      line = r.reverse ++ suffix.reverse := by
    rw [← List.reverse_reverse line, h, List.reverse_append]
  unfold dropLineEnd
  split
  · next r h => exact ⟨['\r', '\n'], hreverse (show _ = ['\n', '\r'] ++ r from h), by simp⟩
  · next r _ h => exact ⟨['\n'], hreverse (show _ = ['\n'] ++ r from h), by simp⟩
  · exact ⟨[], (List.append_nil line).symm, nofun⟩

theorem mem_dropLineEnd {c : Char} {line : List Char} (h : c ∈ line) (hr : c ≠ '\r')
    (hn : c ≠ '\n') : c ∈ dropLineEnd line := by
  obtain ⟨ending, hline, hending⟩ := exists_lineEnd line
  rw [hline, List.mem_append] at h
  exact h.resolve_right fun hc => (hending c hc).elim hr hn

/-- A line starts as it does with its line end, with anything that is no part of that. -/
theorem prefix_dropLineEnd_iff {start : List Char} {c : Char} (hr : c ≠ '\r') (hn : c ≠ '\n')
    (text : List Char) : start ++ [c] <+: dropLineEnd text ↔ start ++ [c] <+: text := by
  obtain ⟨ending, hline, hending⟩ := exists_lineEnd text
  have hdropped : dropLineEnd text <+: text := ⟨ending, hline.symm⟩
  refine ⟨fun h => h.trans hdropped, fun h => ?_⟩
  refine List.prefix_of_prefix_length_le h hdropped (Nat.not_lt.1 fun hlong => ?_)
  -- otherwise the character would be part of the line end
  have hget : text[start.length]? = some c := by
    obtain ⟨rest, rfl⟩ := h
    simp
  have hle : (dropLineEnd text).length ≤ start.length := by
    rw [List.length_append, List.length_singleton] at hlong
    exact Nat.le_of_lt_succ hlong
  rw [hline, List.getElem?_append_right hle] at hget
  exact (hending c (List.mem_of_getElem? hget)).elim hr hn

theorem exists_of_mem_rawLines {cs line : List Char} (h : line ∈ rawLines cs) :
    ∃ body, '\n' ∉ body ∧ (line = body ∨ line = body ++ ['\n']) := by
  induction cs generalizing line with
  | nil => cases h
  | cons c cs ih =>
    by_cases hc : c = '\n'
    · subst hc
      rw [rawLines_lineFeed] at h
      rcases List.mem_cons.1 h with rfl | h
      · exact ⟨[], List.not_mem_nil, .inr rfl⟩
      · exact ih h
    · have hfirst {body : List Char} (hbody : '\n' ∉ body) : '\n' ∉ c :: body := by
        rw [List.mem_cons, not_or]
        exact ⟨Ne.symm hc, hbody⟩
      cases hrest : rawLines cs with
      | nil =>
        rw [rawLines, if_neg hc, hrest] at h
        exact ⟨[c], hfirst List.not_mem_nil, .inl (List.mem_singleton.1 h)⟩
      | cons l ls =>
        rw [rawLines_cons hc hrest] at h
        rw [hrest] at ih
        rcases List.mem_cons.1 h with rfl | h
        · obtain ⟨body, hbody, hline⟩ := ih List.mem_cons_self
          refine ⟨c :: body, hfirst hbody, hline.imp ?_ ?_⟩ <;> rintro rfl <;> rfl
        · exact ih (List.mem_cons_of_mem l h)

/-- There is no line feed in a line. -/
theorem lineFeed_not_mem_lines {s line : String} (h : line ∈ lines s) : '\n' ∉ line.toList := by
  obtain ⟨raw, hraw, rfl⟩ := List.mem_map.1 h
  obtain ⟨body, hbody, hline⟩ := exists_of_mem_rawLines hraw
  rw [String.toList_ofList]
  rcases hline with rfl | rfl
  · obtain ⟨ending, hending, -⟩ := exists_lineEnd raw
    rw [hending, List.mem_append, not_or] at hbody
    exact hbody.1
  · unfold dropLineEnd
    rw [List.reverse_append, List.reverse_singleton, List.singleton_append]
    split
    · next r h =>
      have hr : body.reverse = '\r' :: r := (List.cons.inj h).2
      rw [← List.mem_reverse, hr, List.mem_cons, not_or] at hbody
      rw [List.mem_reverse]
      exact hbody.2
    · next r _ h =>
      rw [List.mem_reverse, ← (List.cons.inj h).2, List.mem_reverse]
      exact hbody
    · next hne => exact absurd rfl (hne body.reverse)

/-- The line is empty but for its line end. -/
def isEmptyLine (line : List Char) : Bool := (dropLineEnd line).isEmpty

/-- A character that is not blank shows in its line. -/
theorem isEmptyLine_eq_false {c : Char} {line : List Char} (h : c ∈ line)
    (hc : isBlankChar c = false) : isEmptyLine line = false := by
  have hmem : c ∈ dropLineEnd line := by
    refine mem_dropLineEnd h ?_ ?_ <;> rintro rfl <;> cases hc
  exact List.isEmpty_eq_false_iff_exists_mem.2 ⟨c, hmem⟩

/-! ## Paragraphs -/

/-- What stands between the empty lines of a text. -/
def paragraphs (s : String) : List String :=
  ((rawLines s.toList).splitOnP isEmptyLine).map fun ls => String.ofList ls.flatten

/-- The text ends with a line feed. -/
def Ended (s : String) : Prop := ∃ cs, s.toList = cs ++ ['\n']

section Joined

variable {first : String} {rest : List String}

/-- Texts that end with line feeds have their lines between the empty lines that join them. -/
theorem rawLines_intercalate (hended : ∀ s ∈ first :: rest, Ended s) :
    rawLines (String.intercalate "\n" (first :: rest)).toList =
      rawLines first.toList ++ rest.flatMap fun s => ['\n'] :: rawLines s.toList := by
  induction rest generalizing first with
  | nil => simp [String.intercalate_singleton]
  | cons second rest ih =>
    obtain ⟨⟨cs, hcs⟩, hrest⟩ := List.forall_mem_cons.1 hended
    have hbreak : "\n".toList = ['\n'] := rfl
    rw [String.intercalate_cons_cons, String.toList_append, String.toList_append, hbreak, hcs,
      List.append_assoc, rawLines_ended_append, List.singleton_append, rawLines_lineFeed, ih hrest,
      List.flatMap_cons]
    rfl

/-- Texts without empty lines that are joined by empty lines are found between them. -/
theorem paragraphs_intercalate (hended : ∀ s ∈ first :: rest, Ended s)
    (hlines : ∀ s ∈ first :: rest, ∀ line ∈ rawLines s.toList, isEmptyLine line = false) :
    paragraphs (String.intercalate "\n" (first :: rest)) = first :: rest := by
  have htext (s : String) : String.ofList (rawLines s.toList).flatten = s := by
    rw [flatten_rawLines, String.ofList_toList]
  rw [paragraphs, rawLines_intercalate hended]
  clear hended
  induction rest generalizing first with
  | nil =>
    rw [List.flatMap_nil, List.append_nil,
      List.splitOnP_eq_singleton (hlines first List.mem_cons_self), List.map_singleton, htext]
  | cons second rest ih =>
    obtain ⟨hfirst, hrest⟩ := List.forall_mem_cons.1 hlines
    rw [List.flatMap_cons, List.cons_append, List.splitOnP_append_cons _ _ rfl,
      List.splitOnP_eq_singleton hfirst, List.map_append, List.map_singleton, htext, ih hrest]
    rfl

end Joined

/-! ## Lines that start in some way -/

/-- What stands behind each line feed is of that kind. -/
def BreaksBefore (S : List Char → Prop) : List Char → Prop
  | [] => True
  | c :: r => (c = '\n' → S r) ∧ BreaksBefore S r

section Breaks

variable {S : List Char → Prop} {a b cs : List Char}

theorem breaksBefore_of_not_mem (h : '\n' ∉ cs) : BreaksBefore S cs := by
  induction cs with
  | nil => trivial
  | cons c cs ih =>
    rw [List.mem_cons, not_or] at h
    exact ⟨fun hc => absurd hc.symm h.1, ih h.2⟩

/-- A text behind another one changes no start of a line. -/
theorem BreaksBefore.append (hS : ∀ {a b}, S a → S (a ++ b)) (ha : BreaksBefore S a)
    (hb : BreaksBefore S b) : BreaksBefore S (a ++ b) := by
  induction a with
  | nil => exact hb
  | cons c a ih => exact ⟨fun hc => hS (ha.1 hc), ih ha.2⟩

/-- Every line but the first starts so. -/
theorem BreaksBefore.tail_rawLines (h : BreaksBefore S cs) :
    ∀ line ∈ (rawLines (cs ++ ['\n'])).tail, ∃ r, S r ∧ line = firstLine r ++ ['\n'] := by
  induction cs with
  | nil => exact nofun
  | cons c cs ih =>
    obtain ⟨ls, hls⟩ := rawLines_ended cs
    have hrest := ih h.2
    rw [hls] at hrest
    by_cases hc : c = '\n'
    · have hfirst := h.1 hc
      subst hc
      rw [List.cons_append, rawLines_lineFeed, hls]
      exact List.forall_mem_cons.2 ⟨⟨cs, hfirst, rfl⟩, hrest⟩
    · rw [List.cons_append, rawLines_cons hc hls]
      exact hrest

end Breaks

end Blokwork.Text
