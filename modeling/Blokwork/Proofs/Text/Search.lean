import Mathlib.Data.List.TakeWhile
import Blokwork.Proofs.Text.Lines

/-!
# Searching among lines

A pattern that ends with its only line feed is found in the first line that ends with it, and what
stands behind it are the lines behind that one (`splitFirst_lineEnd`). A pattern of a line feed and
a line is found where that line stands behind another one (`splitFirst_lineAfter`). So what a
search reads from a text is said of the lines of the text.
-/

namespace Blokwork.Text

/-! ## Lines -/

/-- A line with its line feed. -/
def IsLine (line : List Char) : Prop := ∃ body, '\n' ∉ body ∧ line = body ++ ['\n']

/-- The end of the first line is told by the text. -/
theorem append_lineFeed_prefix_iff {w body : List Char} (hw : '\n' ∉ w) (hbody : '\n' ∉ body)
    (rest : List Char) : w ++ ['\n'] <+: body ++ '\n' :: rest ↔ w = body := by
  constructor
  · rintro ⟨more, h⟩
    rw [List.append_assoc, List.singleton_append] at h
    have hfirst := congrArg firstLine h
    rw [firstLine_append hw, firstLine_append hbody] at hfirst
    simpa [firstLine] using hfirst
  · rintro rfl
    exact ⟨rest, by simp⟩

theorem rawLines_line_append {line : List Char} (h : IsLine line) (rest : List Char) :
    rawLines (line ++ rest) = line :: rawLines rest := by
  obtain ⟨body, hbody, rfl⟩ := h
  induction body with
  | nil => exact rawLines_lineFeed rest
  | cons c body ih =>
    rw [List.mem_cons, not_or] at hbody
    exact rawLines_cons (Ne.symm hbody.1) (ih hbody.2)

theorem rawLines_of_not_mem {cs : List Char} (hne : cs ≠ []) (h : '\n' ∉ cs) :
    rawLines cs = [cs] := by
  induction cs with
  | nil => exact absurd rfl hne
  | cons c cs ih =>
    rw [List.mem_cons, not_or] at h
    cases cs with
    | nil => rw [rawLines, if_neg (Ne.symm h.1)]; rfl
    | cons d cs => exact rawLines_cons (Ne.symm h.1) (ih (List.cons_ne_nil d cs) h.2)

/-- Lines that are joined are the lines of the text. -/
theorem rawLines_flatten {ls : List (List Char)} (h : ∀ l ∈ ls, IsLine l) :
    rawLines ls.flatten = ls := by
  induction ls with
  | nil => rfl
  | cons l ls ih =>
    obtain ⟨hl, hls⟩ := List.forall_mem_cons.1 h
    rw [List.flatten_cons, rawLines_line_append hl, ih hls]

/-- A text that ends with a line feed consists of lines. -/
theorem isLine_of_mem_rawLines {s : String} (h : Ended s) :
    ∀ l ∈ rawLines s.toList, IsLine l := by
  obtain ⟨cs, hcs⟩ := h
  rw [hcs]
  clear hcs
  induction cs with
  | nil => exact List.forall_mem_singleton.2 ⟨[], List.not_mem_nil, rfl⟩
  | cons c cs ih =>
    by_cases hc : c = '\n'
    · subst hc
      rw [List.cons_append, rawLines_lineFeed]
      exact List.forall_mem_cons.2 ⟨⟨[], List.not_mem_nil, rfl⟩, ih⟩
    · obtain ⟨ls, hls⟩ := rawLines_ended cs
      rw [hls] at ih
      rw [List.cons_append, rawLines_cons hc hls]
      obtain ⟨⟨body, hbody, hfirst⟩, hrest⟩ := List.forall_mem_cons.1 ih
      refine List.forall_mem_cons.2 ⟨⟨c :: body, ?_, by rw [hfirst]; rfl⟩, hrest⟩
      rw [List.mem_cons, not_or]
      exact ⟨Ne.symm hc, hbody⟩

/-! ## Lines without blanks at their ends -/

/-- A line without blanks at its ends. -/
def trimmed (line : List Char) : String := trim (String.ofList line)

theorem dropBlankEnd_append {cs ending : List Char} (h : ∀ c ∈ ending, isBlankChar c = true) :
    dropBlankEnd (cs ++ ending) = dropBlankEnd cs := by
  rw [dropBlankEnd, dropBlankEnd, List.reverse_append,
    List.dropWhile_append_of_pos fun c hc => h c (List.mem_reverse.1 hc)]

theorem trimmed_append {line ending : List Char} (h : ∀ c ∈ ending, isBlankChar c = true) :
    trimmed (line ++ ending) = trimmed line := by
  rw [trimmed, trimmed, trim, trim, String.toList_ofList, String.toList_ofList,
    List.dropWhile_append]
  split
  · next hblank =>
    rw [List.dropWhile_eq_nil_iff.2 h, List.isEmpty_iff.1 hblank]
  · rw [dropBlankEnd_append h]

theorem trimmed_dropLineEnd (line : List Char) : trimmed (dropLineEnd line) = trimmed line := by
  obtain ⟨ending, hline, hending⟩ := exists_lineEnd line
  have hblank : ∀ c ∈ ending, isBlankChar c = true := fun c hc => by
    rcases hending c hc with rfl | rfl <;> rfl
  have htrimmed := @trimmed_append (dropLineEnd line) ending hblank
  rw [← hline] at htrimmed
  exact htrimmed.symm

theorem dropBlankEnd_cons {c : Char} (hc : isBlankChar c = false) (cs : List Char) :
    dropBlankEnd (c :: cs) = c :: dropBlankEnd cs := by
  rw [dropBlankEnd, dropBlankEnd, List.reverse_cons, List.dropWhile_append]
  split
  · next hblank =>
    rw [List.isEmpty_iff.1 hblank, List.dropWhile_cons_of_neg (by simp [hc])]
    rfl
  · rw [List.reverse_append, List.reverse_singleton, List.singleton_append]

theorem toList_trimmed (line : List Char) :
    (trimmed line).toList = dropBlankEnd (line.dropWhile isBlankChar) := by
  rw [trimmed, trim, String.toList_ofList, String.toList_ofList]

/-- Only the end of a line is left out behind its indent. -/
theorem trimmed_prefix (line : List Char) :
    (trimmed line).toList <+: line.dropWhile isBlankChar := by
  rw [toList_trimmed, dropBlankEnd, ← List.reverse_suffix, List.reverse_reverse]
  exact List.dropWhile_suffix _

/-- A text without blanks at its ends is what is left of its line. -/
theorem trimmed_indented {pad cs : List Char} {c d : Char} (hpad : ∀ e ∈ pad, isBlankChar e = true)
    (hc : isBlankChar c = false) (hd : isBlankChar d = false) :
    trimmed (pad ++ (c :: (cs ++ [d])) ++ ['\n']) = String.ofList (c :: (cs ++ [d])) := by
  have hblank : ∀ e ∈ ['\n'], isBlankChar e = true := List.forall_mem_singleton.2 rfl
  have hend : dropBlankEnd (c :: cs ++ [d]) = c :: cs ++ [d] := by
    have hreverse : (c :: cs ++ [d]).reverse = d :: (c :: cs).reverse := List.reverse_concat
    rw [dropBlankEnd, hreverse, List.dropWhile_cons_of_neg (by simp [hd]), ← hreverse,
      List.reverse_reverse]
  rw [trimmed_append hblank, trimmed, trim, String.toList_ofList,
    List.dropWhile_append_of_pos hpad,
    List.dropWhile_cons_of_neg (by simp [hc])]
  exact congrArg String.ofList hend

/-- The lines of a text whose last line feed is left out. -/
theorem map_trim_lines {first : List Char} {ls : List (List Char)}
    (hlines : ∀ l ∈ first :: ls, IsLine l) (hshown : ∀ l ∈ first :: ls, l ≠ ['\n']) :
    (lines (String.ofList (first :: ls).flatten.dropLast)).map trim =
      (first :: ls).map trimmed := by
  have htrim (cs : List Char) :
      (lines (String.ofList cs)).map trim = (rawLines cs).map trimmed := by
    rw [lines, String.toList_ofList, List.map_map]
    exact List.map_congr_left fun line _ => trimmed_dropLineEnd line
  rw [htrim]
  induction ls generalizing first with
  | nil =>
    obtain ⟨body, hbody, rfl⟩ := hlines _ List.mem_cons_self
    have hne : body ≠ [] := by
      rintro rfl
      exact hshown _ List.mem_cons_self rfl
    have hbodyLine : [body ++ ['\n']].flatten.dropLast = body := by simp
    have hblank : ∀ c ∈ ['\n'], isBlankChar c = true := List.forall_mem_singleton.2 rfl
    rw [hbodyLine, rawLines_of_not_mem hne hbody, List.map_singleton, List.map_singleton,
      trimmed_append hblank]
  | cons second ls ih =>
    obtain ⟨hfirst, hlines⟩ := List.forall_mem_cons.1 hlines
    have hne : (second :: ls).flatten ≠ [] := by
      obtain ⟨body, -, hsecond⟩ := hlines _ List.mem_cons_self
      simp [hsecond]
    rw [List.flatten_cons, List.dropLast_append_of_ne_nil hne, rawLines_line_append hfirst,
      List.map_cons, ih hlines (List.forall_mem_cons.1 hshown).2, ← List.map_cons]

/-- Lines end with a line feed. -/
theorem dropLast_flatten_append {first : List Char} {ls : List (List Char)}
    (hlines : ∀ l ∈ first :: ls, IsLine l) :
    (first :: ls).flatten.dropLast ++ ['\n'] = (first :: ls).flatten := by
  obtain ⟨front, last, hlast⟩ : ∃ front last, first :: ls = front ++ [last] :=
    ⟨_, _, (List.dropLast_concat_getLast (List.cons_ne_nil first ls)).symm⟩
  have hmem : last ∈ first :: ls := hlast ▸ List.mem_append_right _ (List.mem_singleton_self _)
  obtain ⟨body, -, hbody⟩ := hlines last hmem
  have hend : (first :: ls).flatten = (front.flatten ++ body) ++ ['\n'] := by
    rw [hlast, hbody]
    simp
  rw [hend, List.dropLast_concat]

/-! ## Searching -/

section Search

variable {pattern a b : List Char}

theorem splitFirst_of_prefix (hne : pattern ≠ []) (rest : List Char) :
    splitFirst pattern (pattern ++ rest) = some ([], rest) := by
  cases pattern with
  | nil => exact absurd rfl hne
  | cons c p =>
    have hstarts : (c :: p).isPrefixOf (c :: (p ++ rest)) = true :=
      List.isPrefixOf_iff_prefix.2 (List.prefix_append (c :: p) rest)
    rw [List.cons_append, splitFirst, if_pos hstarts, ← List.cons_append, List.drop_left]

/-- What the pattern does not start in is passed over. -/
theorem splitFirst_append (h : ∀ s, s <:+ a → s ≠ [] → ¬ pattern <+: s ++ b) :
    splitFirst pattern (a ++ b) =
      (splitFirst pattern b).map fun parts => (a ++ parts.1, parts.2) := by
  induction a with
  | nil => simp
  | cons c a ih =>
    have hhere : ¬ pattern.isPrefixOf (c :: (a ++ b)) = true := fun hstarts =>
      h (c :: a) List.suffix_rfl (List.cons_ne_nil c a) (List.isPrefixOf_iff_prefix.1 hstarts)
    rw [List.cons_append, splitFirst, if_neg hhere,
      ih fun s hs => h s (hs.trans (List.suffix_cons c a)), Option.map_map]
    rfl

end Search

section LineEnds

variable {w : List Char} {ls : List (List Char)}

theorem not_mem_of_suffix {s cs : List Char} (hs : s <:+ cs) (h : '\n' ∉ cs) : '\n' ∉ s :=
  fun hmem => h (hs.subset hmem)

/-- Lines that do not end with the pattern are passed over. -/
theorem splitFirst_lines (hw : '\n' ∉ w) (hls : ∀ l ∈ ls, IsLine l)
    (h : ∀ l ∈ ls, ¬ w ++ ['\n'] <:+ l) (rest : List Char) :
    splitFirst (w ++ ['\n']) (ls.flatten ++ rest) =
      (splitFirst (w ++ ['\n']) rest).map fun parts => (ls.flatten ++ parts.1, parts.2) := by
  induction ls with
  | nil => simp
  | cons l ls ih =>
    obtain ⟨⟨body, hbody, rfl⟩, hrest⟩ := List.forall_mem_cons.1 hls
    obtain ⟨hl, h⟩ := List.forall_mem_cons.1 h
    rw [List.flatten_cons, List.append_assoc, splitFirst_append, ih hrest h, Option.map_map]
    · simp only [Function.comp_def, List.append_assoc]
    · intro s hs hne hstarts
      obtain rfl | ⟨s, rfl, hs'⟩ := List.suffix_concat_iff.1 hs
      · exact hne rfl
      rw [List.append_assoc, List.singleton_append,
        append_lineFeed_prefix_iff hw (not_mem_of_suffix hs' hbody)] at hstarts
      exact hl (hstarts ▸ hs)

/-- The pattern is found in the first line that ends with it. -/
theorem splitFirst_lineEnd (hw : '\n' ∉ w) (hls : ∀ l ∈ ls, IsLine l)
    (h : ∀ l ∈ ls, ¬ w ++ ['\n'] <:+ l) {line : List Char} (hline : IsLine line)
    (hend : w ++ ['\n'] <:+ line) (rest : List Char) :
    ∃ skipped, splitFirst (w ++ ['\n']) (ls.flatten ++ (line ++ rest)) = some (skipped, rest) := by
  obtain ⟨front, rfl⟩ := hend
  obtain ⟨body, hbody, heq⟩ := hline
  obtain rfl : front ++ w = body := by
    rw [← List.append_assoc] at heq
    exact List.append_cancel_right heq
  have hfound :
      splitFirst (w ++ ['\n']) (front ++ (w ++ ['\n'] ++ rest)) = some (front, rest) := by
    rw [splitFirst_append, splitFirst_of_prefix (by simp)]
    · simp
    · intro s hs hne hstarts
      have hrest : s ++ (w ++ ['\n'] ++ rest) = (s ++ w) ++ '\n' :: rest := by simp
      have hsw : '\n' ∉ s ++ w := by
        rw [List.mem_append, not_or] at hbody ⊢
        exact ⟨not_mem_of_suffix hs hbody.1, hbody.2⟩
      rw [hrest, append_lineFeed_prefix_iff hw hsw] at hstarts
      exact hne (List.append_left_eq_self.1 hstarts.symm)
  refine ⟨ls.flatten ++ front, ?_⟩
  rw [splitFirst_lines hw hls h, List.append_assoc, hfound]
  rfl

/-- A line is found behind another one, if it was not behind one before. -/
theorem splitFirst_lineAfter {line first : List Char} (hline : IsLine line) (hfirst : IsLine first)
    (hls : ∀ l ∈ ls, IsLine l) (h : line ∉ ls) (rest : List Char) :
    splitFirst ('\n' :: line) ((first :: ls).flatten ++ (line ++ rest)) =
      some ((first :: ls).flatten.dropLast, rest) := by
  induction ls generalizing first with
  | nil =>
    obtain ⟨body, hbody, rfl⟩ := hfirst
    have hfound : [body ++ ['\n']].flatten ++ (line ++ rest) = body ++ ('\n' :: line ++ rest) := by
      simp
    rw [hfound, splitFirst_append, splitFirst_of_prefix (List.cons_ne_nil _ _)]
    · simp
    · intro s hs hne hstarts
      obtain ⟨c, s, rfl⟩ := List.exists_cons_of_ne_nil hne
      obtain rfl := (List.cons_prefix_cons.1 hstarts).1
      exact hbody (hs.subset List.mem_cons_self)
  | cons second ls ih =>
    obtain ⟨hsecond, hls⟩ := List.forall_mem_cons.1 hls
    rw [List.mem_cons, not_or] at h
    rw [List.flatten_cons, List.append_assoc, splitFirst_append, ih hsecond hls h.2]
    · have hne : (second :: ls).flatten ≠ [] := by
        obtain ⟨body, -, rfl⟩ := hsecond
        simp
      rw [Option.map_some, List.dropLast_append_of_ne_nil hne]
    · obtain ⟨body, hbody, rfl⟩ := hfirst
      intro s hs hne hstarts
      obtain rfl | ⟨s, rfl, hs'⟩ := List.suffix_concat_iff.1 hs
      · exact hne rfl
      cases s with
      | cons c s =>
        obtain rfl := (List.cons_prefix_cons.1 hstarts).1
        exact hbody (hs'.subset List.mem_cons_self)
      | nil =>
        -- otherwise the next line would be the one that is looked for
        obtain ⟨body, hbody, rfl⟩ := hline
        obtain ⟨next, hnext, rfl⟩ := hsecond
        have hstarts : body ++ ['\n'] <+:
            next ++ '\n' :: (ls.flatten ++ (body ++ ['\n'] ++ rest)) := by
          simpa using (List.cons_prefix_cons.1 hstarts).2
        rw [append_lineFeed_prefix_iff hbody hnext] at hstarts
        exact h.1 (by rw [hstarts])

end LineEnds

end Blokwork.Text
