import Blokwork.Files.Pattern
import Blokwork.Proofs.Json.Reading
import Mathlib.Data.List.Basic

/-!
# Laws of file name patterns

A text without wildcards is the pattern of itself alone (`parse_plain`, `accepts_chars`), and the
pattern of the files in a directory is that of the names in `.json` (`accepts_jsonFiles`). What a
pattern stands for is said one token at a time (`accepts_cons_of_single`,
`accepts_cons_of_not_single`). The pattern of one step with a wildcard (`Spells`) does not stand
for the step itself, or it stands for other names as well (`Spells.exists_others`): brackets are
longer than the one character that they stand for, and any other wildcard can be varied.
-/

namespace Blokwork

namespace PatternToken

/-- The token stands for one character. -/
def isSingle : PatternToken → Bool
  | .sequence | .recursive => false
  | _ => true

/-- The token stands for the character. -/
def takes : PatternToken → Char → Bool
  | .char x, c => x = c
  | .any, _ => true
  | .oneOf negated ranges, c => Pattern.inRanges ranges c != negated
  | .sequence, _ | .recursive, _ => false

end PatternToken

namespace Pattern

variable {fuel position : Nat} {atStep : Bool} {c : Char} {text rest name : List Char}
variable {pattern tokens : Pattern} {token : PatternToken}

/-- The characters that stand for something else than themselves. -/
def isWildcard (c : Char) : Bool := c = '*' || c = '?' || c = '['

/-- No character of the text stands for something else. -/
def Plain (text : List Char) : Prop := ∀ c ∈ text, isWildcard c = false

/-! ## Texts without wildcards -/

theorem read_plain_cons (hc : isWildcard c = false) :
    read (fuel + 1) position atStep (c :: rest) =
      (read fuel (position + 1) (c = '/') rest).map (.char c :: ·) := by
  simp only [isWildcard, Bool.or_eq_false_iff, decide_eq_false_iff_not] at hc
  obtain ⟨⟨hstar, hany⟩, hbracket⟩ := hc
  rw [read]
  · exact hstar
  · exact hbracket
  · exact hany

/-- A text without wildcards stands for itself, in front of any other text. -/
theorem read_plain_append (h : Plain text) :
    ∃ atStep', read (text.length + fuel) position atStep (text ++ rest) =
      (read fuel (position + text.length) atStep' rest).map (text.map .char ++ ·) := by
  induction text generalizing position atStep with
  | nil =>
    refine ⟨atStep, ?_⟩
    cases hread : read fuel position atStep rest <;> simp [hread, Except.map]
  | cons c text ih =>
    obtain ⟨atStep', ih⟩ := @ih (position + 1) (c = '/') fun c hc =>
      h c (List.mem_cons_of_mem _ hc)
    refine ⟨atStep', ?_⟩
    rw [List.length_cons, Nat.add_right_comm, List.cons_append,
      read_plain_cons (h c List.mem_cons_self), ih,
      show position + 1 + text.length = position + (text.length + 1) by omega]
    cases read fuel (position + (text.length + 1)) atStep' rest <;> rfl

/-- What a text stands for -/
theorem parse_plain (h : Plain text) : parse (String.ofList text) = .ok (text.map .char) := by
  obtain ⟨atStep', hread⟩ := @read_plain_append 1 0 true text [] h
  rw [List.append_nil] at hread
  rw [parse, String.toList_ofList, hread]
  simp [read, Except.map]

theorem literal?_chars (text : List Char) : literal? (text.map .char) = some text := by
  induction text with
  | nil => rfl
  | cons c text ih => rw [List.map_cons, literal?, ih, Option.map_some]

/-- pattern of names in `.json`. -/
def jsonFiles : Pattern := .sequence :: ".json".toList.map .char

theorem read_jsonFiles : read (fuel + 7) position atStep "*.json".toList = .ok jsonFiles := by
  simp [read, jsonFiles, Except.map]

theorem accepts_chars (text name : List Char) :
    accepts (text.map .char) name = decide (text = name) := by
  induction text generalizing name with
  | nil => cases name <;> simp [accepts]
  | cons c text ih => cases name <;> simp [accepts, ih]

/-! ## What a pattern stands for -/

theorem mem_rests : rest ∈ rests text ↔ rest <:+ text := by
  induction text with
  | nil => simp [rests]
  | cons c text ih => simp [rests, ih, List.suffix_cons_iff]

theorem accepts_cons_of_single (htoken : token.isSingle = true) :
    accepts (token :: tokens) name = true ↔
      ∃ c rest, name = c :: rest ∧ token.takes c = true ∧ accepts tokens rest = true := by
  cases token with
  | sequence | recursive => cases htoken
  | char | any | oneOf => cases name <;> simp [accepts, PatternToken.takes]

theorem accepts_cons_of_not_single (htoken : token.isSingle = false) :
    accepts (token :: tokens) name = true ↔
      ∃ front back, name = front ++ back ∧ accepts tokens back = true := by
  have hrests : accepts (token :: tokens) name = (rests name).any (accepts tokens) := by
    cases token with
    | sequence | recursive => rw [accepts]
    | char | any | oneOf => cases htoken
  rw [hrests, List.any_eq_true]
  constructor
  · rintro ⟨back, hback, h⟩
    obtain ⟨front, hfront⟩ := mem_rests.1 hback
    exact ⟨front, back, hfront.symm, h⟩
  · rintro ⟨front, back, rfl, h⟩
    exact ⟨back, mem_rests.2 (List.suffix_append front back), h⟩

/-- Tokens that stand for any characters may stand for none. -/
theorem exists_shortest (h : accepts pattern name = true) :
    ∃ short, accepts pattern short = true ∧ short.Sublist name ∧
      short.length = pattern.countP (·.isSingle) := by
  induction pattern generalizing name with
  | nil => exact ⟨[], rfl, List.nil_sublist _, rfl⟩
  | cons token tokens ih =>
    cases htoken : token.isSingle with
    | true =>
      obtain ⟨c, rest, rfl, hc, hrest⟩ := (accepts_cons_of_single htoken).1 h
      obtain ⟨short, hshort, hsub, hlength⟩ := ih hrest
      exact ⟨c :: short, (accepts_cons_of_single htoken).2 ⟨c, short, rfl, hc, hshort⟩,
        hsub.cons_cons c, by rw [List.length_cons, List.countP_cons, hlength, if_pos htoken]⟩
    | false =>
      obtain ⟨front, back, rfl, hback⟩ := (accepts_cons_of_not_single htoken).1 h
      obtain ⟨short, hshort, hsub, hlength⟩ := ih hback
      refine ⟨short, (accepts_cons_of_not_single htoken).2 ⟨[], short, rfl, hshort⟩,
        hsub.trans (List.sublist_append_right front back), ?_⟩
      rw [List.countP_cons, hlength, htoken, if_neg Bool.false_ne_true, Nat.add_zero]

theorem countP_le_of_accepts (h : accepts pattern name = true) :
    pattern.countP (·.isSingle) ≤ name.length := by
  obtain ⟨short, -, hsub, hlength⟩ := exists_shortest h
  exact hlength ▸ hsub.length_le

/-- A pattern without tokens for any characters stands for names of one length. -/
theorem length_of_accepts (hsingle : ∀ token ∈ pattern, token.isSingle = true)
    (h : accepts pattern name = true) : name.length = pattern.length := by
  induction pattern generalizing name with
  | nil =>
    rw [accepts, List.isEmpty_iff] at h
    rw [h, List.length_nil, List.length_nil]
  | cons token tokens ih =>
    obtain ⟨c, rest, rfl, -, hrest⟩ :=
      (accepts_cons_of_single (hsingle token List.mem_cons_self)).1 h
    rw [List.length_cons, List.length_cons,
      ih (fun t ht => hsingle t (List.mem_cons_of_mem _ ht)) hrest]

/-- Names that a pattern with a token for any character or characters stands for can be varied. -/
theorem exists_varied (hfree : ∃ token ∈ pattern, token.isSingle = false ∨ token = .any)
    (h : accepts pattern name = true) :
    ∃ front back, (front ++ back).Sublist name ∧
      ∀ c, accepts pattern (front ++ c :: back) = true := by
  induction pattern generalizing name with
  | nil =>
    obtain ⟨token, htoken, -⟩ := hfree
    exact absurd htoken List.not_mem_nil
  | cons token tokens ih =>
    cases htoken : token.isSingle with
    | false =>
      obtain ⟨front, back, rfl, hback⟩ := (accepts_cons_of_not_single htoken).1 h
      exact ⟨[], back, List.sublist_append_right front back,
        fun c => (accepts_cons_of_not_single htoken).2 ⟨[c], back, rfl, hback⟩⟩
    | true =>
      obtain ⟨d, rest, rfl, hd, hrest⟩ := (accepts_cons_of_single htoken).1 h
      by_cases hany : token = .any
      · subst hany
        exact ⟨[], rest, List.sublist_cons_self d rest,
          fun c => (accepts_cons_of_single htoken).2 ⟨c, rest, rfl, rfl, hrest⟩⟩
      · have hrestFree : ∃ token ∈ tokens, token.isSingle = false ∨ token = .any := by
          obtain ⟨t, ht, hfree⟩ := hfree
          rcases List.mem_cons.1 ht with rfl | ht
          · exact absurd hfree (by rw [htoken]; exact fun h => h.elim nofun hany)
          · exact ⟨t, ht, hfree⟩
        obtain ⟨front, back, hsub, hvaried⟩ := ih hrestFree hrest
        exact ⟨d :: front, back, hsub.cons_cons d, fun c =>
          (accepts_cons_of_single htoken).2 ⟨d, _, rfl, hd, hvaried c⟩⟩

/-- Names end with the character that a pattern ends with. -/
theorem getLast?_of_accepts (h : accepts (pattern ++ [.char c]) name = true) :
    name.getLast? = some c := by
  induction pattern generalizing name with
  | nil =>
    obtain ⟨d, rest, rfl, hd, hrest⟩ := (accepts_cons_of_single rfl).1 h
    rw [accepts, List.isEmpty_iff] at hrest
    simp only [PatternToken.takes, decide_eq_true_eq] at hd
    rw [hrest, hd, List.getLast?_singleton]
  | cons token tokens ih =>
    rw [List.cons_append] at h
    cases htoken : token.isSingle with
    | true =>
      obtain ⟨d, rest, rfl, -, hrest⟩ := (accepts_cons_of_single htoken).1 h
      rw [List.getLast?_cons, ih hrest, Option.getD_some]
    | false =>
      obtain ⟨front, back, rfl, hback⟩ := (accepts_cons_of_not_single htoken).1 h
      rw [List.getLast?_append, ih hback, Option.some_or]

theorem accepts_jsonFiles (name : List Char) :
    accepts jsonFiles name = ".json".toList.isSuffixOf name := by
  rw [Bool.eq_iff_iff, jsonFiles, accepts, List.any_eq_true, List.isSuffixOf_iff_suffix]
  constructor
  · rintro ⟨rest, hrest, h⟩
    rw [accepts_chars, decide_eq_true_eq] at h
    exact h ▸ mem_rests.1 hrest
  · intro h
    exact ⟨_, mem_rests.2 h, by rw [accepts_chars]; simp⟩

/-! ## The pattern of one step -/

/-- How the pattern of a step other than the two stars is read. -/
inductive Spells : List Char → Pattern → Prop
  | nil : Spells [] []
  | char {c : Char} {text : List Char} {pattern : Pattern} :
      isWildcard c = false → Spells text pattern → Spells (c :: text) (.char c :: pattern)
  | any {text : List Char} {pattern : Pattern} :
      Spells text pattern → Spells ('?' :: text) (.any :: pattern)
  | sequence {text : List Char} {pattern : Pattern} :
      Spells text pattern → Spells ('*' :: text) (.sequence :: pattern)
  /-- Brackets hold a character at least, and the last one closes them. -/
  | brackets {inside text : List Char} {negated : Bool} {ranges : List (Char × Char)}
      {pattern : Pattern} : inside ≠ [] → Spells text pattern →
      Spells ('[' :: (inside ++ ']' :: text)) (.oneOf negated ranges :: pattern)

theorem upToBracket_eq_some {front : List Char} (h : upToBracket text = some (front, rest)) :
    text = front ++ ']' :: rest := by
  rw [upToBracket] at h
  split at h
  · cases h
  · rename_i d behind hdrop
    obtain ⟨rfl, rfl⟩ := Prod.mk.inj (Option.some.inj h)
    have hd : d = ']' := by
      have hhead := List.head?_dropWhile_not (fun x => decide (x ≠ ']')) text
      rw [hdrop] at hhead
      simpa using hhead
    have hparts := List.takeWhile_append_dropWhile (p := fun x => decide (x ≠ ']')) (l := text)
    rw [hdrop, hd] at hparts
    exact hparts.symm

theorem readBrackets_eq_some (h : readBrackets text = some (token, rest)) :
    (∃ negated ranges, token = .oneOf negated ranges) ∧
      ∃ inside, inside ≠ [] ∧ text = inside ++ ']' :: rest := by
  rw [readBrackets.eq_def] at h
  split at h
  · rename_i a after
    obtain ⟨⟨front, behind⟩, hup, h⟩ := Option.map_eq_some_iff.1 h
    obtain ⟨rfl, rfl⟩ := Prod.mk.inj h
    refine ⟨⟨_, _, rfl⟩, '!' :: a :: front, List.cons_ne_nil _ _, ?_⟩
    rw [upToBracket_eq_some hup]
    rfl
  · cases h
  · rename_i a after _ _
    obtain ⟨⟨front, behind⟩, hup, h⟩ := Option.map_eq_some_iff.1 h
    obtain ⟨rfl, rfl⟩ := Prod.mk.inj h
    refine ⟨⟨_, _, rfl⟩, a :: front, List.cons_ne_nil _ _, ?_⟩
    rw [upToBracket_eq_some hup]
    rfl
  · cases h

/-- A step is spelled, or it is the two stars. -/
theorem spells_of_read (hread : read fuel position atStep text = .ok pattern)
    (hslash : '/' ∉ text) (hfuel : text.length < fuel) :
    Spells text pattern ∨
      (atStep = true ∧ text = ['*', '*'] ∧ pattern = [.recursive]) := by
  induction fuel generalizing position atStep text pattern with
  | zero => exact absurd hfuel (Nat.not_lt_zero _)
  | succ fuel ih =>
    -- what follows a character is not at the start of a step, where two stars are a mistake
    have hbehind : ∀ {position : Nat} {rest : List Char} {tokens : Pattern},
        read fuel position false rest = .ok tokens → '/' ∉ rest → rest.length < fuel →
          Spells rest tokens := fun hread hslash hfuel =>
      (ih hread hslash hfuel).resolve_right fun h => nomatch h.1
    rw [read.eq_def] at hread
    split at hread
    · rename_i h; cases h
    · obtain rfl := Except.ok.inj hread
      exact .inl .nil
    · rename_i h
      obtain rfl := Nat.succ.inj h
      split at hread
      · cases hread
      · split at hread
        · cases hread
        · rename_i hstep
          split at hread
          · exact .inr ⟨by simpa using hstep, rfl, (Except.ok.inj hread).symm⟩
          · exact absurd (by simp) hslash
          · cases hread
      · obtain ⟨tokens, hrest, rfl⟩ := exists_of_map_eq_ok hread
        exact .inl (.sequence (hbehind hrest (fun h => hslash (List.mem_cons_of_mem _ h))
          (Nat.lt_of_succ_lt_succ hfuel)))
    · rename_i h
      obtain rfl := Nat.succ.inj h
      split at hread
      · cases hread
      · rename_i hbrackets
        obtain ⟨⟨negated, ranges, rfl⟩, inside, hinside, rfl⟩ := readBrackets_eq_some hbrackets
        obtain ⟨tokens, hrest, rfl⟩ := exists_of_map_eq_ok hread
        refine .inl (.brackets hinside (hbehind hrest (fun h => hslash ?_) ?_))
        · simp [h]
        · simp only [List.length_cons, List.length_append] at hfuel
          omega
    · rename_i h
      obtain rfl := Nat.succ.inj h
      obtain ⟨tokens, hrest, rfl⟩ := exists_of_map_eq_ok hread
      exact .inl (.any (hbehind hrest (fun h => hslash (List.mem_cons_of_mem _ h))
        (Nat.lt_of_succ_lt_succ hfuel)))
    · rename_i c rest hstar hbracket hany h
      obtain rfl := Nat.succ.inj h
      obtain ⟨tokens, hrest, rfl⟩ := exists_of_map_eq_ok hread
      rw [List.mem_cons, not_or] at hslash
      rw [decide_eq_false (Ne.symm hslash.1)] at hrest
      refine .inl (.char ?_ (hbehind hrest hslash.2 (Nat.lt_of_succ_lt_succ hfuel)))
      simp only [isWildcard, Bool.or_eq_false_iff, decide_eq_false_iff_not]
      exact ⟨⟨hstar, hany⟩, hbracket⟩

theorem Spells.length_le (h : Spells text pattern) : pattern.length ≤ text.length := by
  induction h with
  | nil => exact Nat.le_refl _
  | char _ _ ih | any _ ih | sequence _ ih => exact Nat.succ_le_succ ih
  | brackets _ _ ih =>
    simp only [List.length_cons, List.length_append]
    omega

/-- A last character that is neither a wildcard nor a bracket is the last token. -/
theorem Spells.getLast? (h : Spells text pattern) (hlast : text.getLast? = some c)
    (hc : isWildcard c = false) (hbracket : c ≠ ']') : pattern.getLast? = some (.char c) := by
  induction h with
  | nil => cases hlast
  | @char d text tokens _ hrest ih =>
    rw [List.getLast?_cons] at hlast ⊢
    cases htext : text.getLast? with
    | none =>
      rw [htext] at hlast
      obtain rfl := List.getLast?_eq_none_iff.1 htext
      cases hrest
      exact congrArg (some ∘ PatternToken.char) (Option.some.inj hlast)
    | some e =>
      rw [htext] at hlast
      rw [ih (htext.trans hlast), Option.getD_some]
  | @any text tokens _ ih | @sequence text tokens _ ih =>
    rw [List.getLast?_cons] at hlast ⊢
    cases htext : text.getLast? with
    | none =>
      rw [htext] at hlast
      cases hlast
      cases hc
    | some e =>
      rw [htext] at hlast
      rw [ih (htext.trans hlast), Option.getD_some]
  | @brackets inside text negated ranges tokens _ _ ih =>
    rw [List.getLast?_cons, List.getLast?_append, List.getLast?_cons] at hlast
    rw [List.getLast?_cons]
    cases htext : text.getLast? with
    | none =>
      rw [htext] at hlast
      cases hlast
      exact absurd rfl hbracket
    | some e =>
      rw [htext] at hlast
      rw [ih (htext.trans hlast), Option.getD_some]

/-- A step with a wildcard that stands for itself has a token for any character or characters:
brackets are longer than what they stand for. -/
theorem Spells.exists_free (h : Spells text pattern) (hwild : ¬ Plain text)
    (hself : accepts pattern text = true) :
    ∃ token ∈ pattern, token.isSingle = false ∨ token = .any := by
  by_contra hrigid
  push Not at hrigid
  have hlength : text.length = pattern.length :=
    length_of_accepts (fun t ht => by simpa using (hrigid t ht).1) hself
  clear hself
  refine hwild ?_
  clear hwild
  induction h with
  | nil => exact fun c hc => absurd hc List.not_mem_nil
  | char hc _ ih =>
    have hrest := ih (fun t ht => hrigid t (List.mem_cons_of_mem _ ht)) (Nat.succ.inj hlength)
    intro d hd
    rcases List.mem_cons.1 hd with rfl | hd
    · exact hc
    · exact hrest d hd
  | any _ _ => exact absurd rfl (hrigid _ List.mem_cons_self).2
  | sequence _ _ => exact absurd rfl (hrigid _ List.mem_cons_self).1
  | brackets _ hrest _ =>
    have hle := hrest.length_le
    simp only [List.length_cons, List.length_append] at hlength
    omega

/-- A step with a wildcard is no text to look up. -/
theorem Spells.literal?_eq_none (h : Spells text pattern) (hwild : ¬ Plain text) :
    literal? pattern = none := by
  induction h with
  | nil => exact absurd (fun c hc => absurd hc List.not_mem_nil) hwild
  | @char d text tokens hd hrest ih =>
    rw [literal?, ih fun hplain => hwild fun c hc => ?_, Option.map_none]
    rcases List.mem_cons.1 hc with rfl | hc
    · exact hd
    · exact hplain c hc
  | any | sequence | brackets => rfl

/-- Only the two stars are any number of steps. -/
theorem Spells.isRecursive_eq_false (h : Spells text pattern) : isRecursive pattern = false := by
  induction h with
  | nil => rfl
  | char _ _ ih | any _ ih | sequence _ ih | brackets _ _ ih =>
    rw [isRecursive, List.contains_cons]
    exact ih

/-- A step with a wildcard that stands for itself stands for other names as well, which are made
of fewer of its characters and any further one. -/
theorem Spells.exists_others (h : Spells text pattern) (hwild : ¬ Plain text)
    (hself : accepts pattern text = true) :
    ∃ front back, (front ++ back).Sublist text ∧ (front ++ back).length < text.length ∧
      (front ++ back).length ≤ pattern.countP (·.isSingle) ∧
      ∀ c, accepts pattern (front ++ c :: back) = true := by
  obtain ⟨short, hshort, hsub, hcount⟩ := exists_shortest hself
  obtain ⟨front, back, hvaried, haccepts⟩ := exists_varied (h.exists_free hwild hself) hshort
  have hlength := hvaried.length_le
  have htokens := h.length_le
  refine ⟨front, back, hvaried.trans hsub, ?_, hcount ▸ hlength, haccepts⟩
  by_contra hfull
  -- nothing is left out of the step, so that each of its tokens stands for one character
  have hall : pattern.countP (·.isSingle) = pattern.length := by
    have hle := pattern.countP_le_length (p := (·.isSingle))
    omega
  have hone := length_of_accepts (List.countP_eq_length.1 hall) (haccepts 'a')
  rw [List.length_append, List.length_cons] at hone
  rw [List.length_append] at hfull
  omega

end Pattern
end Blokwork
