import Blokwork.Json.Parser
import Blokwork.Json.Printer

/-!
# Strings and numbers are read from their written form

A quoted string is read back as it was, whatever follows it (`readString_quote`). For a number the
written form has to denote the number in the first place, which `Number.ReadsBack` says of its text
alone; `readValue_text` carries that over to a text in which the number is followed by something
that does not continue a numeral (`NumeralEnd`).
-/

namespace Blokwork

namespace Json

/-! ## Strings -/

/-- A quote ends a string. -/
theorem stringBody_quote (rest : List Char) :
    stringBody .keep none ('"' :: rest) = .ok ([], rest) := by
  simp [stringBody]

/-- A character that needs no escape stands for itself. -/
theorem stringBody_plain {c : Char} (rest : List Char) (hq : c ≠ '"') (hb : c ≠ '\\')
    (hc : 0x20 ≤ c.toNat) :
    stringBody .keep none (c :: rest) = consChar c (stringBody .keep none rest) := by
  have hprintable : ¬ c.toNat < 0x20 := by omega
  rw [stringBody, if_neg hprintable]
  all_goals simp [hq, hb]

/-- An escape of one letter stands for its character. -/
theorem stringBody_letter {e c : Char} (rest : List Char) (h : escaped? e = some c) :
    stringBody .keep none ('\\' :: e :: rest) = consChar c (stringBody .keep none rest) := by
  have hu : e ≠ 'u' := by rintro rfl; simp [escaped?] at h
  rw [stringBody.eq_def]
  split <;> simp_all
  next hesc heq => exact absurd heq.2.symm (hesc e rest heq.1.symm)

/-- An escape of four hexadecimal digits below the surrogates stands for its character. -/
theorem stringBody_quad {a b c d : Char} {n : Nat} (rest : List Char)
    (h : hexQuad? a b c d = some n) (hn : n < 0xD800) :
    stringBody .keep none ('\\' :: 'u' :: a :: b :: c :: d :: rest) =
      consChar (Char.ofNat n) (stringBody .keep none rest) := by
  rw [stringBody.eq_def]
  simp only [h, reduceCtorEq, ↓reduceIte]
  rw [if_neg (by omega), if_neg (by omega)]

/-- The digits of an escaped control character denote it. -/
theorem hexQuad?_hexDigit :
    ∀ n < 0x20, hexQuad? '0' '0' (hexDigit (n / 16)) (hexDigit (n % 16)) = some n := by
  decide

/-- An escaped character is read as the character. -/
theorem stringBody_escapeChar (c : Char) (rest : List Char) :
    stringBody .keep none (escapeChar c ++ rest) = consChar c (stringBody .keep none rest) := by
  unfold escapeChar
  split
  · subst_vars; exact stringBody_letter rest rfl
  split
  · subst_vars; exact stringBody_letter rest rfl
  split
  · subst_vars; exact stringBody_letter rest rfl
  split
  · subst_vars; exact stringBody_letter rest rfl
  split
  · subst_vars; exact stringBody_letter rest rfl
  split
  · subst_vars; exact stringBody_letter rest rfl
  split
  · subst_vars; exact stringBody_letter rest rfl
  split
  · next h =>
    have hq := stringBody_quad rest (hexQuad?_hexDigit c.toNat h) (by omega)
    rwa [Char.ofNat_toNat] at hq
  · next hq hb _ _ _ _ _ h => exact stringBody_plain rest hq hb (by omega)

/-- The escaped characters of a string and a quote are read as the string. -/
theorem stringBody_escaped (s rest : List Char) :
    stringBody .keep none (s.flatMap escapeChar ++ '"' :: rest) = .ok (s, rest) := by
  induction s with
  | nil => exact stringBody_quote rest
  | cons c s ih =>
    rw [List.flatMap_cons, List.append_assoc, stringBody_escapeChar, ih]
    rfl

/-- The characters of a quoted string. -/
theorem toList_quote (s : String) :
    (quote s).toList = '"' :: (s.toList.flatMap escapeChar ++ ['"']) := by
  simp [quote]

/-- A quoted string is read back. -/
theorem readString_quote (s : String) (rest : List Char) :
    readString .keep (s.toList.flatMap escapeChar ++ '"' :: rest) = .ok (s, rest) := by
  simp [readString, stringBody_escaped, Except.map]

end Json

/-! ## Numerals -/

namespace Numeral

/-- The text does not continue a numeral. -/
def End (rest : List Char) : Prop :=
  ∀ c ∈ rest.head?, c.isDigit = false ∧ c ≠ '.' ∧ c ≠ 'e' ∧ c ≠ 'E'

theorem end_cons {c : Char} {rest : List Char} (hd : c.isDigit = false)
    (hp : c ≠ '.') (he : c ≠ 'e') (hE : c ≠ 'E') : End (c :: rest) := by
  simp [End, hd, hp, he, hE]

variable {rest : List Char}

/-- Digits are followed by what was followed by no digit. -/
theorem digits_append (hr : End rest) (cs : List Char) :
    digits (cs ++ rest) = ((digits cs).1, (digits cs).2 ++ rest) := by
  induction cs with
  | nil =>
    cases rest with
    | nil => rfl
    | cons c r => simp [digits, (hr c rfl).1]
  | cons c cs ih =>
    simp only [digits, Prod.mk.injEq, List.cons_append] at ih ⊢
    by_cases h : c.isDigit
    · simp [h, ih]
    · simp [h]

theorem digits1_append (hr : End rest) {cs ds r : List Char} (h : digits1 cs = .ok (ds, r)) :
    digits1 (cs ++ rest) = .ok (ds, r ++ rest) := by
  cases cs with
  | nil => simp [digits1, digits] at h
  | cons c cs =>
    unfold digits1 at h ⊢
    rw [digits_append hr]
    generalize digits (c :: cs) = found at h
    obtain ⟨ds', r'⟩ := found
    cases ds' <;> simp_all

theorem scanWhole_append (hr : End rest) {cs ds r : List Char} (h : scanWhole cs = .ok (ds, r)) :
    scanWhole (cs ++ rest) = .ok (ds, r ++ rest) := by
  unfold scanWhole at h ⊢
  cases hd : digits1 cs with
  | error e => rw [hd] at h; cases h
  | ok found =>
    obtain ⟨ds', r'⟩ := found
    rw [digits1_append hr hd]
    rw [hd] at h
    simp only [bind, Except.bind] at h ⊢
    split at h
    · cases h
    · cases h; rfl

/-- `digits1_append` for what is made of the digits. -/
theorem digits1_map_append {α : Type} (g : List Char → α) (hr : End rest) {cs r : List Char}
    {a : α} (h : ((digits1 cs).map fun (ds, r) => (g ds, r)) = .ok (a, r)) :
    ((digits1 (cs ++ rest)).map fun (ds, r) => (g ds, r)) = .ok (a, r ++ rest) := by
  cases hd : digits1 cs with
  | error e => rw [hd] at h; cases h
  | ok found =>
    rw [hd] at h
    cases h
    rw [digits1_append hr hd]
    rfl

theorem scanFraction_append (hr : End rest) {cs r : List Char} {f : Option (List Char)}
    (h : scanFraction cs = .ok (f, r)) : scanFraction (cs ++ rest) = .ok (f, r ++ rest) := by
  unfold scanFraction at h
  split at h
  · exact digits1_map_append some hr h
  · next hne =>
    cases h
    cases cs with
    | nil =>
      cases rest with
      | nil => rfl
      | cons c r => simp [scanFraction, (hr c rfl).2.1]
    | cons c cs =>
      have hc : c ≠ '.' := by rintro rfl; exact hne cs rfl
      simp [scanFraction, hc]

theorem scanExponent_append (hr : End rest) {cs r : List Char} {x : Option (Bool × List Char)}
    (h : scanExponent cs = .ok (x, r)) : scanExponent (cs ++ rest) = .ok (x, r ++ rest) := by
  cases cs with
  | nil =>
    cases h
    cases rest with
    | nil => rfl
    | cons c r => simp [scanExponent, (hr c rfl).2.2.1, (hr c rfl).2.2.2]
  | cons c cs =>
    simp only [scanExponent, List.cons_append] at h ⊢
    split at h
    · next hc =>
      rw [if_pos hc]
      -- the digits decide, behind a sign or without one
      split at h
      · exact digits1_map_append (fun ds => some (false, ds)) hr h
      · exact digits1_map_append (fun ds => some (true, ds)) hr h
      · next hp hm =>
        cases cs with
        | nil => cases h
        | cons d cs =>
          have hd : d ≠ '+' := by rintro rfl; exact hp cs rfl
          have hd' : d ≠ '-' := by rintro rfl; exact hm cs rfl
          simpa [hd, hd'] using digits1_map_append (fun ds => some (false, ds)) hr h
    · next hc => cases h; simp [hc]

theorem scan_append (hr : End rest) {negative : Bool} {cs r : List Char} {n : Numeral}
    (h : scan negative cs = .ok (n, r)) : scan negative (cs ++ rest) = .ok (n, r ++ rest) := by
  unfold scan at h ⊢
  cases hw : scanWhole cs with
  | error e => rw [hw] at h; cases h
  | ok whole =>
    rw [hw] at h
    rw [scanWhole_append hr hw]
    simp only [bind, Except.bind] at h ⊢
    cases hf : scanFraction whole.2 with
    | error e => rw [hf] at h; cases h
    | ok fraction =>
      rw [hf] at h
      rw [scanFraction_append hr hf]
      simp only at h ⊢
      cases hx : scanExponent fraction.2 with
      | error e => rw [hx] at h; cases h
      | ok exponent =>
        rw [hx] at h
        rw [scanExponent_append hr hx]
        cases h
        rfl

/-! ## What a numeral leaves is an end of the text -/

theorem digits1_suffix {cs ds r : List Char} (h : digits1 cs = .ok (ds, r)) : r <:+ cs := by
  have hd : r = cs.dropWhile Char.isDigit := by
    unfold digits1 digits at h
    split at h <;> cases h
    rfl
  exact hd ▸ List.dropWhile_suffix _

theorem digits1_map_suffix {α : Type} (g : List Char → α) {cs r : List Char} {a : α}
    (h : ((digits1 cs).map fun (ds, r) => (g ds, r)) = .ok (a, r)) : r <:+ cs := by
  cases hd : digits1 cs with
  | error e => rw [hd] at h; cases h
  | ok found =>
    rw [hd] at h
    cases h
    exact digits1_suffix hd

theorem scanWhole_suffix {cs ds r : List Char} (h : scanWhole cs = .ok (ds, r)) : r <:+ cs := by
  unfold scanWhole at h
  cases hd : digits1 cs with
  | error e => rw [hd] at h; cases h
  | ok found =>
    rw [hd] at h
    simp only [bind, Except.bind] at h
    split at h <;> cases h
    exact digits1_suffix hd

theorem scanFraction_suffix {cs r : List Char} {f : Option (List Char)}
    (h : scanFraction cs = .ok (f, r)) : r <:+ cs := by
  unfold scanFraction at h
  split at h
  · exact (digits1_map_suffix some h).trans (List.suffix_cons _ _)
  · cases h; exact List.suffix_rfl

theorem scanExponent_suffix {cs r : List Char} {x : Option (Bool × List Char)}
    (h : scanExponent cs = .ok (x, r)) : r <:+ cs := by
  cases cs with
  | nil => cases h; exact List.suffix_rfl
  | cons c cs =>
    simp only [scanExponent] at h
    split at h
    · refine List.IsSuffix.trans ?_ (List.suffix_cons c cs)
      split at h
      · exact (digits1_map_suffix (fun ds => some (false, ds)) h).trans (List.suffix_cons _ _)
      · exact (digits1_map_suffix (fun ds => some (true, ds)) h).trans (List.suffix_cons _ _)
      · exact digits1_map_suffix (fun ds => some (false, ds)) h
    · cases h; exact List.suffix_rfl

theorem scan_suffix {negative : Bool} {cs r : List Char} {n : Numeral}
    (h : scan negative cs = .ok (n, r)) : r <:+ cs := by
  unfold scan at h
  cases hw : scanWhole cs with
  | error e => rw [hw] at h; cases h
  | ok whole =>
    rw [hw] at h
    simp only [bind, Except.bind] at h
    cases hf : scanFraction whole.2 with
    | error e => rw [hf] at h; cases h
    | ok fraction =>
      rw [hf] at h
      simp only at h
      cases hx : scanExponent fraction.2 with
      | error e => rw [hx] at h; cases h
      | ok exponent =>
        rw [hx] at h
        cases h
        exact ((scanExponent_suffix hx).trans (scanFraction_suffix hf)).trans (scanWhole_suffix hw)

end Numeral

/-! ## The text of a number -/

namespace Number

/-- The characters of a numeral. -/
def isMark (c : Char) : Bool := c.isDigit || c = '-' || c = '+' || c = '.' || c = 'e'

/-- A text of such characters that is written out. -/
theorem isMark_of_mem_literal {s : String} (hs : s.toList.all isMark = true) {c : Char}
    (h : c ∈ s.toList) : isMark c = true :=
  List.all_eq_true.1 hs c h

theorem isMark_of_mem_repr {n : Nat} {c : Char} (h : c ∈ n.repr.toList) : isMark c = true := by
  simp only [Nat.repr_eq_ofList_toDigits, String.toList_ofList] at h
  simp [isMark, Nat.isDigit_of_mem_toDigits (by decide) (by decide) h]

/-- The text of a decimal consists of characters of numerals. -/
theorem isMark_of_mem_decimal {l : Decimal.Layout} {d : Decimal} {c : Char}
    (h : c ∈ (d.text l).toList) : isMark c = true := by
  have hdigits : ∀ x ∈ d.digits.repr.toList, isMark x = true := fun _ => isMark_of_mem_repr
  unfold Decimal.text at h
  simp only at h
  split at h
  · exact isMark_of_mem_literal (by decide) h
  split at h
  · split at h
    · simp only [String.toList_append, String.toList_ofList, List.mem_append] at h
      rcases h with (h | h) | h
      · exact hdigits _ h
      · rw [(List.mem_replicate.1 h).2]; rfl
      · exact isMark_of_mem_literal (by decide) h
    split at h
    · simp only [String.toList_append, String.toList_ofList, List.mem_append] at h
      rcases h with (h | h) | h
      · exact hdigits _ (List.mem_of_mem_take h)
      · exact isMark_of_mem_literal (by decide) h
      · exact hdigits _ (List.mem_of_mem_drop h)
    · simp only [String.toList_append, String.toList_ofList, List.mem_append] at h
      rcases h with (h | h) | h
      · exact isMark_of_mem_literal (by decide) h
      · rw [(List.mem_replicate.1 h).2]; rfl
      · exact hdigits _ h
  · simp only [String.toList_append, String.toList_ofList, List.mem_append] at h
    rcases h with (((h | h) | h) | h) | h
    · exact hdigits _ (List.mem_of_mem_take h)
    · split at h
      · cases h
      · simp only [String.toList_append, String.toList_ofList, List.mem_append] at h
        rcases h with h | h
        · exact isMark_of_mem_literal (by decide) h
        · exact hdigits _ (List.mem_of_mem_drop h)
    · exact isMark_of_mem_literal (by decide) h
    · split at h <;> exact isMark_of_mem_literal (by decide) h
    · exact isMark_of_mem_repr h

/-- The text of a number consists of characters of numerals. -/
theorem isMark_of_mem_text {n : Number} {c : Char} (h : c ∈ n.text.toList) : isMark c = true := by
  cases n with
  | int n =>
    simp only [text] at h
    split at h
    · simp only [String.toList_append, List.mem_append] at h
      rcases h with h | h
      · exact isMark_of_mem_literal (by decide) h
      · exact isMark_of_mem_repr h
    · exact isMark_of_mem_repr h
  | real x =>
    simp only [text, String.toList_append, List.mem_append] at h
    rcases h with h | h
    · split at h
      · exact isMark_of_mem_literal (by decide) h
      · cases h
    · exact isMark_of_mem_decimal h

/-- The text of a number is never empty, so every number is an identifier. -/
theorem text_ne_empty (n : Number) : n.text ≠ "" := by
  have hrepr (n : Nat) : n.repr ≠ "" := by
    rw [Nat.repr_eq_ofList_toDigits]
    simp [← String.toList_eq_nil_iff]
  have hdecimal (l : Decimal.Layout) (d : Decimal) : d.text l ≠ "" := by
    unfold Decimal.text
    dsimp only
    split
    · decide
    split
    · split
      · simp
      · split <;> simp
    · simp
  cases n with
  | int n =>
    simp only [text]
    split
    · simp
    · exact hrepr _
  | real x => simp [text, hdecimal]

/-- The number is what its text denotes. -/
def ReadsBack (n : Number) : Prop := Json.parse n.text = .ok (.num n)

end Number

namespace Json

/-- Blanks are skipped up to a character that is none. -/
theorem skipBlank_cons {c : Char} (cs : List Char)
    (h : c ≠ ' ' ∧ c ≠ '\n' ∧ c ≠ '\t' ∧ c ≠ '\r') : skipBlank (c :: cs) = c :: cs := by
  simp [skipBlank, h]

/-- A character of a numeral is no blank. -/
theorem ne_blank_of_isMark {c : Char} (h : Number.isMark c = true) :
    c ≠ ' ' ∧ c ≠ '\n' ∧ c ≠ '\t' ∧ c ≠ '\r' := by
  refine ⟨?_, ?_, ?_, ?_⟩ <;> (rintro rfl; revert h; decide)

/-- A value that starts with a digit is a number. -/
theorem readValue_digit (fuel room : Nat) {mode : Scan} {c : Char} (cs : List Char)
    (h : c.isDigit = true) :
    readValue (fuel + 1) mode room (c :: cs) =
      (readNumber mode false (c :: cs)).map fun (n, rest) => (.num n, rest) := by
  have hb : Number.isMark c = true := by simp [Number.isMark, h]
  rw [readValue, skipBlank_cons cs (ne_blank_of_isMark hb)]
  -- none of the other starts of a value is a digit
  split <;> rename_i heq <;> cases heq
  case h_9 => rw [if_pos h]
  all_goals exact absurd h (by decide)

/-- A value that starts with a minus sign is a number. -/
theorem readValue_minus (fuel room : Nat) {mode : Scan} (cs : List Char) :
    readValue (fuel + 1) mode room ('-' :: cs) =
      (readNumber mode true cs).map fun (n, rest) => (.num n, rest) := by
  rw [readValue, skipBlank_cons cs (by decide)]
  rfl

/-- No other character of a numeral starts a value. -/
theorem readValue_mark (fuel room : Nat) {mode : Scan} {c : Char} (cs : List Char)
    (h : Number.isMark c = true) (hd : ¬ c.isDigit = true) (hm : c ≠ '-') :
    readValue (fuel + 1) mode room (c :: cs) = .error .malformed := by
  have hc : c = '+' ∨ c = '.' ∨ c = 'e' := by simpa [Number.isMark, hd, hm, or_assoc] using h
  rw [readValue, skipBlank_cons cs (ne_blank_of_isMark h)]
  rcases hc with rfl | rfl | rfl <;> rfl

/-- A number is read the same before a text that does not continue it. -/
theorem readNumber_append {rest : List Char} (hr : Numeral.End rest) {negative : Bool}
    {cs r : List Char} {n : Number} (h : readNumber .keep negative cs = .ok (n, r)) :
    r <:+ cs ∧ readNumber .keep negative (cs ++ rest) = .ok (n, r ++ rest) := by
  unfold readNumber at h ⊢
  cases hs : Numeral.scan negative cs with
  | error e => rw [hs] at h; cases h
  | ok found =>
    obtain ⟨numeral, r'⟩ := found
    rw [Numeral.scan_append hr hs]
    rw [hs] at h
    simp only at h ⊢
    split at h
    · cases h; exact ⟨Numeral.scan_suffix hs, rfl⟩
    · cases h

/-- Marks of numerals that are all blanks are none. -/
theorem eq_nil_of_skipBlank {r : List Char} (h : skipBlank r = [])
    (hm : ∀ c ∈ r, Number.isMark c = true) : r = [] := by
  cases r with
  | nil => rfl
  | cons c r => rw [skipBlank_cons r (ne_blank_of_isMark (hm c (by simp)))] at h; cases h

/-- What is read of a text that is a value and nothing else. -/
theorem readValue_of_parse {text : String} {j : Json} (h : parse text = .ok j) :
    ∃ r, readValue (enoughFuel text.toList) .keep depthLimit text.toList = .ok (j, r) ∧
      skipBlank r = [] := by
  unfold parse parseWithin at h
  simp only [bind, Except.bind] at h
  split at h
  · cases h
  · next found hread =>
    obtain ⟨j', r⟩ := found
    simp only at h
    split at h
    · cases h
    · next hend =>
      cases h
      refine ⟨r, hread, ?_⟩
      unfold expectEnd at hend
      split at hend
      · next hnil => exact hnil
      · cases hend

end Json

/-- A number that its text denotes is read from the text, whatever ends it. -/
theorem Number.ReadsBack.readValue {n : Number} (h : n.ReadsBack) {rest : List Char}
    (hr : Numeral.End rest) (fuel room : Nat) :
    Json.readValue (fuel + 1) .keep room (n.text.toList ++ rest) = .ok (.num n, rest) := by
  obtain ⟨r, hread, hblank⟩ := Json.readValue_of_parse h
  have hmarks : ∀ c ∈ n.text.toList, Number.isMark c = true := fun _ => isMark_of_mem_text
  generalize n.text.toList = cs at hread hmarks
  -- only a minus sign and a digit start a number
  have finish {negative : Bool} {cs' : List Char} (hsub : ∀ c ∈ cs', Number.isMark c = true)
      (hnum : ((Json.readNumber .keep negative cs').map fun (n, rest) => (Json.num n, rest)) =
        .ok (.num n, r)) :
      ((Json.readNumber .keep negative (cs' ++ rest)).map fun (n, rest) => (Json.num n, rest)) =
        .ok (.num n, rest) := by
    cases hn : Json.readNumber .keep negative cs' with
    | error e => rw [hn] at hnum; cases hnum
    | ok found =>
      rw [hn] at hnum
      cases hnum
      obtain ⟨hsuffix, happend⟩ := Json.readNumber_append hr hn
      have hnil := Json.eq_nil_of_skipBlank hblank fun c hc => hsub c (hsuffix.subset hc)
      rw [happend, hnil]
      rfl
  rw [Json.enoughFuel] at hread
  cases cs with
  | nil => rw [Json.readValue] at hread; cases hread
  | cons c cs =>
    have hc := hmarks c (by simp)
    by_cases hd : c.isDigit
    · rw [Json.readValue_digit _ _ _ hd] at hread
      rw [List.cons_append, Json.readValue_digit _ _ _ hd]
      exact finish hmarks hread
    by_cases hm : c = '-'
    · subst hm
      rw [Json.readValue_minus] at hread
      rw [List.cons_append, Json.readValue_minus]
      exact finish (fun c hc => hmarks c (by simp [hc])) hread
    · rw [Json.readValue_mark _ _ _ hc hd hm] at hread
      cases hread

end Blokwork
