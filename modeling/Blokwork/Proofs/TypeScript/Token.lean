import Mathlib.Data.List.Forall2
import Blokwork.Json.Printer
import Blokwork.Proofs.Json.Spelling
import Blokwork.Text.Blank
import Blokwork.TypeScript.Comment
import Blokwork.TypeScript.Identifier

/-!
# Tokens of a declaration text

The words, numbers, strings and marks of a TypeScript text, with its line breaks; blanks and
comments leave no token. `Scanning` is what a reader has in hand between two characters, `scan` its
way through a text, and `lex` the tokens of a text that ends in no open string or comment.

Texts are put together from parts, and so are their tokens. A part behind which the reader has
nothing in hand is `Closed`, and anything may follow it. Behind any other part a character must
follow that continues no token (`isBoundary`), which is what `lex_append` asks for.
-/

namespace Blokwork.TypeScript

/-- A token. -/
inductive Token where
  | word (text : String)
  | number (text : String)
  /-- A string with its quotes, as it is spelled. -/
  | text (spelling : String)
  | mark (c : Char)
  /-- The arrow `=>`, which closes no bracket. -/
  | arrow
  | lineBreak
deriving DecidableEq, Repr

/-- What a reader has in hand between two characters. -/
inductive Scanning where
  | between
  | word (read : List Char)
  | number (read : List Char)
  | text (delimiter : Char) (escaped : Bool) (read : List Char)
  /-- A template, with the closing marks that are awaited in it, the innermost first. -/
  | template (awaited : List Char) (previous : Char) (read : List Char)
  /-- A string that was broken by the end of its line, or a comment inside a template. -/
  | brokenText
  | slash
  | comment (star : Bool)
  | lineComment
  | equals
deriving DecidableEq, Repr

namespace Scanning

/-- The character ends a line. -/
def endsLine (c : Char) : Bool := c = '\n' || c = '\r' || c = '\u2028' || c = '\u2029'

/-- The character continues a number. -/
def continuesNumber (c : Char) : Bool := isIdentifierPart c || c = '.' || c = '+' || c = '-'

/-- A character with nothing in hand. -/
def start (c : Char) : List Token × Scanning :=
  if isIdentifierStart c then ([], .word [c])
  else if c.isDigit || c = '-' then ([], .number [c])
  else if c = '"' || c = '\'' then ([], .text c false [c])
  else if c = '`' then ([], .template ['`'] c [c])
  else if endsLine c then ([.lineBreak], .between)
  else if Text.isBlankChar c then ([], .between)
  else if c = '/' then ([], .slash)
  else if c = '=' then ([], .equals)
  else ([.mark c], .between)

/-- The tokens in hand at the end of a text; `none` inside a string or a comment. -/
def finish : Scanning → Option (List Token)
  | between => some []
  | word read => some [.word (String.ofList read)]
  | number read => some [.number (String.ofList read)]
  | slash => some [.mark '/']
  | equals => some [.mark '=']
  | text _ _ _ | template _ _ _ | brokenText | comment _ | lineComment => none

/-- The closing marks awaited in a template behind a character: of the template itself, of what is
put into it, and of strings and templates therein. -/
def awaitedBehind (previous c : Char) : List Char → Option (List Char)
  | [] => none
  | '`' :: awaited =>
    if c = '`' then some awaited
    else if c = '\x7b' ∧ previous = '$' then some ('\x7d' :: '`' :: awaited)
    else some ('`' :: awaited)
  | '\x7d' :: awaited =>
    if c = '\x7d' then some awaited
    else if c = '\x7b' then some ('\x7d' :: '\x7d' :: awaited)
    else if c = '"' || c = '\'' || c = '`' then some (c :: '\x7d' :: awaited)
    else if c = '/' then none
    else some ('\x7d' :: awaited)
  | quote :: awaited =>
    if c = quote then some awaited
    else if c = '\n' || c = '\r' then none
    else some (quote :: awaited)

/-- A character behind some tokens, with nothing else in hand. -/
def startBehind (tokens : List Token) (c : Char) : List Token × Scanning :=
  (tokens ++ (start c).1, (start c).2)

/-- The next character. -/
def next (c : Char) : Scanning → List Token × Scanning
  | between => start c
  | word read =>
    if isIdentifierPart c then ([], word (read ++ [c]))
    else startBehind [.word (String.ofList read)] c
  | number read =>
    if continuesNumber c then ([], number (read ++ [c]))
    else startBehind [.number (String.ofList read)] c
  | text delimiter escaped read =>
    if c = '\n' ∨ c = '\r' then ([], brokenText)
    else if escaped then ([], text delimiter false (read ++ [c]))
    else if c = delimiter then ([.text (String.ofList (read ++ [c]))], between)
    else ([], text delimiter (c = '\\') (read ++ [c]))
  | template awaited previous read =>
    if previous = '\\' then ([], template awaited ' ' (read ++ [c]))
    else
      match awaitedBehind previous c awaited with
      | none => ([], brokenText)
      | some [] => ([.text (String.ofList (read ++ [c]))], between)
      | some awaited => ([], template awaited c (read ++ [c]))
  | brokenText => ([], brokenText)
  | slash =>
    if c = '*' then ([], comment false)
    else if c = '/' then ([], lineComment)
    else startBehind [.mark '/'] c
  | comment star => if star ∧ c = '/' then ([], between) else ([], comment (c = '*'))
  | lineComment => if endsLine c then ([.lineBreak], between) else ([], lineComment)
  | equals => if c = '>' then ([.arrow], between) else startBehind [.mark '='] c

end Scanning

/-- The tokens that end within a text, and what is in hand at its end. -/
def scan : Scanning → List Char → List Token × Scanning
  | s, [] => ([], s)
  | s, c :: cs =>
    let (tokens, s) := s.next c
    let (more, s) := scan s cs
    (tokens ++ more, s)

/-- The tokens of a text; `none` when it ends inside a string or a comment. -/
def lex (cs : List Char) : Option (List Token) :=
  let (tokens, s) := scan .between cs
  s.finish.map (tokens ++ ·)

/-! ## Texts put together -/

theorem scan_nil (s : Scanning) : scan s [] = ([], s) := rfl

theorem scan_cons (s : Scanning) (c : Char) (cs : List Char) :
    scan s (c :: cs) =
      ((s.next c).1 ++ (scan (s.next c).2 cs).1, (scan (s.next c).2 cs).2) := rfl

theorem scan_append (s : Scanning) (a b : List Char) :
    scan s (a ++ b) = ((scan s a).1 ++ (scan (scan s a).2 b).1, (scan (scan s a).2 b).2) := by
  induction a generalizing s with
  | nil => simp [scan_nil]
  | cons c a ih => simp [scan_cons, ih]

/-- The text has these tokens, and there is nothing in hand behind it. -/
def Closed (cs : List Char) (tokens : List Token) : Prop := scan .between cs = (tokens, .between)

instance (cs : List Char) (tokens : List Token) : Decidable (Closed cs tokens) :=
  inferInstanceAs (Decidable (_ = _))

/-- The character continues no token. -/
def isBoundary (c : Char) : Bool :=
  !(isIdentifierPart c || c = '.' || c = '+' || c = '-' || c = '>' || c = '*' || c = '/')

/-- The text starts with no character that continues a token. -/
def StartsApart (cs : List Char) : Prop := cs.head?.all isBoundary = true

instance (cs : List Char) : Decidable (StartsApart cs) := inferInstanceAs (Decidable (_ = _))

/-- Behind a text that may end, a boundary is read as with nothing in hand. -/
theorem next_of_isBoundary {s : Scanning} {tokens : List Token} (hs : s.finish = some tokens)
    {c : Char} (hc : isBoundary c = true) :
    s.next c = (tokens ++ (Scanning.start c).1, (Scanning.start c).2) := by
  simp only [isBoundary, Bool.not_eq_true', Bool.or_eq_false_iff, decide_eq_false_iff_not] at hc
  obtain ⟨⟨⟨⟨⟨⟨hpart, hdot⟩, hplus⟩, hminus⟩, harrow⟩, hstar⟩, hslash⟩ := hc
  cases s with
  | between => cases hs; simp [Scanning.next]
  | word read => cases hs; simp [Scanning.next, Scanning.startBehind, hpart]
  | number read =>
    cases hs
    simp [Scanning.next, Scanning.startBehind, Scanning.continuesNumber, hpart, hdot, hplus,
      hminus]
  | slash => cases hs; simp [Scanning.next, Scanning.startBehind, hstar, hslash]
  | equals => cases hs; simp [Scanning.next, Scanning.startBehind, harrow]
  | text _ _ _ | template _ _ _ | brokenText | comment _ | lineComment => cases hs

theorem scan_of_startsApart {s : Scanning} {tokens : List Token} (hs : s.finish = some tokens)
    {c : Char} {cs : List Char} (h : StartsApart (c :: cs)) :
    scan s (c :: cs) = (tokens ++ (scan .between (c :: cs)).1, (scan .between (c :: cs)).2) := by
  rw [scan_cons, scan_cons, next_of_isBoundary hs h]
  simp [Scanning.next]

section Parts

variable {a b : List Char} {ts us : List Token}

theorem lex_eq_some (h : lex a = some ts) :
    ∃ ended held, (scan .between a).1 = ended ∧ (scan .between a).2.finish = some held ∧
      ts = ended ++ held := by
  obtain ⟨held, hheld, rfl⟩ := Option.map_eq_some_iff.1 h
  exact ⟨_, held, rfl, hheld, rfl⟩

/-- The tokens of two parts, when the second starts apart. -/
theorem lex_append (ha : lex a = some ts) (hb : lex b = some us) (h : StartsApart b) :
    lex (a ++ b) = some (ts ++ us) := by
  obtain ⟨ended, held, hended, hheld, rfl⟩ := lex_eq_some ha
  cases b with
  | nil =>
    cases hb
    simpa using ha
  | cons c b =>
    obtain ⟨ended', held', hended', hheld', rfl⟩ := lex_eq_some hb
    rw [lex, scan_append, scan_of_startsApart hheld h, hended, hended']
    simp [hheld']

/-- A part that may end is closed by a closed one that starts apart. -/
theorem closed_append_of_lex (ha : lex a = some ts) (hb : Closed b us) (h : StartsApart b)
    (hne : b ≠ []) : Closed (a ++ b) (ts ++ us) := by
  obtain ⟨ended, held, hended, hheld, rfl⟩ := lex_eq_some ha
  cases b with
  | nil => exact absurd rfl hne
  | cons c b =>
    rw [Closed] at hb
    rw [Closed, scan_append, scan_of_startsApart hheld h, hended, hb, List.append_assoc]

theorem Closed.append (ha : Closed a ts) (hb : Closed b us) : Closed (a ++ b) (ts ++ us) := by
  rw [Closed] at ha hb
  rw [Closed, scan_append, ha, hb]

/-- Anything may follow a closed part. -/
theorem Closed.lex_append (ha : Closed a ts) (hb : lex b = some us) :
    lex (a ++ b) = some (ts ++ us) := by
  obtain ⟨ended, held, hended, hheld, rfl⟩ := lex_eq_some hb
  rw [Closed] at ha
  rw [lex, scan_append, ha, hended]
  simp [hheld]

theorem Closed.lex (ha : Closed a ts) : lex a = some ts := by
  simpa using ha.lex_append (b := []) rfl

theorem closed_nil : Closed [] [] := rfl

end Parts

/-! ## Words, numbers and strings -/

theorem scan_word (read : List Char) {cs : List Char} (h : cs.all isIdentifierPart = true) :
    scan (.word read) cs = ([], .word (read ++ cs)) := by
  induction cs generalizing read with
  | nil => simp [scan_nil]
  | cons c cs ih =>
    obtain ⟨hc, hcs⟩ : isIdentifierPart c = true ∧ cs.all isIdentifierPart = true := by
      simpa using h
    simp [scan_cons, Scanning.next, hc, ih _ hcs]

theorem isIdentifierStart_of_isIdentifier {name : String} (h : isIdentifier name = true) :
    ∃ c cs, name.toList = c :: cs ∧ isIdentifierStart c = true ∧
      cs.all isIdentifierPart = true := by
  unfold isIdentifier at h
  split at h
  · cases h
  · next c cs heq => exact ⟨c, cs, heq, (Bool.and_eq_true _ _).mp h⟩

/-- An identifier is one word. -/
theorem lex_identifier {name : String} (h : isIdentifier name = true) :
    lex name.toList = some [.word name] := by
  obtain ⟨c, cs, heq, hc, hcs⟩ := isIdentifierStart_of_isIdentifier h
  have hstart : Scanning.start c = ([], .word [c]) := if_pos hc
  rw [lex, heq, scan_cons, Scanning.next, hstart, scan_word _ hcs]
  simp [Scanning.finish, ← heq]

/-- A character of a numeral continues a number. -/
theorem continuesNumber_of_isMark {c : Char} (h : Number.isMark c = true) :
    Scanning.continuesNumber c = true := by
  simp only [Number.isMark, Bool.or_eq_true, decide_eq_true_eq] at h
  rcases h with (((hd | rfl) | rfl) | rfl) | rfl
  · simp [Scanning.continuesNumber, isIdentifierPart, Char.isAlphanum, hd]
  all_goals decide

theorem scan_number (read : List Char) {cs : List Char}
    (h : ∀ c ∈ cs, Scanning.continuesNumber c = true) :
    scan (.number read) cs = ([], .number (read ++ cs)) := by
  induction cs generalizing read with
  | nil => simp [scan_nil]
  | cons c cs ih =>
    have ⟨hc, hcs⟩ := List.forall_mem_cons.1 h
    simp [scan_cons, Scanning.next, hc, ih _ hcs]

/-- The text starts with a digit. -/
def StartsWithDigit (s : String) : Prop := ∃ c cs, s.toList = c :: cs ∧ c.isDigit = true

theorem StartsWithDigit.append {s : String} (h : StartsWithDigit s) (t : String) :
    StartsWithDigit (s ++ t) := by
  obtain ⟨c, cs, heq, hc⟩ := h
  exact ⟨c, cs ++ t.toList, by simp [heq], hc⟩

theorem StartsWithDigit.take {s : String} (h : StartsWithDigit s) (n : Nat) :
    StartsWithDigit (String.ofList (s.toList.take (n + 1))) := by
  obtain ⟨c, cs, heq, hc⟩ := h
  exact ⟨c, cs.take n, by simp [heq], hc⟩

theorem startsWithDigit_repr (n : Nat) : StartsWithDigit n.repr := by
  have hdigits : ∀ c ∈ n.repr.toList, c.isDigit = true := by
    intro c hc
    rw [Nat.repr_eq_ofList_toDigits, String.toList_ofList] at hc
    exact Nat.isDigit_of_mem_toDigits (by decide) (by decide) hc
  have hne : n.repr.toList ≠ [] := by
    rw [Nat.repr_eq_ofList_toDigits, String.toList_ofList]
    exact Nat.toDigits_ne_nil
  obtain ⟨c, cs, heq⟩ := List.exists_cons_of_ne_nil hne
  exact ⟨c, cs, heq, hdigits c (heq ▸ List.mem_cons_self)⟩

/-- The text of a decimal starts with a digit. -/
theorem startsWithDigit_decimal (l : Decimal.Layout) (d : Decimal) :
    StartsWithDigit (d.text l) := by
  have hdigits := startsWithDigit_repr d.digits
  have hzero : StartsWithDigit "0." := ⟨'0', ['.'], rfl, by decide⟩
  unfold Decimal.text
  dsimp only
  split
  · exact hzero.append "0"
  split
  · split
    · exact (hdigits.append _).append _
    split
    · exact ((hdigits.take _).append _).append _
    · exact (hzero.append _).append _
  · exact ((((hdigits.take 0).append _).append _).append _).append _

/-- The text of a number starts with a digit or a minus sign. -/
theorem exists_start_number (n : Number) :
    ∃ c cs, n.text.toList = c :: cs ∧ (c.isDigit = true ∨ c = '-') := by
  have hdigit {s : String} (h : StartsWithDigit s) :
      ∃ c cs, s.toList = c :: cs ∧ (c.isDigit = true ∨ c = '-') := by
    obtain ⟨c, cs, heq, hc⟩ := h
    exact ⟨c, cs, heq, .inl hc⟩
  have hminus (s : String) :
      ∃ c cs, ("-" ++ s).toList = c :: cs ∧ (c.isDigit = true ∨ c = '-') :=
    ⟨'-', s.toList, by simp, .inr rfl⟩
  cases n with
  | int n =>
    simp only [Number.text]
    split
    · exact hminus _
    · exact hdigit (startsWithDigit_repr _)
  | real x =>
    simp only [Number.text]
    split
    · exact hminus _
    · simpa using hdigit (startsWithDigit_decimal Number.layout x.shortest)

/-- No digit starts an identifier. -/
theorem isIdentifierStart_of_isDigit {c : Char} (h : c.isDigit = true) :
    isIdentifierStart c = false := by
  have hrange : 48 ≤ c.toNat ∧ c.toNat ≤ 57 := by
    simpa [Char.isDigit, UInt32.le_iff_toNat_le] using h
  have hne (d : Char) (hd : d.isDigit = false) : c ≠ d := by
    rintro rfl
    exact Bool.false_ne_true (hd.symm.trans h)
  have halpha : c.isAlpha = false := by
    delta Char.isAlpha Char.isUpper Char.isLower
    simp [UInt32.le_iff_toNat_le]
    omega
  simp [isIdentifierStart, halpha, hne '_' rfl, hne '$' rfl]

/-- The text of a number is one number. -/
theorem lex_number (n : Number) : lex n.text.toList = some [.number n.text] := by
  obtain ⟨c, cs, heq, hc⟩ := exists_start_number n
  have hcs : ∀ d ∈ cs, Scanning.continuesNumber d = true := fun d hd =>
    continuesNumber_of_isMark (Number.isMark_of_mem_text (n := n) (by simp [heq, hd]))
  have hidentifier : isIdentifierStart c = false := by
    rcases hc with hc | rfl
    · exact isIdentifierStart_of_isDigit hc
    · decide
  have hstart : Scanning.start c = ([], .number [c]) := by
    simp [Scanning.start, hidentifier, hc]
  rw [lex, heq, scan_cons, Scanning.next, hstart, scan_number _ hcs]
  simp [Scanning.finish, ← heq]

/-- A hexadecimal digit is nothing special in a string. -/
theorem hexDigit_plain : ∀ n < 16, Json.hexDigit n ≠ '"' ∧ Json.hexDigit n ≠ '\\' ∧
    Json.hexDigit n ≠ '\n' ∧ Json.hexDigit n ≠ '\r' := by
  decide

/-- Inside a string, an escaped character leaves the string open. -/
theorem scan_escapeChar (read : List Char) (c : Char) :
    scan (.text '"' false read) (Json.escapeChar c) =
      ([], .text '"' false (read ++ Json.escapeChar c)) := by
  have hletter {e : Char} (he : e ≠ '\n' ∧ e ≠ '\r') :
      scan (.text '"' false read) ['\\', e] = ([], .text '"' false (read ++ ['\\', e])) := by
    simp [scan_cons, scan_nil, Scanning.next, he]
  unfold Json.escapeChar
  split
  · exact hletter (by decide)
  split
  · exact hletter (by decide)
  split
  · exact hletter (by decide)
  split
  · exact hletter (by decide)
  split
  · exact hletter (by decide)
  split
  · exact hletter (by decide)
  split
  · exact hletter (by decide)
  split
  · next h =>
    have hhigh := hexDigit_plain (c.toNat / 16) (by omega)
    have hlow := hexDigit_plain (c.toNat % 16) (Nat.mod_lt _ (by decide))
    simp [scan_cons, scan_nil, Scanning.next, hhigh, hlow]
  · next hquote hbackslash _ _ hn hr _ _ =>
    simp [scan_cons, scan_nil, Scanning.next, hquote, hbackslash, hn, hr]

theorem scan_escaped (read cs : List Char) :
    scan (.text '"' false read) (cs.flatMap Json.escapeChar) =
      ([], .text '"' false (read ++ cs.flatMap Json.escapeChar)) := by
  induction cs generalizing read with
  | nil => simp [scan_nil]
  | cons c cs ih => simp [scan_append, scan_escapeChar, ih]

/-- A quoted string is one string. -/
theorem closed_quote (s : String) : Closed (Json.quote s).toList [.text (Json.quote s)] := by
  have hclose (read : List Char) : scan (.text '"' false read) ['"'] =
      ([.text (String.ofList (read ++ ['"']))], .between) := by
    simp [scan_cons, scan_nil, Scanning.next]
  have hstart : Scanning.start '"' = ([], .text '"' false ['"']) := by decide
  have hquote := Json.toList_quote s
  rw [Closed, hquote, scan_cons, Scanning.next, hstart, scan_append, scan_escaped, hclose]
  simp [← hquote]

/-! ## Lists of parts -/

/-- Parts with a mark between them. -/
def joined (c : Char) (parts : List (List Token)) : List Token := List.intercalate [.mark c] parts

@[simp] theorem joined_nil (c : Char) : joined c [] = [] := rfl

@[simp] theorem joined_singleton (c : Char) (part : List Token) : joined c [part] = part := by
  simp [joined]

@[simp] theorem joined_cons_cons (c : Char) (part next : List Token) (parts : List (List Token)) :
    joined c (part :: next :: parts) = part ++ .mark c :: joined c (next :: parts) := by
  simp [joined, List.intercalate_cons_cons]

/-- The text has these tokens. -/
def Spells (text : String) (tokens : List Token) : Prop := lex text.toList = some tokens

instance (text : String) (tokens : List Token) : Decidable (Spells text tokens) :=
  inferInstanceAs (Decidable (_ = _))

theorem startsApart_append {a b : List Char} (ha : StartsApart a) (hne : a ≠ []) :
    StartsApart (a ++ b) := by
  cases a with
  | nil => exact absurd rfl hne
  | cons c a => exact ha

/-- Texts with a separator between them, when the separator is one mark. -/
theorem spells_intercalate {separator : String} {c : Char}
    (hclosed : Closed separator.toList [.mark c]) (hapart : StartsApart separator.toList)
    {texts : List String} {parts : List (List Token)} (h : List.Forall₂ Spells texts parts) :
    Spells (String.intercalate separator texts) (joined c parts) := by
  have hne : separator.toList ≠ [] := by
    intro hnil
    rw [hnil, Closed, scan_nil] at hclosed
    cases hclosed
  induction h with
  | nil => simp [Spells, lex, scan_nil, Scanning.finish]
  | cons htext hrest ih =>
    cases hrest with
    | nil => simpa using htext
    | cons hnext hmore =>
      unfold Spells at ih htext ⊢
      rw [String.intercalate_cons_cons, joined_cons_cons, String.toList_append,
        String.toList_append, List.append_assoc]
      exact lex_append htext (hclosed.lex_append ih) (startsApart_append hapart hne)

/-! ## The tokens of a JSON value -/

mutual

/-- The tokens of a JSON value. -/
def literalTokens : Json → List Token
  | .null => [.word "null"]
  | .bool b => [.word (if b then "true" else "false")]
  | .num n => [.number n.text]
  | .str s => [.text (Json.quote s)]
  | .arr xs => .mark '[' :: (joined ',' (literalItems xs) ++ [.mark ']'])
  | .obj ms => .mark '\x7b' :: (joined ',' (literalMembers ms) ++ [.mark '\x7d'])

/-- The tokens of the items. -/
def literalItems : List Json → List (List Token)
  | [] => []
  | x :: xs => literalTokens x :: literalItems xs

/-- The tokens of the members, each with its key. -/
def literalMembers : List (String × Json) → List (List Token)
  | [] => []
  | (k, x) :: ms =>
    (.text (Json.quote k) :: .mark ':' :: literalTokens x) :: literalMembers ms

end

/-- A part in brackets. -/
theorem spells_bracketed {opening closing text : String} {o c : Char} {tokens : List Token}
    (hopening : Closed opening.toList [.mark o]) (hclosing : Closed closing.toList [.mark c])
    (hapart : StartsApart closing.toList) (h : Spells text tokens) :
    Spells (opening ++ text ++ closing) (.mark o :: (tokens ++ [.mark c])) := by
  unfold Spells at h ⊢
  rw [String.toList_append, String.toList_append, List.append_assoc]
  exact hopening.lex_append (lex_append h hclosing.lex hapart)

mutual

theorem spells_compact (j : Json) : Spells j.compact (literalTokens j) := by
  cases j with
  | null => decide
  | bool b => cases b <;> decide
  | num n => exact lex_number n
  | str s => exact (closed_quote s).lex
  | arr xs =>
    exact spells_bracketed (by decide) (by decide) (by decide)
      (spells_intercalate (by decide) (by decide) (spells_compactItems xs))
  | obj ms =>
    exact spells_bracketed (by decide) (by decide) (by decide)
      (spells_intercalate (by decide) (by decide) (spells_compactMembers ms))
termination_by structural j

theorem spells_compactItems (xs : List Json) :
    List.Forall₂ Spells (Json.compactItems xs) (literalItems xs) := by
  match xs with
  | [] => exact .nil
  | x :: xs => exact .cons (spells_compact x) (spells_compactItems xs)
termination_by structural xs

theorem spells_compactMembers (ms : List (String × Json)) :
    List.Forall₂ Spells (Json.compactMembers ms) (literalMembers ms) := by
  match ms with
  | [] => exact .nil
  | (k, x) :: ms =>
    refine .cons ?_ (spells_compactMembers ms)
    have hcolon : Closed [':'] [.mark ':'] := by decide
    have hkey := ((closed_quote k).append hcolon).lex_append (spells_compact x)
    simpa [Spells] using hkey
termination_by structural ms

end

/-! ## Comments -/

/-- Escaped text does not close the comment that it stands in. -/
theorem scan_escapeClosers (cs : List Char) (star : Bool)
    (h : star = true → ∀ c ∈ cs.head?, c ≠ '/') :
    ∃ star', scan (.comment star) (escapeClosers cs) = ([], .comment star') := by
  induction cs using escapeClosers.induct generalizing star with
  | case1 rest ih =>
    obtain ⟨star', hrest⟩ := ih false nofun
    exact ⟨star', by simp [escapeClosers, scan_cons, Scanning.next, hrest]⟩
  | case2 c rest hnot ih =>
    have hc : ¬ (star = true ∧ c = '/') := fun ⟨hs, hc⟩ => h hs c rfl hc
    obtain ⟨star', hrest⟩ := ih (c = '*') (by
      intro hstar d hd hslash
      cases rest with
      | nil => cases hd
      | cons e rest =>
        cases hd
        exact hnot rest (of_decide_eq_true hstar) (hslash ▸ rfl))
    have hescape : escapeClosers (c :: rest) = c :: escapeClosers rest := by
      rw [escapeClosers]
      exact hnot
    exact ⟨star', by rw [hescape, scan_cons, Scanning.next, if_neg hc, hrest]; rfl⟩
  | case3 => exact ⟨star, rfl⟩

/-- Spaces are part of a comment. -/
theorem scan_comment_spaces {cs : List Char} (h : ∀ c ∈ cs, c = ' ') :
    scan (.comment false) cs = ([], .comment false) := by
  induction cs with
  | nil => rfl
  | cons c cs ih =>
    have ⟨hc, hcs⟩ := List.forall_mem_cons.1 h
    subst hc
    simp [scan_cons, Scanning.next, ih hcs]

theorem scan_commentLine {pad : String} (hpad : ∀ c ∈ pad.toList, c = ' ') (line : String) :
    scan (.comment false) (commentLine pad line).toList = ([], .comment false) := by
  have hbare : scan (.comment false) " *\n".toList = ([], .comment false) := by decide
  have hlead : scan (.comment false) " * ".toList = ([], .comment false) := by decide
  have hbreak (star : Bool) : scan (.comment star) "\n".toList = ([], .comment false) := by
    cases star <;> decide
  obtain ⟨star, hline⟩ := scan_escapeClosers line.toList false nofun
  unfold commentLine
  dsimp only
  split
  · rw [String.toList_append, scan_append, scan_comment_spaces hpad, hbare]
    rfl
  · simp only [String.toList_append, String.toList_ofList, scan_append, scan_comment_spaces hpad,
      hlead, hline, hbreak, List.append_nil]

theorem scan_commentLines {pad : String} (hpad : ∀ c ∈ pad.toList, c = ' ')
    (lines : List String) :
    scan (.comment false) (lines.flatMap fun line => (commentLine pad line).toList) =
      ([], .comment false) := by
  induction lines with
  | nil => rfl
  | cons line lines ih => simp [scan_append, scan_commentLine hpad, ih]

theorem closed_spaces {cs : List Char} (h : ∀ c ∈ cs, c = ' ') : Closed cs [] := by
  have hspace : Closed [' '] [] := by decide
  induction cs with
  | nil => exact closed_nil
  | cons c cs ih =>
    have ⟨hc, hcs⟩ := List.forall_mem_cons.1 h
    subst hc
    exact hspace.append (ih hcs)

/-- A documentation comment leaves no token but the break behind it. -/
theorem closed_docComment (text : String) {pad : String} (hpad : ∀ c ∈ pad.toList, c = ' ') :
    Closed (docComment text pad).toList [.lineBreak] := by
  have hopen : scan .between "/**\n".toList = ([], .comment false) := by decide
  have hclose : scan (.comment false) " */\n".toList = ([.lineBreak], .between) := by decide
  have hspaces : scan .between pad.toList = ([], .between) := closed_spaces hpad
  have hlines : scan (.comment false)
      (String.join ((Text.lines text).map (commentLine pad))).toList = ([], .comment false) := by
    rw [String.toList_join, List.flatMap_map]
    exact scan_commentLines hpad _
  unfold Closed docComment
  simp only [String.toList_append, scan_append, hspaces, hopen, hlines, scan_comment_spaces hpad,
    hclose]
  rfl

end Blokwork.TypeScript
