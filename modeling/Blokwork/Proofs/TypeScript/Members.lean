import Mathlib.Data.List.Basic
import Blokwork.Json.Parser
import Blokwork.Proofs.TypeScript.Meaning

/-!
# Members of a declared interface

`interface?` reads the name and the members of an interface off its text. Semicolons, commas and
line breaks separate members, unless they stand in brackets or a type goes on across the line; each
member has a key, perhaps a question mark, and the tokens of its type.

The reader passes over a part of a text when the part closes the brackets that it opens, and
separates nothing (`Contained`). Printed types are such parts as far as the texts are that they
take as they are (`contained_tokens`), so that an interface that is printed from an object has the
members which the object has properties (`interface?_of_object`).
-/

namespace Blokwork.TypeScript

/-! ## Parts between separators -/

/-- The mark that closes what a mark opens. -/
def closing? (c : Char) : Option Char :=
  if c = '(' then some ')'
  else if c = '[' then some ']'
  else if c = '\x7b' then some '\x7d'
  else if c = '<' then some '>'
  else none

/-- The mark closes something. -/
def isClosing (c : Char) : Bool := c = ')' || c = ']' || c = '\x7d' || c = '>'

/-- The closing marks that are awaited behind a mark, the innermost first; `none` where the mark
closes something else. -/
def awaitedBehindMark (c : Char) (awaited : List Char) : Option (List Char) :=
  match closing? c with
  | some d => some (d :: awaited)
  | none =>
    if isClosing c then (if awaited.head? = some c then some awaited.tail else none)
    else some awaited

/-- The closing marks that are awaited behind a token. -/
def awaitedBehind : Token → List Char → Option (List Char)
  | .mark c, awaited => awaitedBehindMark c awaited
  | _, awaited => some awaited

/-- The token can separate members. -/
def separates : Token → Bool
  | .mark c => c = ';' || c = ','
  | .lineBreak => true
  | _ => false

/-- The token stands inside a type, so that a line break next to it does not end the type. -/
def goesOn : Token → Bool
  | .mark c => c = '|' || c = '&' || c = '?' || c = ':'
  | .arrow => true
  | _ => false

/-- The part that was read so far ends with the token, which other tokens follow. -/
def endsPart (current : List Token) (t : Token) (next : List Token) : Bool :=
  separates t && !(t = .lineBreak &&
    ((significant current).getLast?.any goesOn || (significant next).head?.any goesOn))

/-- The parts between the separators that stand in no brackets; `none` where the brackets do not
match. Some closing marks are `awaited`, and `current` was read of the first part. -/
def parts? : (awaited : List Char) → (current : List Token) → List Token →
    Option (List (List Token))
  | awaited, current, [] => if awaited.isEmpty then some [current] else none
  | awaited, current, t :: ts =>
    if awaited.isEmpty && endsPart current t ts then (parts? [] [] ts).map (current :: ·)
    else (awaitedBehind t awaited).bind fun awaited => parts? awaited (current ++ [t]) ts

/-- The text is one part, and nothing is left open in it. -/
def isSelfContained (text : String) : Bool :=
  (lex text.toList).any fun ts => parts? [] [] ts = some [ts]

/-- Wherever such marks are awaited, the tokens are part of what is read. -/
def PassedOver (P : List Char → Prop) (ts : List Token) : Prop :=
  ∀ awaited, P awaited → ∀ current rest,
    parts? awaited current (ts ++ rest) = parts? awaited (current ++ ts) rest

/-- The tokens are part of what is read, in brackets or not. -/
abbrev Contained (ts : List Token) : Prop := PassedOver (fun _ => True) ts

/-- In brackets, the tokens are part of what is read. -/
abbrev Enclosed (ts : List Token) : Prop := PassedOver (· ≠ []) ts

section PassedOver

variable {P : List Char → Prop} {ts us : List Token}

theorem Contained.enclosed (h : Contained ts) : Enclosed ts := fun awaited _ => h awaited trivial

theorem passedOver_nil : PassedOver P [] := fun _ _ current rest => by simp

theorem PassedOver.append (ht : PassedOver P ts) (hu : PassedOver P us) :
    PassedOver P (ts ++ us) := by
  intro awaited hP current rest
  rw [List.append_assoc, ht awaited hP, hu awaited hP, List.append_assoc]

theorem PassedOver.flatten {parts : List (List Token)} (h : ∀ p ∈ parts, PassedOver P p) :
    PassedOver P parts.flatten := by
  induction parts with
  | nil => exact passedOver_nil
  | cons p parts ih =>
    obtain ⟨hp, hparts⟩ := List.forall_mem_cons.1 h
    exact hp.append (ih hparts)

theorem PassedOver.joined {c : Char} (hc : PassedOver P [.mark c]) {parts : List (List Token)}
    (h : ∀ p ∈ parts, PassedOver P p) : PassedOver P (joined c parts) := by
  induction parts with
  | nil => exact passedOver_nil
  | cons p parts ih =>
    obtain ⟨hp, hparts⟩ := List.forall_mem_cons.1 h
    cases parts with
    | nil => simpa using hp
    | cons next parts =>
      rw [joined_cons_cons]
      exact hp.append (hc.append (ih hparts))

/-- The token is no bracket. -/
def leavesBrackets (t : Token) : Bool :=
  match t with
  | .mark c => (closing? c).isNone && !isClosing c
  | _ => true

theorem awaitedBehind_of_leavesBrackets {t : Token} (h : leavesBrackets t = true)
    (awaited : List Char) : awaitedBehind t awaited = some awaited := by
  cases t with
  | mark c =>
    obtain ⟨hopen, hclose⟩ : closing? c = none ∧ isClosing c = false := by
      simpa [leavesBrackets] using h
    simp [awaitedBehind, awaitedBehindMark, hopen, hclose]
  | word | number | text | arrow | lineBreak => rfl

theorem endsPart_of_not_separates {t : Token} (h : separates t = false)
    (current next : List Token) :
    endsPart current t next = false := by
  simp [endsPart, h]

theorem parts?_of_not_ended {t : Token} {awaited : List Char} {current ts : List Token}
    (h : (awaited.isEmpty && endsPart current t ts) = false) :
    parts? awaited current (t :: ts) =
      (awaitedBehind t awaited).bind fun awaited => parts? awaited (current ++ [t]) ts := by
  rw [parts?, h]
  rfl

/-- A token that is no bracket and no separator. -/
theorem contained_token {t : Token} (hbracket : leavesBrackets t = true)
    (hseparates : separates t = false) : Contained [t] := by
  intro awaited _ current rest
  rw [List.singleton_append, parts?_of_not_ended (by simp [endsPart_of_not_separates hseparates]),
    awaitedBehind_of_leavesBrackets hbracket, Option.bind_some]

/-- A token in brackets that is no bracket. -/
theorem enclosed_token {t : Token} (hbracket : leavesBrackets t = true) : Enclosed [t] := by
  intro awaited hne current rest
  have hopen : awaited.isEmpty = false := by simpa using hne
  rw [List.singleton_append, parts?_of_not_ended (by simp [hopen]),
    awaitedBehind_of_leavesBrackets hbracket, Option.bind_some]

/-- Something in brackets. -/
theorem contained_bracketed {o c : Char} (ho : closing? o = some c) (hc : closing? c = none)
    (hclosing : isClosing c = true) (hsep : separates (.mark o) = false) (h : Enclosed ts) :
    Contained (.mark o :: (ts ++ [.mark c])) := by
  intro awaited _ current rest
  have hopens : awaitedBehind (.mark o) awaited = some (c :: awaited) := by
    simp [awaitedBehind, awaitedBehindMark, ho]
  have hcloses : awaitedBehind (.mark c) (c :: awaited) = some awaited := by
    simp [awaitedBehind, awaitedBehindMark, hc, hclosing]
  rw [List.cons_append, parts?_of_not_ended (by simp [endsPart_of_not_separates hsep]), hopens,
    Option.bind_some, List.append_assoc, h _ (List.cons_ne_nil _ _), List.singleton_append,
    parts?_of_not_ended (by simp), hcloses, Option.bind_some]
  simp

/-- The first part goes on with what was read of it. -/
theorem parts?_ne_nil {awaited : List Char} {current : List Token} {ts : List Token} :
    parts? awaited current ts ≠ some [] := by
  induction ts generalizing awaited current with
  | nil =>
    unfold parts?
    split <;> simp
  | cons t ts ih =>
    unfold parts?
    split
    · simp
    · cases awaitedBehind t awaited with
      | none => simp
      | some awaited => exact ih

/-- What is awaited around does not matter to a token that closes nothing of it. -/
theorem awaitedBehindMark_append {c : Char} {awaited behind : List Char} (around : List Char)
    (h : awaitedBehindMark c awaited = some behind) :
    awaitedBehindMark c (awaited ++ around) = some (behind ++ around) := by
  unfold awaitedBehindMark at h ⊢
  split
  · next d hopen =>
    rw [hopen] at h
    cases h
    rfl
  next hopen =>
  rw [hopen] at h
  by_cases hclosing : isClosing c = true
  · rw [if_pos hclosing] at h ⊢
    cases awaited with
    | nil => cases h
    | cons d rest =>
      by_cases hd : d = c
      · simp only [List.head?_cons, hd, ↓reduceIte] at h
        cases h
        simp [hd]
      · simp [hd] at h
  · rw [if_neg hclosing] at h ⊢
    cases h
    rfl

theorem awaitedBehind_append {t : Token} {awaited behind : List Char} (around : List Char)
    (h : awaitedBehind t awaited = some behind) :
    awaitedBehind t (awaited ++ around) = some (behind ++ around) := by
  cases t with
  | mark c => exact awaitedBehindMark_append around h
  | word | number | text | arrow | lineBreak =>
    cases h
    rfl

/-- The tokens stop inside a type, line breaks aside. -/
abbrev StopsInside (ts : List Token) : Prop := (significant ts).getLast?.any goesOn = true

/-- One more token keeps what stops inside a type. -/
theorem StopsInside.snoc {current before : List Token} (t : Token)
    (hlast : StopsInside current → StopsInside before) :
    StopsInside (current ++ [t]) → StopsInside (before ++ [t]) := by
  cases t with
  | lineBreak => simpa [StopsInside] using hlast
  | mark | word | number | text | arrow => simp [StopsInside, significant]

/-- A part that goes on does so with more around it. -/
theorem endsPart_append {current before : List Token} {t : Token} {next : List Token}
    (hlast : StopsInside current → StopsInside before)
    (h : endsPart current t next = false) (rest : List Token) :
    endsPart before t (next ++ rest) = false := by
  have hhead : (significant next).head?.any goesOn = true →
      (significant (next ++ rest)).head?.any goesOn = true := by
    rw [significant_append]
    cases significant next <;> simp
  unfold endsPart at h ⊢
  rw [Bool.and_eq_false_iff, Bool.not_eq_false', Bool.and_eq_true, Bool.or_eq_true] at h ⊢
  exact h.imp_right fun ⟨hline, hinside⟩ => ⟨hline, hinside.imp hlast hhead⟩

/-- Tokens that are one part by themselves are part of anything. -/
theorem parts?_append {ts : List Token} {awaited : List Char} {current before : List Token}
    (hlast : StopsInside current → StopsInside before)
    (h : parts? awaited current ts = some [current ++ ts]) (around : List Char)
    (rest : List Token) :
    parts? (awaited ++ around) before (ts ++ rest) = parts? around (before ++ ts) rest := by
  induction ts generalizing awaited current before with
  | nil =>
    rw [parts?] at h
    split at h
    · next hempty =>
      rw [List.isEmpty_iff.1 hempty]
      simp
    · cases h
  | cons t ts ih =>
    by_cases hended : (awaited.isEmpty && endsPart current t ts) = true
    · -- Otherwise there would be a second part.
      rw [parts?, if_pos hended, Option.map_eq_some_iff] at h
      obtain ⟨parts, hparts, heq⟩ := h
      obtain ⟨-, rfl⟩ := List.cons.inj heq
      exact absurd hparts parts?_ne_nil
    · rw [Bool.not_eq_true] at hended
      rw [parts?_of_not_ended hended, Option.bind_eq_some_iff] at h
      obtain ⟨behind, hbehind, h⟩ := h
      have haround : ((awaited ++ around).isEmpty && endsPart before t (ts ++ rest)) = false := by
        cases awaited with
        | nil => rw [endsPart_append hlast (by simpa using hended), Bool.and_false]
        | cons d awaited => simp
      have hrest : parts? behind (current ++ [t]) ts = some [current ++ [t] ++ ts] := by
        simpa using h
      rw [List.cons_append, parts?_of_not_ended haround, awaitedBehind_append around hbehind,
        Option.bind_some, ih (StopsInside.snoc t hlast) hrest, List.append_assoc,
        List.singleton_append]

theorem contained_of_parts? (h : parts? [] [] ts = some [ts]) : Contained ts :=
  fun awaited _ current rest => parts?_append (by simp [StopsInside]) h awaited rest

theorem Contained.parts? (h : Contained ts) : parts? [] [] ts = some [ts] := by
  simpa [TypeScript.parts?] using h [] trivial [] []

/-- A text is self-contained when its tokens are part of anything. -/
theorem isSelfContained_iff {text : String} :
    isSelfContained text = true ↔ ∃ ts, Spells text ts ∧ Contained ts := by
  unfold isSelfContained Spells
  rw [Option.any_eq_true]
  simp only [decide_eq_true_eq]
  exact exists_congr fun ts => and_congr_right fun _ => ⟨contained_of_parts?, Contained.parts?⟩

-- A line break separates unless the type goes on across it.
example : isSelfContained "\"wide\"\n  | \"narrow\"" = true := by decide

example : isSelfContained "string\n_uid: number" = false := by decide

end PassedOver

/-! ## Printed types -/

section Forms

variable {ts : List Token}

/-- Something in parentheses. -/
theorem contained_parenthesized (h : Enclosed ts) : Contained (parenthesized ts) :=
  contained_bracketed rfl rfl rfl rfl h

theorem contained_arrayTokens (item : String) (h : Contained ts) :
    Contained (arrayTokens item ts) := by
  have hnothing : Enclosed [] := passedOver_nil
  have hbrackets : Contained [.mark '[', .mark ']'] :=
    contained_bracketed rfl rfl rfl rfl hnothing
  unfold arrayTokens
  split
  · exact (contained_parenthesized h.enclosed).append hbrackets
  · exact PassedOver.append h hbrackets

theorem contained_partTokens (member : String) (h : Contained ts) :
    Contained (partTokens member ts) := by
  unfold partTokens
  split
  · exact contained_parenthesized h.enclosed
  · exact h

theorem contained_blockTokens (h : Enclosed ts) : Contained (blockTokens ts) := by
  unfold blockTokens
  split
  · have hnothing : Enclosed [] := passedOver_nil
    exact contained_bracketed rfl rfl rfl rfl hnothing
  · have hline : Enclosed [Token.lineBreak] := enclosed_token rfl
    exact contained_bracketed rfl rfl rfl rfl (hline.append h)

/-- The tokens of a property up to the separator behind it. -/
def memberTokens (head : PropertyHead) (type : List Token) : List Token :=
  keyToken head.key :: ((if head.optional then [.mark '?'] else []) ++ .mark ':' :: type)

theorem propertyTokens_eq (head : PropertyHead) (type : List Token) :
    propertyTokens head type =
      (if head.description.isSome then [.lineBreak] else [])
        ++ (memberTokens head type ++ [.mark ';', .lineBreak]) := by
  simp [propertyTokens, memberTokens]

theorem contained_memberTokens (head : PropertyHead) (h : Contained ts) :
    Contained (memberTokens head ts) := by
  have hkey : Contained [keyToken head.key] := by
    unfold keyToken
    split
    · exact contained_token rfl rfl
    · exact contained_token rfl rfl
  have hmark : Contained (if head.optional then [.mark '?'] else []) := by
    split
    · exact contained_token rfl rfl
    · exact passedOver_nil
  have hcolon : Contained [.mark ':'] := contained_token rfl rfl
  exact hkey.append (hmark.append (hcolon.append h))

theorem enclosed_propertyTokens (head : PropertyHead) (h : Contained ts) :
    Enclosed (propertyTokens head ts) := by
  have hline : Enclosed [Token.lineBreak] := enclosed_token rfl
  have hcomment : Enclosed (if head.description.isSome then [.lineBreak] else []) := by
    split
    · exact hline
    · exact passedOver_nil
  have hend : Enclosed [.mark ';'] := enclosed_token rfl
  rw [propertyTokens_eq]
  exact hcomment.append ((contained_memberTokens head h).enclosed.append (hend.append hline))

/-- The tokens of the line for further keys, up to the separator behind it. -/
def furtherTokens (type : List Token) : List Token :=
  [.mark '[', .word "k", .mark ':', .word "string", .mark ']', .mark ':'] ++ type

theorem indexLineTokens_eq (type : List Token) :
    indexLineTokens type = furtherTokens type ++ [.mark ';', .lineBreak] := by
  simp [indexLineTokens, furtherTokens]

theorem contained_furtherTokens (h : Contained ts) : Contained (furtherTokens ts) := by
  have hkey : Contained [.mark '[', .word "k", .mark ':', .word "string", .mark ']'] := by
    have hword (w : String) : Enclosed [.word w] := enclosed_token rfl
    have hcolon : Enclosed [.mark ':'] := enclosed_token rfl
    have hinside : Enclosed [.word "k", .mark ':', .word "string"] :=
      (hword "k").append (hcolon.append (hword "string"))
    exact contained_bracketed rfl rfl rfl rfl hinside
  have hcolon : Contained [.mark ':'] := contained_token rfl rfl
  exact hkey.append (hcolon.append h)

theorem enclosed_indexLineTokens (h : Contained ts) : Enclosed (indexLineTokens ts) := by
  have hsemicolon : Enclosed [.mark ';'] := enclosed_token rfl
  have hline : Enclosed [Token.lineBreak] := enclosed_token rfl
  rw [indexLineTokens_eq]
  exact (contained_furtherTokens h).enclosed.append (hsemicolon.append hline)

end Forms

mutual

/-- A JSON value is part of anything. -/
theorem contained_literalTokens (j : Json) : Contained (literalTokens j) := by
  cases j with
  | null | bool | num | str => exact contained_token rfl rfl
  | arr xs =>
    exact contained_bracketed rfl rfl rfl rfl
      (PassedOver.joined (enclosed_token rfl) (enclosed_literalItems xs))
  | obj ms =>
    exact contained_bracketed rfl rfl rfl rfl
      (PassedOver.joined (enclosed_token rfl) (enclosed_literalMembers ms))
termination_by structural j

theorem enclosed_literalItems (xs : List Json) : ∀ p ∈ literalItems xs, Enclosed p := by
  match xs with
  | [] => exact nofun
  | x :: xs =>
    exact List.forall_mem_cons.2
      ⟨(contained_literalTokens x).enclosed, enclosed_literalItems xs⟩
termination_by structural xs

theorem enclosed_literalMembers (ms : List (String × Json)) :
    ∀ p ∈ literalMembers ms, Enclosed p := by
  match ms with
  | [] => exact nofun
  | (k, x) :: ms =>
    have hkey : Enclosed [.text (Json.quote k)] := enclosed_token rfl
    have hcolon : Enclosed [.mark ':'] := enclosed_token rfl
    have hvalue := (contained_literalTokens x).enclosed
    exact List.forall_mem_cons.2 ⟨hkey.append (hcolon.append hvalue), enclosed_literalMembers ms⟩
termination_by structural ms

end

namespace TypeExpr

/-- Text that is taken as it is, is self-contained. -/
def TextContained : TypeExpr → Prop
  | .verbatim text => isSelfContained text = true
  | _ => True

mutual

/-- A printed type is part of anything when the texts in it are that are taken as they are. -/
theorem contained_tokens (t : TypeExpr) (width level : Nat) (h : t.Everywhere TextContained) :
    Contained (tokens width level t) := by
  cases t with
  | keyword word => exact contained_token rfl rfl
  | literal value => exact contained_literalTokens value
  | verbatim text =>
    obtain ⟨ts, hts, hcontained⟩ := isSelfContained_iff.1 h
    simpa [tokens, show lex text.toList = some ts from hts] using hcontained
  | union ms =>
    exact PassedOver.joined (contained_token rfl rfl)
      (contained_tokensAll ms width level ((Everywhere_union ms).1 h).2)
  | intersection ms =>
    have hparts := contained_tokensAll ms width level ((Everywhere_intersection ms).1 h).2
    rw [tokensAll_eq] at hparts
    rw [tokens, printAll_eq, tokensAll_eq, List.zipWith_map_left, List.zipWith_map_right,
      List.zipWith_self]
    exact PassedOver.joined (contained_token rfl rfl) (List.forall_mem_map.2 fun m hm =>
      contained_partTokens _ (hparts _ (List.mem_map_of_mem hm)))
  | array item => exact contained_arrayTokens _ (contained_tokens item width level h.2)
  | tuple ts =>
    have hparts := contained_tokensAll ts width level ((Everywhere_tuple ts).1 h).2
    exact contained_bracketed rfl rfl rfl rfl
      (PassedOver.joined (enclosed_token rfl) fun p hp => (hparts p hp).enclosed)
  | object ps index =>
    obtain ⟨-, hps, hindex⟩ := (Everywhere_object ps index).1 h
    have hlines := PassedOver.flatten (enclosed_tokensProperties ps width (level + 1) hps)
    cases index with
    | none => exact contained_blockTokens (hlines.append passedOver_nil)
    | some t =>
      have htype := contained_tokens t width (level + 1) (hindex t rfl)
      exact contained_blockTokens (hlines.append (enclosed_indexLineTokens htype))
termination_by structural t

theorem contained_tokensAll (ts : List TypeExpr) (width level : Nat)
    (h : ∀ t ∈ ts, t.Everywhere TextContained) : ∀ p ∈ tokensAll width level ts, Contained p := by
  match ts with
  | [] => exact nofun
  | t :: ts =>
    have ⟨ht, hts⟩ := List.forall_mem_cons.1 h
    exact List.forall_mem_cons.2
      ⟨contained_tokens t width level ht, contained_tokensAll ts width level hts⟩
termination_by structural ts

theorem enclosed_tokensProperties (ps : List (PropertyHead × TypeExpr)) (width level : Nat)
    (h : ∀ p ∈ ps, p.2.Everywhere TextContained) :
    ∀ p ∈ tokensProperties width level ps, Enclosed p := by
  match ps with
  | [] => exact nofun
  | (head, t) :: ps =>
    have ⟨ht, hps⟩ := List.forall_mem_cons.1 h
    exact List.forall_mem_cons.2
      ⟨enclosed_propertyTokens head (contained_tokens t width level ht),
        enclosed_tokensProperties ps width level hps⟩
termination_by structural ps

end

end TypeExpr

/-! ## Reading members -/

/-- A member of an interface, with the tokens of its type. -/
inductive Member where
  | property (key : String) (optional : Bool) (type : List Token)
  /-- For the keys that have no property of their own. -/
  | further (type : List Token)
deriving DecidableEq, Repr

/-- The key that a token spells. -/
def keyOf? : Token → Option String
  | .word name => some name
  | .text spelling =>
    match spelling.toList with
    | '"' :: rest =>
      match Json.readString .keep rest with
      | .ok (key, []) => some key
      | _ => none
    | _ => none
  | _ => none

/-- The member that some tokens spell. -/
def member? : List Token → Option Member
  | .mark '[' :: .word _ :: .mark ':' :: .word "string" :: .mark ']' :: .mark ':' :: type =>
    some (.further type)
  | key :: .mark '?' :: .mark ':' :: type => (keyOf? key).map (.property · true type)
  | key :: .mark ':' :: type => (keyOf? key).map (.property · false type)
  | _ => none

/-- The parts that are not empty. -/
def lines? (ts : List Token) : Option (List (List Token)) :=
  (parts? [] [] ts).map fun parts => parts.filter fun part => !part.isEmpty

/-- The members that some tokens spell. -/
def members? (ts : List Token) : Option (List Member) := (lines? ts).bind (List.mapM member?)

/-- The name and the members of the interface that a text declares. -/
def interface? (text : String) : Option (String × List Member) :=
  match lex text.toList with
  | some (.word "export" :: .word "interface" :: .word name :: .mark '\x7b' :: ts) =>
    ((ts.dropSuffix? [.mark '\x7d', .lineBreak]).bind members?).map (name, ·)
  | _ => none

namespace Member

/-- The member is a property under that key. -/
def hasKey (key : String) : Member → Bool
  | property k _ _ => k = key
  | further _ => false

/-- The key of a property and whether it is optional. -/
def signature? : Member → Option (String × Bool)
  | property key optional _ => some (key, optional)
  | further _ => none

/-- The member that a property is printed as. -/
def ofProperty (width level : Nat) (p : PropertyHead × TypeExpr) : Member :=
  .property p.1.key p.1.optional (p.2.tokens width level)

end Member

section Reading

theorem parts?_of_ended {current : List Token} {t : Token} {rest : List Token}
    (h : endsPart current t rest = true) :
    parts? [] current (t :: rest) = (parts? [] [] rest).map (current :: ·) := by
  rw [parts?, h]
  rfl

/-- The tokens start no line that goes on inside a type. -/
def StartsLine (ts : List Token) : Prop := (significant ts).head?.any goesOn = false

theorem startsLine_nil : StartsLine [] := rfl

theorem lines?_lineBreak {rest : List Token} (h : StartsLine rest) :
    lines? (.lineBreak :: rest) = lines? rest := by
  have hends : endsPart [] .lineBreak rest = true := by
    rw [endsPart, h]
    rfl
  unfold lines?
  rw [parts?_of_ended hends]
  cases parts? [] [] rest <;> rfl

/-- A line and the separator behind it. -/
theorem lines?_line {line : List Token} (h : Contained line) (hne : line ≠ [])
    (rest : List Token) :
    lines? (line ++ .mark ';' :: rest) = (lines? rest).map (line :: ·) := by
  unfold lines?
  rw [h [] trivial, parts?_of_ended rfl]
  cases parts? [] [] rest <;> simp [hne]

variable {width level : Nat}

theorem keyOf?_keyToken (key : String) : keyOf? (keyToken key) = some key := by
  unfold keyToken
  split
  · rfl
  · have hread := Json.readString_quote key []
    simp [keyOf?, Json.toList_quote, hread]

theorem member?_memberTokens (p : PropertyHead × TypeExpr) :
    member? (memberTokens p.1 (p.2.tokens width level)) =
      some (Member.ofProperty width level p) := by
  have hkey := keyOf?_keyToken p.1.key
  unfold memberTokens Member.ofProperty
  generalize keyToken p.1.key = token at hkey ⊢
  cases p.1.optional <;> simp [member?, hkey]

theorem memberTokens_ne_nil (head : PropertyHead) (type : List Token) :
    memberTokens head type ≠ [] := List.cons_ne_nil _ _

theorem startsLine_memberTokens (head : PropertyHead) (type rest : List Token) :
    StartsLine (memberTokens head type ++ rest) := by
  unfold StartsLine memberTokens keyToken
  split <;> rfl

theorem startsLine_tokensProperties (ps : List (PropertyHead × TypeExpr)) {rest : List Token}
    (h : StartsLine rest) :
    StartsLine ((TypeExpr.tokensProperties width level ps).flatten ++ rest) := by
  cases ps with
  | nil => exact h
  | cons p ps =>
    have hmember := startsLine_memberTokens p.1 (p.2.tokens width level)
    simp only [TypeExpr.tokensProperties, List.flatten_cons, propertyTokens_eq, List.append_assoc]
    split
    · exact hmember _
    · exact hmember _

/-- The lines of properties, and of what follows them. -/
theorem lines?_tokensProperties {ps : List (PropertyHead × TypeExpr)}
    (h : ∀ p ∈ ps, Contained (p.2.tokens width level)) {rest : List Token}
    (hrest : StartsLine rest) :
    lines? ((TypeExpr.tokensProperties width level ps).flatten ++ rest) =
      (lines? rest).map ((ps.map fun p => memberTokens p.1 (p.2.tokens width level)) ++ ·) := by
  induction ps with
  | nil => simp [TypeExpr.tokensProperties]
  | cons p ps ih =>
    obtain ⟨hp, hps⟩ := List.forall_mem_cons.1 h
    obtain ⟨head, t⟩ := p
    have hline {more : List Token} (hmore : StartsLine more) :
        lines? (propertyTokens head (t.tokens width level) ++ more) =
          (lines? more).map (memberTokens head (t.tokens width level) :: ·) := by
      have hmember := lines?_line (contained_memberTokens head hp) (memberTokens_ne_nil _ _)
      have hstarts := lines?_lineBreak (startsLine_memberTokens head (t.tokens width level)
        (.mark ';' :: .lineBreak :: more))
      rw [propertyTokens_eq]
      split <;> simp [hstarts, hmember, lines?_lineBreak hmore]
    simp [TypeExpr.tokensProperties, hline (startsLine_tokensProperties ps hrest), ih hps,
      Function.comp_def]

/-- The members of an object, in order. -/
def membersOf (width level : Nat) (ps : List (PropertyHead × TypeExpr)) (index : Option TypeExpr) :
    List Member :=
  ps.map (Member.ofProperty width level) ++
    (index.map fun t => .further (t.tokens width level)).toList

theorem mapM_member? (ps : List (PropertyHead × TypeExpr)) :
    ps.mapM (member? ∘ fun p => memberTokens p.1 (p.2.tokens width level)) =
      some (ps.map (Member.ofProperty width level)) := by
  induction ps with
  | nil => rfl
  | cons p ps ih => simp [List.mapM_cons, member?_memberTokens, ih]

variable {ps : List (PropertyHead × TypeExpr)} {index : Option TypeExpr}

/-- The tokens between the braces of an object. -/
def bodyTokens (width level : Nat) (ps : List (PropertyHead × TypeExpr)) :
    Option TypeExpr → List Token
  | some t => (TypeExpr.tokensProperties width level ps).flatten ++
      indexLineTokens (t.tokens width level)
  | none => (TypeExpr.tokensProperties width level ps).flatten ++ []

theorem tokens_object (ps : List (PropertyHead × TypeExpr)) (index : Option TypeExpr) :
    (TypeExpr.object ps index).tokens width level =
      blockTokens (bodyTokens width (level + 1) ps index) := by
  cases index <;> simp only [TypeExpr.tokens, bodyTokens]

theorem startsLine_bodyTokens (ps : List (PropertyHead × TypeExpr)) (index : Option TypeExpr) :
    StartsLine (bodyTokens width level ps index) := by
  cases index with
  | none => exact startsLine_tokensProperties ps startsLine_nil
  | some t => exact startsLine_tokensProperties ps rfl

theorem members?_bodyTokens (hps : ∀ p ∈ ps, Contained (p.2.tokens width level))
    (hindex : ∀ t ∈ index, Contained (t.tokens width level)) :
    members? (bodyTokens width level ps index) = some (membersOf width level ps index) := by
  unfold members? membersOf bodyTokens
  cases index with
  | none =>
    have hnothing : lines? [] = some [] := rfl
    rw [lines?_tokensProperties hps startsLine_nil]
    simp [hnothing, mapM_member?]
  | some t =>
    have hstarts : StartsLine (indexLineTokens (t.tokens width level)) := rfl
    have hline : lines? (indexLineTokens (t.tokens width level)) =
        some [furtherTokens (t.tokens width level)] := by
      rw [indexLineTokens_eq, lines?_line (contained_furtherTokens (hindex t rfl))
          (by simp [furtherTokens]),
        lines?_lineBreak startsLine_nil]
      rfl
    have hmember : member? (furtherTokens (t.tokens width level)) =
        some (.further (t.tokens width level)) := rfl
    simp [lines?_tokensProperties hps hstarts, hline, hmember, List.mapM_append, mapM_member?]

/-- **The members of a printed interface are the properties of its object.** -/
theorem interface?_of_object (width : Nat) {name : String} (hname : isIdentifier name = true)
    (hlexical : (TypeExpr.object ps index).Everywhere TypeExpr.Lexical)
    (hcontained : (TypeExpr.object ps index).Everywhere TypeExpr.TextContained) :
    interface?
          ("export interface " ++ name ++ " " ++ (TypeExpr.object ps index).print width 0 ++ "\n")
      = some (name, membersOf width 1 ps index) := by
  have hbody : Spells ((TypeExpr.object ps index).print width 0)
      ((TypeExpr.object ps index).tokens width 0) := TypeExpr.spells_print _ 0 hlexical
  have hline : lex _ = _ := spells_interface hname hbody
  obtain ⟨-, hps, hindex⟩ := (TypeExpr.Everywhere_object ps index).1 hcontained
  have hmembers := members?_bodyTokens
    (fun p hp => TypeExpr.contained_tokens p.2 width 1 (hps p hp))
    (fun t ht => TypeExpr.contained_tokens t width 1 (hindex t ht))
  have hdrop (ts : List Token) :
      (ts ++ [Token.mark '\x7d', .lineBreak]).dropSuffix? [Token.mark '\x7d', .lineBreak] =
        some ts :=
    List.dropSuffix?_eq_some_iff.2 ⟨_, rfl, beq_self_eq_true _⟩
  have hblock {lines : List Token} {members : List Member} (hstarts : StartsLine lines)
      (h : members? lines = some members) :
      ∃ ts, blockTokens lines ++ [.lineBreak] = .mark '\x7b' ::
        (ts ++ [.mark '\x7d', .lineBreak]) ∧
        members? ts = some members := by
    unfold blockTokens
    split
    · next hempty =>
      obtain rfl := List.isEmpty_iff.1 hempty
      exact ⟨[], rfl, h⟩
    · exact ⟨.lineBreak :: lines, by simp, by rwa [members?, lines?_lineBreak hstarts]⟩
  obtain ⟨ts, hts, hmembers⟩ := hblock (startsLine_bodyTokens ps index) hmembers
  rw [interface?, hline, tokens_object, hts]
  simp [hdrop, hmembers]

end Reading

end Blokwork.TypeScript
