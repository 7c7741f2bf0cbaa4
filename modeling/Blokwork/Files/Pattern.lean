/-!
# File name patterns

A pattern stands for a set of names: `?` for any character, `*` for any characters, brackets for
one of the characters or ranges between them or, after an exclamation mark, for any other one.
Two stars are a whole step of a path and stand for any steps.
-/

namespace Blokwork

/-- A part of a pattern. -/
inductive PatternToken where
  | char (value : Char)
  | any
  | oneOf (negated : Bool) (ranges : List (Char × Char))
  | sequence
  | recursive
deriving DecidableEq, Repr

/-- Why a text is no pattern. -/
inductive PatternMistake where
  | wildcards
  | recursion
  | range
deriving DecidableEq, Repr

/-- A mistake and its position. -/
structure PatternFault where
  position : Nat
  mistake : PatternMistake
deriving DecidableEq, Repr

/-- The wording of a mistake. -/
def PatternMistake.text : PatternMistake → String
  | .wildcards => "wildcards are either regular `*` or recursive `**`"
  | .recursion => "recursive wildcards must form a single path component"
  | .range => "invalid range pattern"

/-- The wording of a fault. -/
def PatternFault.message (fault : PatternFault) : String :=
  "Pattern syntax error near position " ++ fault.position.repr ++ ": " ++ fault.mistake.text

/-- A pattern. -/
abbrev Pattern := List PatternToken

namespace Pattern

/-- The ranges between brackets; a single character is a range of its own. -/
def ranges : List Char → List (Char × Char)
  | a :: '-' :: b :: rest => (a, b) :: ranges rest
  | a :: rest => (a, a) :: ranges rest
  | [] => []

/-- The text up to a closing bracket and behind it. -/
def upToBracket (cs : List Char) : Option (List Char × List Char) :=
  match cs.dropWhile (· ≠ ']') with
  | [] => none
  | _ :: rest => some (cs.takeWhile (· ≠ ']'), rest)

/-- The brackets behind an opening one, and what follows them. At least one character stands
between them, a closing bracket too. -/
def readBrackets : List Char → Option (PatternToken × List Char)
  | '!' :: a :: rest =>
    (upToBracket rest).map fun (cs, rest) => (.oneOf true (ranges (a :: cs)), rest)
  | ['!'] => none
  | a :: rest =>
    (upToBracket rest).map fun (cs, rest) => (.oneOf false (ranges (a :: cs)), rest)
  | [] => none

/-- The pattern of a text, of which `position` characters came before. `atStep` says that a step
of the path starts here. -/
def read : (fuel position : Nat) → (atStep : Bool) → List Char → Except PatternFault Pattern
  | 0, _, _, _ => .ok []
  | _ + 1, _, _, [] => .ok []
  | fuel + 1, position, atStep, '*' :: rest =>
    match rest with
    | '*' :: '*' :: _ => .error ⟨position + 2, .wildcards⟩
    | '*' :: rest =>
      if !atStep then .error ⟨position - 1, .recursion⟩
      else
        match rest with
        | [] => .ok [.recursive]
        | '/' :: rest =>
          (read fuel (position + 3) true rest).map (.recursive :: ·)
        | _ :: _ => .error ⟨position + 2, .recursion⟩
    | rest => (read fuel (position + 1) false rest).map (.sequence :: ·)
  | fuel + 1, position, _, '[' :: rest =>
    match readBrackets rest with
    | none => .error ⟨position, .range⟩
    | some (token, behind) =>
      (read fuel (position + 1 + (rest.length - behind.length)) false behind).map (token :: ·)
  | fuel + 1, position, _, '?' :: rest => (read fuel (position + 1) false rest).map (.any :: ·)
  | fuel + 1, position, _, c :: rest =>
    (read fuel (position + 1) (c = '/') rest).map (.char c :: ·)

/-- The pattern of a text. -/
def parse (text : String) : Except PatternFault Pattern :=
  read (text.toList.length + 1) 0 true text.toList

/-- The text, if the pattern stands for one text only. -/
def literal? : Pattern → Option (List Char)
  | [] => some []
  | .char c :: rest => (literal? rest).map (c :: ·)
  | _ :: _ => none

/-- The pattern stands for any steps. -/
def isRecursive (p : Pattern) : Bool := p.contains .recursive

/-- The rests of a text, the whole and the empty one included. -/
def rests : List Char → List (List Char)
  | [] => [[]]
  | c :: cs => (c :: cs) :: rests cs

/-- The character lies in one of the ranges. -/
def inRanges (ranges : List (Char × Char)) (c : Char) : Bool :=
  ranges.any fun r => r.1 ≤ c && c ≤ r.2

/-- The pattern stands for the text. -/
def accepts : Pattern → List Char → Bool
  | [], cs => cs.isEmpty
  | .sequence :: tokens, cs => (rests cs).any (accepts tokens)
  | .recursive :: tokens, cs => (rests cs).any (accepts tokens)
  | _ :: _, [] => false
  | .char x :: tokens, c :: cs => x = c && accepts tokens cs
  | .any :: tokens, _ :: cs => accepts tokens cs
  | .oneOf negated ranges :: tokens, c :: cs => (inRanges ranges c != negated) && accepts tokens cs

/-- The pattern stands for the name. -/
def matchesName (p : Pattern) (name : String) : Bool := p.accepts name.toList

end Pattern

end Blokwork
