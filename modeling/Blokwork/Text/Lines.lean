/-!
# Lines and substrings

A text is cut after every line feed. `rawLines` keeps the terminators, so joining its parts
gives the text back; `lines` drops them, together with a carriage return directly before a
line feed. Substring search and replacement work from left to right and do not overlap.
-/

namespace Blokwork.Text

/-- The pieces of a text, each ending with its line feed, the last one perhaps without. -/
def rawLines : List Char → List (List Char)
  | [] => []
  | c :: r =>
    if c = '\n' then [c] :: rawLines r
    else
      match rawLines r with
      | [] => [[c]]
      | l :: ls => (c :: l) :: ls

/-- Joining the pieces gives the text back. -/
theorem flatten_rawLines (cs : List Char) : (rawLines cs).flatten = cs := by
  induction cs with
  | nil => rfl
  | cons c r ih =>
    unfold rawLines
    split
    · simp [ih]
    · split <;> rename_i h <;> rw [h] at ih <;> simp_all

/-- A line without its line feed, and without a carriage return directly before that. -/
def dropLineEnd (line : List Char) : List Char :=
  match line.reverse with
  | '\n' :: '\r' :: r => r.reverse
  | '\n' :: r => r.reverse
  | _ => line

/-- The lines of a text without their terminators. -/
def lines (s : String) : List String :=
  (rawLines s.toList).map fun l => String.ofList (dropLineEnd l)

/-- `pattern` occurs somewhere in the characters. -/
def occursIn (pattern : List Char) : List Char → Bool
  | [] => pattern.isEmpty
  | c :: r => pattern.isPrefixOf (c :: r) || occursIn pattern r

/-- `pattern` occurs somewhere in `s`. -/
def contains (s pattern : String) : Bool :=
  occursIn pattern.toList s.toList

/-- What stands before and after the first occurrence of `pattern`. -/
def splitFirst (pattern : List Char) : List Char → Option (List Char × List Char)
  | [] => if pattern.isEmpty then some ([], []) else none
  | c :: r =>
    if pattern.isPrefixOf (c :: r) then some ([], (c :: r).drop pattern.length)
    else (splitFirst pattern r).map fun parts => (c :: parts.1, parts.2)

/-- `cs` with every occurrence of `pattern` replaced; `skip` characters are passed over first. -/
def replaceFrom (pattern replacement : List Char) : Nat → List Char → List Char
  | _, [] => []
  | skip + 1, _ :: r => replaceFrom pattern replacement skip r
  | 0, c :: r =>
    if pattern.isPrefixOf (c :: r) then
      replacement ++ replaceFrom pattern replacement (pattern.length - 1) r
    else c :: replaceFrom pattern replacement 0 r

/-- `s` with every occurrence of the non-empty text `pattern` replaced, from left to right. -/
def replace (s pattern replacement : String) : String :=
  String.ofList (replaceFrom pattern.toList replacement.toList 0 s.toList)

end Blokwork.Text
