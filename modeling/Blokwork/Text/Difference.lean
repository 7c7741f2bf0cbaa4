import Blokwork.Text.Lines

/-!
# Differences

The difference between two texts in the unified format. The lines kept are a longest common
subsequence; every stretch of changes shows the removed lines first and the added lines after
them, between up to three lines of context, and stretches whose contexts overlap share a
section.
-/

namespace Blokwork.Text

/-- A line as it stands in a difference; lines include their terminators. -/
inductive Edit where
  | keep (line : List Char)
  | remove (line : List Char)
  | add (line : List Char)
deriving DecidableEq, Repr

/-- The lengths of the longest common subsequences of `x :: xs` with the endings of `ys`, from
those of `xs`. Both lists start with the whole of `ys`. -/
def commonRow (x : List Char) : (ys : List (List Char)) → (below : List Nat) → List Nat
  | [], _ => [0]
  | y :: ys, below =>
    let row := commonRow x ys below.tail
    let length :=
      if x = y then below.tail.headD 0 + 1 else max (below.headD 0) (row.headD 0)
    length :: row

/-- One row for each ending of the first list of lines, the whole list first. -/
def commonTable : (xs ys : List (List Char)) → List (List Nat)
  | [], ys => [List.replicate (ys.length + 1) 0]
  | x :: xs, ys =>
    let table := commonTable xs ys
    commonRow x ys (table.headD []) :: table

/-- The edits that lead from the first list of lines to the second, along the table of common
lengths. -/
def editsAlong : (fuel : Nat) → (xs ys : List (List Char)) → List (List Nat) → List Edit
  | 0, _, _, _ => []
  | _ + 1, [], ys, _ => ys.map .add
  | _ + 1, xs, [], _ => xs.map .remove
  | fuel + 1, x :: xs, y :: ys, table =>
    let below := table.tail
    if x = y then .keep x :: editsAlong fuel xs ys (below.map List.tail)
    else if (table.headD []).tail.headD 0 ≤ (below.headD []).headD 0 then
      .remove x :: editsAlong fuel xs (y :: ys) below
    else .add y :: editsAlong fuel (x :: xs) ys (table.map List.tail)

/-- The common start of two lists and what remains of each. -/
def commonStart : (xs ys : List (List Char)) →
    List (List Char) × List (List Char) × List (List Char)
  | x :: xs, y :: ys =>
    if x = y then
      let (start, xs, ys) := commonStart xs ys
      (x :: start, xs, ys)
    else ([], x :: xs, y :: ys)
  | xs, ys => ([], xs, ys)

/-- The edits that lead from one list of lines to another. -/
def edits (xs ys : List (List Char)) : List Edit :=
  let (start, xs, ys) := commonStart xs ys
  let (ending, xs, ys) := commonStart xs.reverse ys.reverse
  let (xs, ys) := (xs.reverse, ys.reverse)
  start.map .keep ++ editsAlong (xs.length + ys.length + 1) xs ys (commonTable xs ys)
    ++ ending.reverse.map .keep

/-- A stretch of changes behind lines that are kept. -/
structure Change where
  /-- The kept lines in front, up to the change before. -/
  before : List (List Char)
  removed : List (List Char)
  added : List (List Char)
deriving DecidableEq, Repr

/-- The changes of some edits, and the kept lines behind the last one. -/
def changes : List Edit → List Change × List (List Char)
  | [] => ([], [])
  | .keep line :: rest =>
    match changes rest with
    | ([], kept) => ([], line :: kept)
    | (c :: cs, kept) => ({ c with before := line :: c.before } :: cs, kept)
  | .remove line :: rest =>
    match changes rest with
    | (c :: cs, kept) =>
      if c.before.isEmpty then ({ c with removed := line :: c.removed } :: cs, kept)
      else (⟨[], [line], []⟩ :: c :: cs, kept)
    | ([], kept) => ([⟨[], [line], []⟩], kept)
  | .add line :: rest =>
    match changes rest with
    | (c :: cs, kept) =>
      if c.before.isEmpty then ({ c with added := line :: c.added } :: cs, kept)
      else (⟨[], [], [line]⟩ :: c :: cs, kept)
    | ([], kept) => ([⟨[], [], [line]⟩], kept)

/-- The lines of context on each side of a change. -/
def contextLines : Nat := 3

/-- A section of a difference: where it starts in both texts, and its lines. -/
structure Section where
  oldStart : Nat
  newStart : Nat
  lines : List Edit
deriving DecidableEq, Repr

/-- The lines of a change without its context. -/
def Change.lines (c : Change) : List Edit := c.removed.map .remove ++ c.added.map .add

/-- The lines of the first text among some edits. -/
def oldCount (lines : List Edit) : Nat :=
  (lines.filter fun e => match e with | .add _ => false | _ => true).length

/-- The lines of the second text among some edits. -/
def newCount (lines : List Edit) : Nat :=
  (lines.filter fun e => match e with | .remove _ => false | _ => true).length

/-- A change joins the section before it when their contexts overlap. Lines added behind the
last line of the first text stand at that line. -/
def joins (oldTotal oldStart gap : Nat) : Bool :=
  (if oldStart = oldTotal then gap - 1 else gap) < 2 * contextLines

/-- The sections of some changes of a text with `oldTotal` lines. `current` is the section that
a further change may still join, and the two numbers count the lines of both texts up to its
end. -/
def sectionsFrom (oldTotal : Nat) (current : Option Section) (old new : Nat)
    (kept : List (List Char)) : List Change → List Section
  | [] =>
    match current with
    | none => []
    | some s => [{ s with lines := s.lines ++ (kept.take contextLines).map .keep }]
  | c :: rest =>
    let gap := c.before.length
    let oldEnd := old + gap + c.removed.length
    let newEnd := new + gap + c.added.length
    match current with
    | some s =>
      if joins oldTotal (old + gap) gap then
        sectionsFrom oldTotal (some { s with lines := s.lines ++ c.before.map .keep ++ c.lines })
          oldEnd newEnd kept rest
      else
        { s with lines := s.lines ++ (c.before.take contextLines).map .keep }
          :: sectionsFrom oldTotal
              (some ⟨old + gap - contextLines, new + gap - contextLines,
                (c.before.drop (gap - contextLines)).map .keep ++ c.lines⟩)
              oldEnd newEnd kept rest
    | none =>
      let lead := min gap contextLines
      sectionsFrom oldTotal
        (some ⟨old + gap - lead, new + gap - lead,
          (c.before.drop (gap - lead)).map .keep ++ c.lines⟩)
        oldEnd newEnd kept rest

/-- Where a section stands in one of the texts: its first line, counted from one, and the number
of its lines, which is left out when it is one. -/
def rangeText (start count : Nat) : String :=
  let first := if count = 0 then start else start + 1
  if count = 1 then first.repr else first.repr ++ "," ++ count.repr

/-- A line behind its mark. A blank context line has no mark; a line without terminator is
followed by a remark. -/
def Edit.text (e : Edit) : String :=
  let (mark, line) :=
    match e with
    | .keep line => (if line = ['\n'] then "" else " ", line)
    | .remove line => ("-", line)
    | .add line => ("+", line)
  mark ++ String.ofList line
    ++ (if line.getLast? = some '\n' then "" else "\n\\ No newline at end of file\n")

/-- The text of a section. -/
def Section.text (s : Section) : String :=
  "@@ -" ++ rangeText s.oldStart (oldCount s.lines) ++ " +"
    ++ rangeText s.newStart (newCount s.lines) ++ " @@\n"
    ++ String.join (s.lines.map Edit.text)

/-- The difference from one text to another in the unified format. -/
def difference (old new : String) : String :=
  let oldLines := rawLines old.toList
  let (changed, kept) := changes (edits oldLines (rawLines new.toList))
  "--- original\n+++ modified\n"
    ++ String.join ((sectionsFrom oldLines.length none 0 0 kept changed).map Section.text)

end Blokwork.Text
