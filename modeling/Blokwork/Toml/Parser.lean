import Blokwork.Toml.Quoted
import Blokwork.Toml.Tree

/-!
# Reading TOML text

The statements of a text, one to a line, and the table that they define. `Toml.parse?` gives
nothing for a text that is no TOML or that defines a key twice. At most 80 arrays and inline
tables may stand inside one another.
-/

namespace Blokwork.Toml

/-- The rest of a text behind blanks, line breaks and comments. `inComment` says that the text
starts within a comment. -/
def skipGaps (inComment : Bool) : List Char → Option (List Char)
  | [] => some []
  | '\n' :: rest => skipGaps false rest
  | '\r' :: '\n' :: rest => skipGaps false rest
  | c :: rest =>
    if inComment then
      if isPlainChar c then skipGaps true rest else none
    else if c = ' ' || c = '\t' then skipGaps false rest
    else if c = '#' then skipGaps true rest
    else some (c :: rest)

/-- The character may stand in a bare key. -/
def isKeyChar (c : Char) : Bool := c.isAlphanum || c = '_' || c = '-'

/-- The key that a text starts with. -/
def readKey (cs : List Char) : Option (String × List Char) :=
  match cs with
  | '"' :: _ => readLineString cs
  | '\'' :: _ => readLineString cs
  | _ =>
    let key := cs.takeWhile isKeyChar
    if key.isEmpty then none else some (String.ofList key, cs.dropWhile isKeyChar)

/-- The keys that a text starts with, with dots between them, and the blanks behind them. -/
def readPath : (fuel : Nat) → List Char → Option (List String × List Char)
  | 0, _ => none
  | fuel + 1, cs => do
    let (key, rest) ← readKey (skipBlank cs)
    match skipBlank rest with
    | '.' :: rest =>
      let (keys, rest) ← readPath fuel rest
      return (key :: keys, rest)
    | rest => return ([key], rest)

/-- The dotted key that a text starts with, and the blanks behind it. -/
def readDottedKey (cs : List Char) : Option (List String × List Char) :=
  readPath cs.length cs

/-- The containers that may stand inside one another. -/
def depthLimit : Nat := 80

mutual

/-- The value that a text starts with. `room` is the number of containers that may still be
entered, and the first argument bounds the number of calls inside one another. -/
def readValue : Nat → Nat → List Char → Option (Toml × List Char)
  | 0, _, _ => none
  | fuel + 1, room, cs =>
    match cs, room with
    | '"' :: _, _ => (readString cs).map fun (s, rest) => (.str s, rest)
    | '\'' :: _, _ => (readString cs).map fun (s, rest) => (.str s, rest)
    | '[' :: _, 0 => none
    | '{' :: _, 0 => none
    | '[' :: rest, room + 1 => (readItems fuel room rest).map fun (xs, rest) => (.arr xs, rest)
    | '{' :: rest, room + 1 =>
      (readMembers fuel room [] rest).map fun (draft, rest) => (draft.toToml, rest)
    | _, _ => readBare cs

/-- The items of an array behind its opening bracket or a comma. -/
def readItems : Nat → Nat → List Char → Option (List Toml × List Char)
  | 0, _, _ => none
  | fuel + 1, room, cs => do
    match ← skipGaps false cs with
    | ']' :: rest => return ([], rest)
    | first =>
      let (x, rest) ← readValue fuel room first
      match ← skipGaps false rest with
      | ']' :: rest => return ([x], rest)
      | ',' :: rest =>
        let (xs, rest) ← readItems fuel room rest
        return (x :: xs, rest)
      | _ => none

/-- The members of an inline table behind its opening brace or a comma; `draft` holds those
that came before. -/
def readMembers : Nat → Nat → Draft → List Char → Option (Draft × List Char)
  | 0, _, _, _ => none
  | fuel + 1, room, draft, cs => do
    match ← skipGaps false cs with
    | '}' :: rest => return (draft, rest)
    | first =>
      let ((path, x), rest) ← readAssignment fuel room first
      let draft ← draft.assign x path
      match ← skipGaps false rest with
      | '}' :: rest => return (draft, rest)
      | ',' :: rest => readMembers fuel room draft rest
      | _ => none

/-- A dotted key and its value. -/
def readAssignment : Nat → Nat → List Char → Option ((List String × Toml) × List Char)
  | 0, _, _ => none
  | fuel + 1, room, cs => do
    let (path, rest) ← readDottedKey cs
    match rest with
    | '=' :: rest =>
      let (x, rest) ← readValue fuel room (skipBlank rest)
      return ((path, x), rest)
    | _ => none

end

/-- Calls inside one another that suffice for a text: three for each character. -/
def enoughFuel (cs : List Char) : Nat := 3 * cs.length + 3

/-- The statement that a text starts with. -/
def readStatement (cs : List Char) : Option (Statement × List Char) :=
  match cs with
  | '[' :: '[' :: rest => do
    let (path, rest) ← readDottedKey rest
    match rest with
    | ']' :: ']' :: rest => return (.element path, rest)
    | _ => none
  | '[' :: rest => do
    let (path, rest) ← readDottedKey rest
    match rest with
    | ']' :: rest => return (.table path, rest)
    | _ => none
  | _ => do
    let ((path, x), rest) ← readAssignment (enoughFuel cs) depthLimit cs
    return (.assign path x, rest)

/-- A line may end here: the text is over, or starts with a line break or a comment. -/
def endsLine : List Char → Bool
  | [] => true
  | '#' :: _ => true
  | cs => startsLine cs

/-- Adds the statements of a text, at most `fuel` of them. -/
def addStatements : (fuel : Nat) → Definitions → List Char → Option Definitions
  | 0, _, _ => none
  | fuel + 1, defs, cs => do
    match ← skipGaps false cs with
    | [] => return defs
    | first =>
      let (statement, rest) ← readStatement first
      let rest := skipBlank rest
      if endsLine rest then addStatements fuel (← defs.add statement) rest else none

/-- The text without a byte order mark at its start. -/
def dropMark : List Char → List Char
  | '\uFEFF' :: rest => rest
  | cs => cs

/-- The table that a text defines. -/
def parse? (text : String) : Option Toml := do
  let cs := dropMark text.toList
  let defs ← addStatements (cs.length + 1) {} cs
  return defs.root.toToml

end Blokwork.Toml
