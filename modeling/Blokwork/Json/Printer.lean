import Blokwork.Json.Basic
import Blokwork.Number.Shortest

/-!
# JSON text

Two written forms of a value: `compact` on one line without spaces, and `pretty` with an
indent of two spaces and one item to a line. Both keep the order of members. In strings the
quote, the backslash and the characters below U+0020 are escaped and nothing else is.
-/

namespace Blokwork

/-- Magnitudes from `10 ^ -5` to below `10 ^ 16` are written in positional form. -/
def Number.layout : Decimal.Layout := ⟨-5, 16⟩

/-- The text of a number. -/
def Number.text : Number → String
  | .int n => if n < 0 then "-" ++ n.natAbs.repr else n.natAbs.repr
  | .real x => (if x.negative then "-" else "") ++ x.shortest.text Number.layout

namespace Json

/-- One hexadecimal digit in lower case. -/
def hexDigit (n : Nat) : Char :=
  Char.ofNat (if n < 10 then '0'.toNat + n else 'a'.toNat + (n - 10))

/-- A character inside a string. -/
def escapeChar (c : Char) : List Char :=
  if c = '"' then ['\\', '"']
  else if c = '\\' then ['\\', '\\']
  else if c = '\x08' then ['\\', 'b']
  else if c = '\x0c' then ['\\', 'f']
  else if c = '\n' then ['\\', 'n']
  else if c = '\r' then ['\\', 'r']
  else if c = '\t' then ['\\', 't']
  else if c.toNat < 0x20 then
    ['\\', 'u', '0', '0', hexDigit (c.toNat / 16), hexDigit (c.toNat % 16)]
  else [c]

/-- A string in quotes. -/
def quote (s : String) : String :=
  "\"" ++ String.ofList (s.toList.flatMap escapeChar) ++ "\""

mutual

/-- The value on one line, without spaces. -/
def compact : Json → String
  | .null => "null"
  | .bool b => if b then "true" else "false"
  | .num n => n.text
  | .str s => quote s
  | .arr xs => "[" ++ String.intercalate "," (compactItems xs) ++ "]"
  | .obj ms => "\x7b" ++ String.intercalate "," (compactMembers ms) ++ "\x7d"

/-- The items, each on its own. -/
def compactItems : List Json → List String
  | [] => []
  | x :: xs => compact x :: compactItems xs

/-- The members, each with its key. -/
def compactMembers : List (String × Json) → List String
  | [] => []
  | (k, x) :: ms => (quote k ++ ":" ++ compact x) :: compactMembers ms

end

/-- Two spaces for each level. -/
def indent (level : Nat) : String :=
  String.ofList (List.replicate (2 * level) ' ')

/-- A bracketed block with one part to a line, at `level` levels of indent outside. -/
def block (opening closing : String) (level : Nat) (parts : List String) : String :=
  opening ++ "\n" ++ String.intercalate ",\n" (parts.map (indent (level + 1) ++ ·)) ++ "\n"
    ++ indent level ++ closing

mutual

/-- The value with an indent of two spaces a level, one item to a line. -/
def prettyAt (level : Nat) : Json → String
  | .null => "null"
  | .bool b => if b then "true" else "false"
  | .num n => n.text
  | .str s => quote s
  | .arr [] => "[]"
  | .arr (x :: xs) => block "[" "]" level (prettyItems (level + 1) (x :: xs))
  | .obj [] => "\x7b\x7d"
  | .obj (m :: ms) => block "\x7b" "\x7d" level (prettyMembers (level + 1) (m :: ms))

/-- The items at one level, each on its own. -/
def prettyItems (level : Nat) : List Json → List String
  | [] => []
  | x :: xs => prettyAt level x :: prettyItems level xs

/-- The members at one level, each with its key. -/
def prettyMembers (level : Nat) : List (String × Json) → List String
  | [] => []
  | (k, x) :: ms => (quote k ++ ": " ++ prettyAt level x) :: prettyMembers level ms

end

/-- The value with an indent of two spaces a level, without a final line feed. -/
def pretty (j : Json) : String := prettyAt 0 j

end Json

end Blokwork
