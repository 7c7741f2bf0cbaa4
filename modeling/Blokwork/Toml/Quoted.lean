import Blokwork.Toml.Scalar

/-!
# Strings

The strings of a TOML text. A basic string stands in double quotes and has escapes, a literal
string stands in single quotes and has none; three quotes instead of one allow line breaks. A
line break directly behind the opening three quotes is dropped, and one behind a backslash is
dropped together with all blanks and line breaks after it.
-/

namespace Blokwork.Toml

/-- The character may stand in a string or a comment. -/
def isPlainChar (c : Char) : Bool := c = '\t' || (0x20 ≤ c.toNat && c.toNat ≠ 0x7f)

/-- The rest of a text behind its leading spaces and tabs. -/
def skipBlank (cs : List Char) : List Char := cs.dropWhile fun c => c = ' ' || c = '\t'

/-- The text starts with a line break. -/
def startsLine : List Char → Bool
  | '\n' :: _ => true
  | '\r' :: '\n' :: _ => true
  | _ => false

/-- The text without a line break at its start. -/
def dropLineBreak : List Char → List Char
  | '\n' :: rest => rest
  | '\r' :: '\n' :: rest => rest
  | cs => cs

/-- The character with a number written in hexadecimal digits. -/
def hexChar? (digits : List Char) : Option Char := do
  let n := ofDigits 16 (← digits.mapM hexDigit?)
  if n.isValidChar then some (Char.ofNat n) else none

/-- The character of a one-letter escape. -/
def escaped? : Char → Option Char
  | '"' => some '"'
  | '\\' => some '\\'
  | 'b' => some '\x08'
  | 'e' => some '\x1b'
  | 'f' => some '\x0c'
  | 'n' => some '\n'
  | 'r' => some '\r'
  | 't' => some '\t'
  | _ => none

/-- Where the reader of a string stands: in a string of one line, in a string of several lines,
or there in the gap behind a backslash. -/
inductive Place where
  | line
  | block
  | gap
deriving DecidableEq, Repr

/-- Where a character leads. -/
def Place.next : Place → Place
  | .line => .line
  | _ => .block

/-- Puts a character before a string that was read. -/
def consChar (c : Char) (r : Option (List Char × List Char)) : Option (List Char × List Char) :=
  r.map fun (s, rest) => (c :: s, rest)

/-- Behind three closing quotes: up to two more quotes belong to the string. -/
def closing (quote : Char) : List Char → List Char × List Char
  | a :: b :: rest =>
    if a = quote ∧ b = quote then ([a, b], rest)
    else if a = quote then ([a], b :: rest)
    else ([], a :: b :: rest)
  | [a] => if a = quote then ([a], []) else ([], [a])
  | [] => ([], [])

/-- The characters of a basic string behind its opening quotes, and what follows the closing
ones. -/
def basicBody : Place → List Char → Option (List Char × List Char)
  | _, [] => none
  | .block, '"' :: '"' :: '"' :: rest => some (closing '"' rest)
  | .gap, '"' :: '"' :: '"' :: rest => some (closing '"' rest)
  | .line, '"' :: rest => some ([], rest)
  | p, '\\' :: 'u' :: a :: b :: c :: d :: rest =>
    match hexChar? [a, b, c, d] with
    | some x => consChar x (basicBody p.next rest)
    | none => none
  | p, '\\' :: 'U' :: a :: b :: c :: d :: e :: f :: g :: h :: rest =>
    match hexChar? [a, b, c, d, e, f, g, h] with
    | some x => consChar x (basicBody p.next rest)
    | none => none
  | p, '\\' :: 'x' :: a :: b :: rest =>
    match hexChar? [a, b] with
    | some x => consChar x (basicBody p.next rest)
    | none => none
  | p, '\\' :: c :: rest =>
    match escaped? c with
    | some x => consChar x (basicBody p.next rest)
    | none => if p ≠ .line && startsLine (skipBlank (c :: rest)) then basicBody .gap rest else none
  | p, '\r' :: '\n' :: rest =>
    match p with
    | .line => none
    | .block => consChar '\n' (basicBody .block rest)
    | .gap => basicBody .gap rest
  | p, c :: rest =>
    if p = .gap && (c = ' ' || c = '\t' || c = '\n') then basicBody .gap rest
    else if isPlainChar c || (c = '\n' && p = .block) then consChar c (basicBody p.next rest)
    else none

/-- The characters of a literal string of several lines behind its opening quotes, and what
follows the closing ones. -/
def literalBlock : List Char → Option (List Char × List Char)
  | [] => none
  | '\'' :: '\'' :: '\'' :: rest => some (closing '\'' rest)
  | '\r' :: '\n' :: rest => consChar '\n' (literalBlock rest)
  | c :: rest => if isPlainChar c || c = '\n' then consChar c (literalBlock rest) else none

/-- The characters of a literal string of one line behind its opening quote, and what follows
the closing one. -/
def literalLine : List Char → Option (List Char × List Char)
  | [] => none
  | '\'' :: rest => some ([], rest)
  | c :: rest => if isPlainChar c then consChar c (literalLine rest) else none

/-- The string of one line that a text starts with. -/
def readLineString : List Char → Option (String × List Char)
  | '"' :: rest => (basicBody .line rest).map fun (s, rest) => (String.ofList s, rest)
  | '\'' :: rest => (literalLine rest).map fun (s, rest) => (String.ofList s, rest)
  | _ => none

/-- The string that a text starts with. -/
def readString : List Char → Option (String × List Char)
  | '"' :: '"' :: '"' :: rest =>
    (basicBody .block (dropLineBreak rest)).map fun (s, rest) => (String.ofList s, rest)
  | '\'' :: '\'' :: '\'' :: rest =>
    (literalBlock (dropLineBreak rest)).map fun (s, rest) => (String.ofList s, rest)
  | cs => readLineString cs

end Blokwork.Toml
