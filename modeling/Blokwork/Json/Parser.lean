import Blokwork.Json.Numeral

/-!
# Reading JSON text

A strict reader: the first fault in text order decides whether the text *ended* early or is
*malformed*. At most 127 containers may enclose one another. A repeated key of an object
keeps its first position and its last value. `Scan` says how much is asked of the text: a
value that is only passed over may hold numbers out of range and unpaired surrogates.
-/

namespace Blokwork

namespace Json

/-- How a value is read: to be kept, or only to be passed over. -/
inductive Scan where
  | keep
  | skip
deriving DecidableEq, Repr

/-- The containers that may enclose one another in a text. -/
def depthLimit : Nat := 127

/-- The rest of a text behind its leading blanks. -/
def skipBlank (cs : List Char) : List Char :=
  cs.dropWhile fun c => c = ' ' || c = '\n' || c = '\t' || c = '\r'

/-- The value of a hexadecimal digit. -/
def hexValue? (c : Char) : Option Nat :=
  if '0' ≤ c ∧ c ≤ '9' then some (c.toNat - '0'.toNat)
  else if 'a' ≤ c ∧ c ≤ 'f' then some (c.toNat - 'a'.toNat + 10)
  else if 'A' ≤ c ∧ c ≤ 'F' then some (c.toNat - 'A'.toNat + 10)
  else none

/-- The value of four hexadecimal digits. -/
def hexQuad? (a b c d : Char) : Option Nat := do
  return (((← hexValue? a) * 16 + (← hexValue? b)) * 16 + (← hexValue? c)) * 16 + (← hexValue? d)

/-- The fault of an escape with fewer than four characters behind it: four bytes are read
before they are looked at. -/
def shortQuad (cs : List Char) : TextFault :=
  if (String.ofList cs).utf8ByteSize < 4 then .ended else .malformed

/-- The character of a one-letter escape. -/
def escaped? : Char → Option Char
  | '"' => some '"'
  | '\\' => some '\\'
  | '/' => some '/'
  | 'b' => some '\x08'
  | 'f' => some '\x0c'
  | 'n' => some '\n'
  | 'r' => some '\r'
  | 't' => some '\t'
  | _ => none

/-- Puts a character before a string that was read. -/
def consChar (c : Char) (r : Except TextFault (List Char × List Char)) :
    Except TextFault (List Char × List Char) :=
  r.map fun (s, rest) => (c :: s, rest)

/-- The characters of a string behind its opening quote, up to the closing one. `pending` is a
leading surrogate that waits for its partner. -/
def stringBody (mode : Scan) :
    (pending : Option Nat) → List Char → Except TextFault (List Char × List Char)
  | none, [] => .error .ended
  | none, ['\\'] => .error .ended
  | none, '"' :: rest => .ok ([], rest)
  | none, '\\' :: 'u' :: a :: b :: c :: d :: rest =>
    match hexQuad? a b c d with
    | none => .error .malformed
    | some n =>
      if mode = .skip then consChar '\uFFFD' (stringBody mode none rest)
      else if 0xDC00 ≤ n ∧ n ≤ 0xDFFF then .error .malformed
      else if 0xD800 ≤ n ∧ n ≤ 0xDBFF then stringBody mode (some n) rest
      else consChar (Char.ofNat n) (stringBody mode none rest)
  | none, '\\' :: 'u' :: rest => .error (shortQuad rest)
  | none, '\\' :: e :: rest =>
    match escaped? e with
    | none => .error .malformed
    | some c => consChar c (stringBody mode none rest)
  | none, c :: rest =>
    if c.toNat < 0x20 then .error .malformed else consChar c (stringBody mode none rest)
  | some _, [] => .error .ended
  | some _, ['\\'] => .error .ended
  | some high, '\\' :: 'u' :: a :: b :: c :: d :: rest =>
    match hexQuad? a b c d with
    | none => .error .malformed
    | some low =>
      if 0xDC00 ≤ low ∧ low ≤ 0xDFFF then
        consChar (Char.ofNat ((high - 0xD800) * 0x400 + (low - 0xDC00) + 0x10000))
          (stringBody mode none rest)
      else .error .malformed
  | some _, '\\' :: 'u' :: rest => .error (shortQuad rest)
  | some _, _ :: _ => .error .malformed

/-- The string behind an opening quote. -/
def readString (mode : Scan) (cs : List Char) : Except TextFault (String × List Char) :=
  (stringBody mode none cs).map fun (s, rest) => (String.ofList s, rest)

/-- The rest of a text that starts with `word`. -/
def expectWord : (word : List Char) → List Char → Except TextFault (List Char)
  | [], cs => .ok cs
  | _ :: _, [] => .error .ended
  | w :: ws, c :: cs => if w = c then expectWord ws cs else .error .malformed

/-- The number a text starts with, behind its sign. A number that is passed over may be out of
range, and is malformed where it breaks off. -/
def readNumber (mode : Scan) (negative : Bool) (cs : List Char) :
    Except TextFault (Number × List Char) :=
  match Numeral.scan negative cs, mode with
  | .error fault, .keep => .error fault
  | .error _, .skip => .error .malformed
  | .ok (numeral, rest), .keep =>
    match numeral.value? with
    | some n => .ok (n, rest)
    | none => .error .malformed
  | .ok (_, rest), .skip => .ok (.int 0, rest)

/-- The rest of a text behind blanks and a colon. -/
def expectColon (cs : List Char) : Except TextFault (List Char) :=
  match skipBlank cs with
  | [] => .error .ended
  | ':' :: rest => .ok rest
  | _ :: _ => .error .malformed

mutual

/-- The value a text starts with. `room` is the number of containers that may still be
entered, and the first argument bounds the number of calls inside one another. -/
def readValue : Nat → Scan → Nat → List Char → Except TextFault (Json × List Char)
  | 0, _, _, _ => .error .malformed
  | fuel + 1, mode, room, cs =>
    match skipBlank cs with
    | [] => .error .ended
    | 'n' :: rest => (expectWord ['u', 'l', 'l'] rest).map (.null, ·)
    | 't' :: rest => (expectWord ['r', 'u', 'e'] rest).map (.bool true, ·)
    | 'f' :: rest => (expectWord ['a', 'l', 's', 'e'] rest).map (.bool false, ·)
    | '"' :: rest => (readString mode rest).map fun (s, rest) => (.str s, rest)
    | '[' :: rest =>
      match room with
      | 0 => .error .malformed
      | room + 1 => (readItems fuel mode room rest).map fun (xs, rest) => (.arr xs, rest)
    | '{' :: rest =>
      match room with
      | 0 => .error .malformed
      | room + 1 =>
        (readMembers fuel mode room rest).map fun (ms, rest) => (.obj (Dict.ofEntries ms), rest)
    | '-' :: rest => (readNumber mode true rest).map fun (n, rest) => (.num n, rest)
    | c :: rest =>
      if c.isDigit then (readNumber mode false (c :: rest)).map fun (n, rest) => (.num n, rest)
      else .error .malformed

/-- The items of an array behind its opening bracket. -/
def readItems : Nat → Scan → Nat → List Char → Except TextFault (List Json × List Char)
  | 0, _, _, _ => .error .malformed
  | fuel + 1, mode, room, cs =>
    match skipBlank cs with
    | [] => .error .ended
    | ']' :: rest => .ok ([], rest)
    | first => do
      let (x, rest) ← readValue fuel mode room first
      let (xs, rest) ← readMoreItems fuel mode room rest
      return (x :: xs, rest)

/-- The items of an array behind one of them. -/
def readMoreItems : Nat → Scan → Nat → List Char → Except TextFault (List Json × List Char)
  | 0, _, _, _ => .error .malformed
  | fuel + 1, mode, room, cs =>
    match skipBlank cs with
    | [] => .error .ended
    | ']' :: rest => .ok ([], rest)
    | ',' :: rest => do
      let (x, rest) ← readValue fuel mode room rest
      let (xs, rest) ← readMoreItems fuel mode room rest
      return (x :: xs, rest)
    | _ :: _ => .error .malformed

/-- The members of an object behind its opening brace. -/
def readMembers :
    Nat → Scan → Nat → List Char → Except TextFault (List (String × Json) × List Char)
  | 0, _, _, _ => .error .malformed
  | fuel + 1, mode, room, cs =>
    match skipBlank cs with
    | [] => .error .ended
    | '}' :: rest => .ok ([], rest)
    | first => do
      let (m, rest) ← readMember fuel mode room first
      let (ms, rest) ← readMoreMembers fuel mode room rest
      return (m :: ms, rest)

/-- The members of an object behind one of them. -/
def readMoreMembers :
    Nat → Scan → Nat → List Char → Except TextFault (List (String × Json) × List Char)
  | 0, _, _, _ => .error .malformed
  | fuel + 1, mode, room, cs =>
    match skipBlank cs with
    | [] => .error .ended
    | '}' :: rest => .ok ([], rest)
    | ',' :: rest => do
      let (m, rest) ← readMember fuel mode room rest
      let (ms, rest) ← readMoreMembers fuel mode room rest
      return (m :: ms, rest)
    | _ :: _ => .error .malformed

/-- One member of an object. -/
def readMember : Nat → Scan → Nat → List Char → Except TextFault ((String × Json) × List Char)
  | 0, _, _, _ => .error .malformed
  | fuel + 1, mode, room, cs =>
    match skipBlank cs with
    | [] => .error .ended
    | '"' :: rest => do
      let (k, rest) ← readString mode rest
      let rest ← expectColon rest
      let (x, rest) ← readValue fuel mode room rest
      return ((k, x), rest)
    | _ :: _ => .error .malformed

end

/-- Calls inside one another that suffice for a text: three for each character. -/
def enoughFuel (cs : List Char) : Nat := 3 * cs.length + 3

/-- Only blanks may follow the value of a text. -/
def expectEnd (cs : List Char) : Except TextFault Unit :=
  match skipBlank cs with
  | [] => .ok ()
  | _ :: _ => .error .malformed

/-- The value of a whole text with at most `room` containers inside one another. -/
def parseWithin (room : Nat) (text : String) : Except TextFault Json := do
  let cs := text.toList
  let (j, rest) ← readValue (enoughFuel cs) .keep room cs
  expectEnd rest
  return j

/-- The value of a whole text. -/
def parse (text : String) : Except TextFault Json :=
  parseWithin depthLimit text

end Json

end Blokwork
