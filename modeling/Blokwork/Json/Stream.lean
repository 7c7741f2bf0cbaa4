import Blokwork.Json.Parser

/-!
# Records straight from text

A record of known fields is read from JSON text without a value in between, so that a field of
the wrong shape is noticed where it stands: of all faults the first in text order counts. Keys
that are not known are passed over; a known key that occurs twice, or a required one that does
not occur, is a mismatch. The fields may also be given as an array, in order.
-/

namespace Blokwork

/-- A field of a record, read from text into a draft of type `σ`. The number of containers that
may still be entered comes first. -/
structure TextField (σ : Type) where
  name : String
  required : Bool
  enter : (room : Nat) → List Char → σ → Except TextFault (σ × List Char)

namespace TextField

/-- The fault of a value of the wrong shape. A value that starts with an opening bracket is not
read further; any other value is read to its end first. -/
def mismatchAt (cs : List Char) : TextFault :=
  let after (r : Except TextFault Unit) : TextFault :=
    match r with
    | .error fault => fault
    | .ok () => .mismatched
  match Json.skipBlank cs with
  | [] => .ended
  | 'n' :: rest => after ((Json.expectWord ['u', 'l', 'l'] rest).map fun _ => ())
  | 't' :: rest => after ((Json.expectWord ['r', 'u', 'e'] rest).map fun _ => ())
  | 'f' :: rest => after ((Json.expectWord ['a', 'l', 's', 'e'] rest).map fun _ => ())
  | '"' :: rest => after ((Json.readString .keep rest).map fun _ => ())
  | '-' :: rest => after ((Json.readNumber .keep true rest).map fun _ => ())
  | '[' :: _ => .mismatched
  | '{' :: _ => .mismatched
  | c :: rest =>
    if c.isDigit then after ((Json.readNumber .keep false (c :: rest)).map fun _ => ())
    else .malformed

/-- A string. -/
def string (cs : List Char) : Except TextFault (String × List Char) :=
  match Json.skipBlank cs with
  | '"' :: rest => Json.readString .keep rest
  | rest => .error (mismatchAt rest)

/-- A boolean. -/
def boolean (cs : List Char) : Except TextFault (Bool × List Char) :=
  match Json.skipBlank cs with
  | 't' :: rest => (Json.expectWord ['r', 'u', 'e'] rest).map (true, ·)
  | 'f' :: rest => (Json.expectWord ['a', 'l', 's', 'e'] rest).map (false, ·)
  | rest => .error (mismatchAt rest)

/-- `null`, or what `item` reads. -/
def optional {α : Type} (item : List Char → Except TextFault (α × List Char)) (cs : List Char) :
    Except TextFault (Option α × List Char) :=
  match Json.skipBlank cs with
  | 'n' :: rest => (Json.expectWord ['u', 'l', 'l'] rest).map (none, ·)
  | rest => (item rest).map fun (x, rest) => (some x, rest)

/-- An array of any values. -/
def values (room : Nat) (cs : List Char) : Except TextFault (List Json × List Char) :=
  match Json.skipBlank cs with
  | '[' :: rest =>
    match room with
    | 0 => .error .malformed
    | room + 1 => Json.readItems (Json.enoughFuel rest) .keep room rest
  | rest => .error (mismatchAt rest)

/-- Any value. -/
def value (room : Nat) (cs : List Char) : Except TextFault (Json × List Char) :=
  Json.readValue (Json.enoughFuel cs) .keep room cs

/-- The rest of a text behind a value that is passed over. -/
def skipValue (cs : List Char) : Except TextFault (List Char) :=
  (Json.readValue (Json.enoughFuel cs) .skip cs.length cs).map Prod.snd

end TextField

/-- The fields of a record that is read from text, in order. -/
abbrev TextRecord (σ : Type) := List (TextField σ)

namespace TextRecord

variable {σ : Type}

/-- One member of an object: its key is noted in `seen` when it is known. -/
def readMember (record : TextRecord σ) (room : Nat) (seen : List String) (draft : σ)
    (cs : List Char) : Except TextFault ((List String × σ) × List Char) := do
  match Json.skipBlank cs with
  | [] => .error .ended
  | '"' :: rest =>
    let (key, rest) ← Json.readString .keep rest
    match record.find? fun f => f.name = key with
    | some f =>
      if seen.contains key then .error .mismatched
      else
        let rest ← Json.expectColon rest
        let (draft, rest) ← f.enter room rest draft
        return ((key :: seen, draft), rest)
    | none =>
      let rest ← Json.expectColon rest
      let rest ← TextField.skipValue rest
      return ((seen, draft), rest)
  | _ :: _ => .error .malformed

/-- The members of an object behind its opening brace, or behind a member when `first` is
false. -/
def readMembers (record : TextRecord σ) (room : Nat) :
    (fuel : Nat) → (first : Bool) → List String → σ → List Char →
    Except TextFault ((List String × σ) × List Char)
  | 0, _, _, _, _ => .error .malformed
  | fuel + 1, first, seen, draft, cs =>
    match Json.skipBlank cs with
    | [] => .error .ended
    | '}' :: rest => .ok ((seen, draft), rest)
    | ',' :: rest =>
      if first then .error .malformed
      else do
        let ((seen, draft), rest) ← record.readMember room seen draft rest
        record.readMembers room fuel false seen draft rest
    | rest =>
      if first then do
        let ((seen, draft), rest) ← record.readMember room seen draft rest
        record.readMembers room fuel false seen draft rest
      else .error .malformed

/-- The closing bracket of an array whose items were all read. -/
def expectClose (cs : List Char) : Except TextFault (List Char) :=
  match Json.skipBlank cs with
  | [] => .error .ended
  | ']' :: rest => .ok rest
  | _ :: _ => .error .malformed

/-- The fields in order behind the opening bracket of an array. -/
def readItems (room : Nat) : (first : Bool) → TextRecord σ → σ → List Char →
    Except TextFault (σ × List Char)
  | _, [], draft, cs => (expectClose cs).map (draft, ·)
  | first, f :: record, draft, cs =>
    match Json.skipBlank cs with
    | [] => .error .ended
    | ']' :: rest =>
      if (f :: record).any (·.required) then .error .mismatched else .ok (draft, rest)
    | ',' :: rest =>
      if first then .error .malformed
      else
        match Json.skipBlank rest with
        | [] => .error .ended
        | ']' :: _ => .error .malformed
        | rest => do
          let (draft, rest) ← f.enter room rest draft
          readItems room false record draft rest
    | rest =>
      if first then do
        let (draft, rest) ← f.enter room rest draft
        readItems room false record draft rest
      else .error .malformed

/-- A record that a text starts with. -/
def read (record : TextRecord σ) (room : Nat) (draft : σ) (cs : List Char) :
    Except TextFault (σ × List Char) :=
  match Json.skipBlank cs, room with
  | '[' :: _, 0 => .error .malformed
  | '{' :: _, 0 => .error .malformed
  | '[' :: rest, room + 1 => readItems room true record draft rest
  | '{' :: rest, room + 1 => do
    let ((seen, draft), rest) ← record.readMembers room (rest.length + 1) true [] draft rest
    if record.any fun f => f.required && !seen.contains f.name then .error .mismatched
    else return (draft, rest)
  | rest, _ => .error (TextField.mismatchAt rest)

/-- The record of a whole text. -/
def parse (record : TextRecord σ) (draft : σ) (text : String) : Except TextFault σ := do
  let (draft, rest) ← record.read Json.depthLimit draft text.toList
  Json.expectEnd rest
  return draft

end TextRecord

/-- The text that some bytes spell: the whole of it, or the longest part before the first byte
that is out of place. -/
inductive DecodedText where
  | whole (text : String)
  | broken (valid : String)
deriving DecidableEq, Repr

/-- The longest readable text at the start of some bytes, of which at most `length` are
taken. -/
def longestText (bytes : ByteArray) : (length : Nat) → String
  | 0 => ""
  | length + 1 =>
    match String.fromUTF8? (bytes.extract 0 (length + 1)) with
    | some text => text
    | none => longestText bytes length

/-- Reads bytes as text. -/
def DecodedText.ofBytes (bytes : ByteArray) : DecodedText :=
  match String.fromUTF8? bytes with
  | some text => .whole text
  | none => .broken (longestText bytes bytes.size)

/-- Reads a JSON text from bytes. A byte that is out of place is malformed where a fault in
front of it does not come first. -/
def parseBytes {α : Type} (parse : String → Except TextFault α) (bytes : ByteArray) :
    Except TextFault α :=
  match DecodedText.ofBytes bytes with
  | .whole text => parse text
  | .broken valid =>
    match parse valid with
    | .error .mismatched => .error .mismatched
    | _ => .error .malformed

end Blokwork
