import Blokwork.Text.Printable

/-!
# Quoted text

A text as it is shown to a reader in a message: in double quotes, with a short escape for the
common controls and the code point in braces for every other character that is not shown as
itself.
-/

namespace Blokwork.Text

/-- The digits of a number to base sixteen, the least one first. -/
def hexDigitsReversed : (fuel : Nat) → Nat → List Char
  | 0, _ => []
  | fuel + 1, n =>
    Char.ofNat (if n % 16 < 10 then '0'.toNat + n % 16 else 'a'.toNat + (n % 16 - 10))
      :: (if n < 16 then [] else hexDigitsReversed fuel (n / 16))

/-- A character inside quotes. -/
def quotedChar (c : Char) : List Char :=
  if c = '\x00' then ['\\', '0']
  else if c = '\t' then ['\\', 't']
  else if c = '\r' then ['\\', 'r']
  else if c = '\n' then ['\\', 'n']
  else if c = '"' then ['\\', '"']
  else if c = '\\' then ['\\', '\\']
  else if isShown c then [c]
  else ['\\', 'u', '\x7b'] ++ (hexDigitsReversed 6 c.toNat).reverse ++ ['\x7d']

/-- The text in quotes. -/
def quoted (s : String) : String :=
  "\"" ++ String.ofList (s.toList.flatMap quotedChar) ++ "\""

/-- The texts in quotes, as a list in brackets. -/
def quotedList (texts : List String) : String :=
  "[" ++ String.intercalate ", " (texts.map quoted) ++ "]"

end Blokwork.Text
