/-!
# Identifiers

The names that may stand for a type in a declaration: a letter, `_` or `$`, followed by
letters, digits, `_` and `$`, all of them ASCII.
-/

namespace Blokwork.TypeScript

/-- A character an identifier may start with. -/
def isIdentifierStart (c : Char) : Bool := c.isAlpha || c = '_' || c = '$'

/-- A character an identifier may go on with. -/
def isIdentifierPart (c : Char) : Bool := c.isAlphanum || c = '_' || c = '$'

/-- The text can name a type. -/
def isIdentifier (name : String) : Bool :=
  match name.toList with
  | [] => false
  | c :: rest => isIdentifierStart c && rest.all isIdentifierPart

end Blokwork.TypeScript
