import Blokwork.Text.Blank
import Blokwork.Text.Lines

/-!
# Documentation comments

A description becomes one block comment with a line for each line of the text. Inside it the
sequence that would close the comment is broken by a backslash.
-/

namespace Blokwork.TypeScript

/-- The text with a backslash inside every sequence that closes a comment. -/
def escapeClosers : List Char → List Char
  | '*' :: '/' :: rest => '*' :: '\\' :: '/' :: escapeClosers rest
  | c :: rest => c :: escapeClosers rest
  | [] => []

/-- One line of a comment, behind the indent `pad`. -/
def commentLine (pad line : String) : String :=
  let line := String.ofList (escapeClosers line.toList)
  if Text.isBlank line then pad ++ " *\n" else pad ++ " * " ++ line ++ "\n"

/-- The text as a block comment, every line behind the indent `pad`. -/
def docComment (text pad : String) : String :=
  pad ++ "/**\n" ++ String.join ((Text.lines text).map (commentLine pad)) ++ pad ++ " */\n"

end Blokwork.TypeScript
