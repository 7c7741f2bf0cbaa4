import Blokwork.Text.Blank
import Blokwork.Text.Lines

/-!
# Reading an artifact

What an artifact declares under a name, found in its text: the lines between the braces of the
first interface of that name, and the number of lines that open a declaration of it.
-/

namespace Blokwork.Artifact

/-- The lines inside the interface of that name, without blanks at their ends. -/
def interfaceMembers? (artifact name : String) : Option (List String) := do
  let header := "export interface " ++ name ++ " \x7b\n"
  let (_, body) ← Text.splitFirst header.toList artifact.toList
  let (inside, _) ← Text.splitFirst "\n\x7d\n".toList body
  return (Text.lines (String.ofList inside)).map Text.trim

/-- The line opens a declaration of that name. -/
def opensDeclaration (name line : String) : Bool :=
  ("export interface " ++ name ++ " ").toList.isPrefixOf line.toList
    || ("export type " ++ name ++ " ").toList.isPrefixOf line.toList

/-- The number of declarations of that name. -/
def declarationCount (artifact name : String) : Nat :=
  ((Text.lines artifact).filter (opensDeclaration name)).length

end Blokwork.Artifact
