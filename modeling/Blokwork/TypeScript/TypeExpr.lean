import Blokwork.Json.Printer
import Blokwork.TypeScript.Comment
import Blokwork.TypeScript.Identifier

/-!
# Type expressions

`TypeExpr` is the tree of a type, `TypeExpr.print` its text. Alternatives are separated by
`|` and combined parts by `&`; an array writes its item in parentheses when the item's text
shows one of the two separators, an intersection its members when they show the first. An
object is a block with one property to a line, each behind its documentation comment.
-/

namespace Blokwork.TypeScript

/-- What is known of an object property besides its type. -/
structure PropertyHead where
  key : String
  description : Option String
  optional : Bool
deriving DecidableEq, Repr

/-- The tree of a type. -/
inductive TypeExpr where
  /-- A type that is one word, such as `string`. -/
  | keyword (word : String)
  /-- The type of one value. -/
  | literal (value : Json)
  /-- Text taken as it is. -/
  | verbatim (text : String)
  | union (members : List TypeExpr)
  | intersection (members : List TypeExpr)
  | array (item : TypeExpr)
  | tuple (items : List TypeExpr)
  /-- Properties in order, and the type of further keys. -/
  | object (properties : List (PropertyHead × TypeExpr)) (index : Option TypeExpr)
deriving Repr

namespace TypeExpr

/-- The separator of alternatives. -/
def orSeparator : String := " | "

/-- The separator of combined parts. -/
def andSeparator : String := " & "

/-- The indent of a nesting level: `width` spaces for each level. -/
def pad (width level : Nat) : String :=
  String.ofList (List.replicate (width * level) ' ')

/-- A property key: quoted unless it is an identifier. -/
def propertyKey (key : String) : String :=
  if isIdentifier key then key else Json.quote key

/-- An array of the printed item. -/
def printArray (item : String) : String :=
  if Text.contains item orSeparator || Text.contains item andSeparator then "(" ++ item ++ ")[]"
  else item ++ "[]"

/-- A printed member of an intersection. -/
def printPart (member : String) : String :=
  if Text.contains member orSeparator then "(" ++ member ++ ")" else member

/-- A property line with the comment above it. -/
def printProperty (pad : String) (head : PropertyHead) (type : String) : String :=
  (match head.description with
    | some text => docComment text pad
    | none => "")
  ++ pad ++ propertyKey head.key ++ (if head.optional then "?" else "") ++ ": " ++ type ++ ";\n"

/-- The line for keys that have no property of their own. -/
def printIndex (pad type : String) : String :=
  pad ++ "[k: string]: " ++ type ++ ";\n"

/-- The lines of an object in braces; an object without lines is closed at once. -/
def printBlock (lines closing : String) : String :=
  if lines.isEmpty then "\x7b\x7d" else "\x7b\n" ++ lines ++ closing ++ "\x7d"

mutual

/-- The text of a type at nesting level `level`, with `width` spaces for each level. -/
def print (width level : Nat) : TypeExpr → String
  | .keyword word => word
  | .literal value => value.compact
  | .verbatim text => text
  | .union members => String.intercalate orSeparator (printAll width level members)
  | .intersection members =>
    String.intercalate andSeparator ((printAll width level members).map printPart)
  | .array item => printArray (print width level item)
  | .tuple items => "[" ++ String.intercalate ", " (printAll width level items) ++ "]"
  | .object properties index =>
    printBlock
      (String.join (printProperties width (level + 1) properties)
        ++ (match index with
            | some type => printIndex (pad width (level + 1)) (print width (level + 1) type)
            | none => ""))
      (pad width level)

/-- The texts of several types. -/
def printAll (width level : Nat) : List TypeExpr → List String
  | [] => []
  | t :: ts => print width level t :: printAll width level ts

/-- The lines of several properties. -/
def printProperties (width level : Nat) : List (PropertyHead × TypeExpr) → List String
  | [] => []
  | (head, type) :: rest =>
    printProperty (pad width level) head (print width level type)
      :: printProperties width level rest

end

end TypeExpr

end Blokwork.TypeScript
