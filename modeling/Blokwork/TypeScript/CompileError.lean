import Blokwork.Json.Basic

/-!
# Compile errors

Why a schema has no declaration: the name is no identifier, or some place of the schema breaks
a rule. A place is a path of keys and indices from the schema's root, written with a slash
before each step behind `#`.
-/

namespace Blokwork.TypeScript

/-- One step into a value: a key of an object or an index of an array. -/
inductive PathStep where
  | key (name : String)
  | index (position : Nat)
deriving DecidableEq, Repr

/-- The text of a step. -/
def PathStep.text : PathStep → String
  | .key name => name
  | .index position => position.repr

/-- A place in a schema, as the steps that lead to it from the root. -/
abbrev SchemaPath := List PathStep

/-- The text of a place. -/
def SchemaPath.text (path : SchemaPath) : String :=
  "#" ++ String.join (path.map fun step => "/" ++ step.text)

/-- The rules that a place of a schema can break. -/
inductive Malformation where
  | rootNotObject
  | notASchema (found : Json)
  | tsTypeNotString
  | enumNotArray
  | typeNameNotString
  | typeNotNames
  | alternativesNotArray
  | propertiesNotObject
  | requiredNotNames
  | requiredNotArray
  | additionalPropertiesNotSchema
deriving DecidableEq, Repr

/-- What kind of value a place holds, with its article. -/
def kindWithArticle : Json → String
  | .null => "null"
  | .bool _ => "a boolean"
  | .num _ => "a number"
  | .str _ => "a string"
  | .arr _ => "an array"
  | .obj _ => "an object"

/-- The wording of a broken rule. -/
def Malformation.message : Malformation → String
  | .rootNotObject => "schema must be an object"
  | .notASchema found => "expected a schema object, found " ++ kindWithArticle found
  | .tsTypeNotString => "tsType must be a string"
  | .enumNotArray => "enum must be an array"
  | .typeNameNotString => "type must be a string"
  | .typeNotNames => "type must be a string or an array of strings"
  | .alternativesNotArray => "expected an array of schemas"
  | .propertiesNotObject => "properties must be an object"
  | .requiredNotNames => "required must list property names"
  | .requiredNotArray => "required must be an array"
  | .additionalPropertiesNotSchema => "additionalProperties must be a boolean or a schema"

/-- Why a schema has no declaration. -/
inductive CompileError where
  | invalidName (name : String)
  | unsupportedType (path : SchemaPath) (name : String)
  | malformed (path : SchemaPath) (rule : Malformation)
deriving DecidableEq, Repr

/-- The wording of a compile error. -/
def CompileError.message : CompileError → String
  | .invalidName name => "invalid type name `" ++ name ++ "`"
  | .unsupportedType path name => path.text ++ ": unsupported type `" ++ name ++ "`"
  | .malformed path rule => path.text ++ ": " ++ rule.message

end Blokwork.TypeScript
