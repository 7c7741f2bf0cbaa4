import Blokwork.TypeScript.OfSchema

/-!
# Declarations

One schema becomes one declaration: an interface when the schema is an object that no other
keyword overrides, a type alias otherwise. Above it stand the banner and the schema's own
description, below it a line feed.
-/

namespace Blokwork.TypeScript

/-- The form of a declaration. -/
inductive DeclarationForm where
  | interfaceForm
  | aliasForm
deriving DecidableEq, Repr

/-- A declaration before it is written. -/
structure Declaration where
  name : String
  banner : Option String
  description : Option String
  form : DeclarationForm
  body : TypeExpr
deriving Repr

/-- The lines of a declaration, with `width` spaces for each nesting level. -/
def Declaration.print (width : Nat) (d : Declaration) : String :=
  (match d.banner with
    | some text => Text.trimEnd text ++ "\n"
    | none => "")
  ++ (match d.description with
    | some text => docComment text ""
    | none => "")
  ++ (match d.form with
    | .interfaceForm => "export interface " ++ d.name ++ " " ++ d.body.print width 0 ++ "\n"
    | .aliasForm => "export type " ++ d.name ++ " = " ++ d.body.print width 0 ++ ";\n")

/-- The keywords that take precedence over the properties of a node. -/
def overridingKeywords : List String := ["tsType", "enum", "const", "anyOf", "oneOf", "allOf"]

/-- The node describes an object by its properties alone. -/
def isObjectNode (node : Dict Json) : Bool :=
  !overridingKeywords.any (Dict.has node) &&
    match Dict.get? node "type" with
    | some (.str name) => name = "object"
    | none => Dict.has node "properties"
    | some _ => false

/-- The declaration of a schema under a name. -/
def declare (options : CompileOptions) (name : String) (schema : Json) :
    Except CompileError Declaration :=
  if !isIdentifier name then .error (.invalidName name)
  else
    match schema with
    | .obj node => do
      let form := if isObjectNode node then .interfaceForm else .aliasForm
      let body ←
        if isObjectNode node then typeOfObject options [] node else typeOf options [] schema
      return {
        name, form, body
        banner := options.bannerComment.filter (!Text.isBlank ·)
        description := description? node }
    | _ => .error (.malformed [] .rootNotObject)

/-- The text of the declaration of a schema under a name. -/
def compile (options : CompileOptions) (name : String) (schema : Json) :
    Except CompileError String :=
  (declare options name schema).map (Declaration.print options.indent)

end Blokwork.TypeScript
