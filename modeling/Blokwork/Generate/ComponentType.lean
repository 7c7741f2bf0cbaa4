import Blokwork.Generate.FieldFragment
import Blokwork.TypeScript.Declaration

/-!
# Types of components

The schema of a component: the fragments of its data fields in order, a later one replacing an
earlier one under the same key, and then the instance identifier and the component's own name,
which no field can shadow. Both are always required.
-/

namespace Blokwork

/-- The property that identifies an instance. -/
def uidProperty : String := "_uid"

/-- The property that names the component. -/
def componentProperty : String := "component"

/-- Where a declaration comes from. -/
inductive TypeOrigin where
  | component (name : String)
  | helper (kind : FieldKind)
deriving DecidableEq, Repr

/-- A declaration with the name it declares. -/
structure GeneratedType where
  typeName : String
  origin : TypeOrigin
  declaration : String
deriving DecidableEq, Repr

/-- A component without a declaration. -/
structure ComponentFailure where
  component : String
  error : TypeScript.CompileError
deriving DecidableEq, Repr

/-- The wording of a component's failure. -/
def ComponentFailure.message (f : ComponentFailure) : String :=
  "component `" ++ f.component ++ "` failed to compile"

namespace FragmentContext

variable (ctx : FragmentContext)

/-- The properties after the fragments of some fields were put into them. -/
def propertiesFrom (properties : Dict Json) : Dict Field → Dict Json
  | [] => properties
  | (name, field) :: rest =>
    propertiesFrom (Dict.insertAll properties ((ctx.fragments name field).value.getD [])) rest

/-- What is reported about some fields. -/
def noticesOfFields (fields : Dict Field) : List Notice :=
  fields.flatMap fun (name, field) => (ctx.fragments name field).notices

end FragmentContext

/-- The helper types queued after the fragments of some fields. -/
def HelperQueue.afterFields (queue : HelperQueue) (fields : Dict Field) : HelperQueue :=
  fields.foldl (fun queue entry => queue.afterField entry.2) queue

namespace Component

/-- The names of the required properties. -/
def requiredNames (c : Component) : List String :=
  c.dataFields.foldl (fun names (name, field) =>
    if field.required then addName names name else names)
    [uidProperty, componentProperty]

/-- The properties of a component. -/
def properties (ctx : FragmentContext) (c : Component) : Dict Json :=
  Dict.insertAll (ctx.propertiesFrom [] c.dataFields)
    [(uidProperty, HelperType.typed "string"),
     (componentProperty, .obj [("type", .str "string"), ("enum", Json.strings [c.name])])]

/-- The schema of a component. -/
def objectSchema (ctx : FragmentContext) (c : Component) : Json :=
  .obj [("$id", .str ("#/" ++ c.name)), ("title", .str c.name), ("type", .str "object"),
    ("required", Json.strings c.requiredNames), ("properties", .obj (c.properties ctx))]

/-- The declaration of a component. -/
def generatedType (ctx : FragmentContext) (options : TypeScript.CompileOptions) (c : Component) :
    Except ComponentFailure GeneratedType :=
  let typeName := ctx.namer.typeName c.name
  match TypeScript.compile options typeName (c.objectSchema ctx) with
  | .ok declaration => .ok { typeName, origin := .component c.name, declaration }
  | .error error => .error { component := c.name, error }

end Component

end Blokwork
