import Blokwork.TypeScript.CompileError
import Blokwork.TypeScript.TypeExpr

/-!
# Types of schemas

The type that a JSON schema describes. Of the keywords of a node the first present in the
order `tsType`, `const`, `enum`, `anyOf`, `oneOf`, `allOf`, `type`, `properties`, `items`
decides what the node is; a node without any is untyped. The first broken rule met on the way
is the error, with its place.
-/

namespace Blokwork.TypeScript

/-- How declarations are written. -/
structure CompileOptions where
  /-- Objects that do not say otherwise admit further keys. -/
  additionalProperties : Bool := true
  /-- Text placed above every declaration. -/
  bannerComment : Option String := none
  /-- Spaces for each nesting level. -/
  indent : Nat := 2
  /-- An untyped node is `any` instead of `unknown`. -/
  unknownAny : Bool := false
deriving DecidableEq, Repr

/-- The type of a node that says nothing. -/
def CompileOptions.untyped (options : CompileOptions) : TypeExpr :=
  .keyword (if options.unknownAny then "any" else "unknown")

/-- The type without values. -/
def TypeExpr.never : TypeExpr := .keyword "never"

/-- The description of a node: its text without blanks at the ends, unless nothing is left. -/
def description? (node : Dict Json) : Option String :=
  match Dict.get? node "description" with
  | some (.str text) =>
    let text := Text.trim text
    if text.isEmpty then none else some text
  | _ => none

/-- The names a list of required properties holds. -/
def requiredNames (path : SchemaPath) : List Json → Except CompileError (List String)
  | [] => .ok []
  | .str name :: rest => (requiredNames path rest).map (name :: ·)
  | _ :: _ => .error (.malformed path .requiredNotNames)

/-- The names of the properties that a node requires. -/
def requiredOf (path : SchemaPath) (node : Dict Json) : Except CompileError (List String) :=
  let path := path ++ [.key "required"]
  match Dict.get? node "required" with
  | none => .ok []
  | some (.arr names) => requiredNames path names
  | some _ => .error (.malformed path .requiredNotArray)

/-- A union of the alternatives, the empty type when there are none. -/
def TypeExpr.oneOf : List TypeExpr → TypeExpr
  | [] => .never
  | members => .union members

/-- An intersection of the parts, the empty type when there are none. -/
def TypeExpr.allOf : List TypeExpr → TypeExpr
  | [] => .never
  | members => .intersection members

/-- A type name that needs nothing else from its node. -/
def plainType? (name : String) : Option TypeExpr :=
  if name = "string" then some (.keyword "string")
  else if name = "number" ∨ name = "integer" then some (.keyword "number")
  else if name = "boolean" then some (.keyword "boolean")
  else if name = "null" then some (.keyword "null")
  else if name = "any" then some (.keyword "any")
  else none

/-- A member of a dictionary is smaller than the dictionary. -/
theorem sizeOf_lt_of_get? {d : Dict Json} {key : String} {v : Json}
    (h : Dict.get? d key = some v) : sizeOf v < sizeOf d := by
  induction d with
  | nil => simp at h
  | cons e rest ih =>
    obtain ⟨k, w⟩ := e
    rw [Dict.get?_cons] at h
    split at h
    · simp only [Option.some.injEq] at h
      subst h
      simp only [List.cons.sizeOf_spec, Prod.mk.sizeOf_spec]
      omega
    · have := ih h
      simp only [List.cons.sizeOf_spec]
      omega

/-- The types of a list of type names, each through `ofName`; `start` names came before. -/
def typesOfNames (path : SchemaPath) (ofName : String → Except CompileError TypeExpr) :
    (start : Nat) → List Json → Except CompileError (List TypeExpr)
  | _, [] => .ok []
  | start, .str name :: rest => do
    let type ← ofName name
    let types ← typesOfNames path ofName (start + 1) rest
    return type :: types
  | start, _ :: _ => .error (.malformed (path ++ [.key "type", .index start]) .typeNameNotString)

mutual

/-- The type of any schema: `true` admits every value, `false` none. -/
def typeOf (options : CompileOptions) (path : SchemaPath) (schema : Json) :
    Except CompileError TypeExpr :=
  match schema with
  | .bool true => .ok options.untyped
  | .bool false => .ok .never
  | .obj node => typeOfNode options path node
  | other => .error (.malformed path (.notASchema other))
termination_by (sizeOf schema, 0)

/-- The type of a schema object. -/
def typeOfNode (options : CompileOptions) (path : SchemaPath) (node : Dict Json) :
    Except CompileError TypeExpr :=
  match Dict.get? node "tsType" with
  | some (.str text) => .ok (.verbatim text)
  | some _ => .error (.malformed (path ++ [.key "tsType"]) .tsTypeNotString)
  | none =>
  match Dict.get? node "const" with
  | some value => .ok (.literal value)
  | none =>
  match Dict.get? node "enum" with
  | some (.arr values) => .ok (.oneOf (values.map .literal))
  | some _ => .error (.malformed (path ++ [.key "enum"]) .enumNotArray)
  | none =>
  match _h : Dict.get? node "anyOf" with
  | some members => (typesOfListed options (path ++ [.key "anyOf"]) members).map .oneOf
  | none =>
  match _h : Dict.get? node "oneOf" with
  | some members => (typesOfListed options (path ++ [.key "oneOf"]) members).map .oneOf
  | none =>
  match _h : Dict.get? node "allOf" with
  | some members => (typesOfListed options (path ++ [.key "allOf"]) members).map .allOf
  | none =>
  match Dict.get? node "type" with
  | some (.str name) => typeOfName options path node name
  | some (.arr names) =>
    (typesOfNames path (fun name => typeOfName options path node name) 0 names).map .union
  | some _ => .error (.malformed (path ++ [.key "type"]) .typeNotNames)
  | none =>
    if Dict.has node "properties" then typeOfObject options path node
    else if Dict.has node "items" then typeOfArray options path node
    else .ok options.untyped
termination_by (sizeOf node, 3)
decreasing_by
  all_goals
    try have := sizeOf_lt_of_get? _h
    omega

/-- The type that a type name gives to its node. -/
def typeOfName (options : CompileOptions) (path : SchemaPath) (node : Dict Json) (name : String) :
    Except CompileError TypeExpr :=
  match plainType? name with
  | some type => .ok type
  | none =>
    if name = "array" then typeOfArray options path node
    else if name = "object" then typeOfObject options path node
    else .error (.unsupportedType (path ++ [.key "type"]) name)
termination_by (sizeOf node, 2)

/-- The types of the schemas listed under a combining keyword. -/
def typesOfListed (options : CompileOptions) (path : SchemaPath) (schemas : Json) :
    Except CompileError (List TypeExpr) :=
  match schemas with
  | .arr members => typesOf options path 0 members
  | _ => .error (.malformed path .alternativesNotArray)
termination_by (sizeOf schemas, 0)

/-- The types of a list of schemas, of which `start` came before. -/
def typesOf (options : CompileOptions) (path : SchemaPath) (start : Nat) (schemas : List Json) :
    Except CompileError (List TypeExpr) :=
  match schemas with
  | [] => .ok []
  | schema :: rest => do
    let type ← typeOf options (path ++ [.index start]) schema
    let types ← typesOf options path (start + 1) rest
    return type :: types
termination_by (sizeOf schemas, 0)

/-- The type of a node that is an array: a tuple when `items` is a list. -/
def typeOfArray (options : CompileOptions) (path : SchemaPath) (node : Dict Json) :
    Except CompileError TypeExpr :=
  match _h : Dict.get? node "items" with
  | none => .ok (.array options.untyped)
  | some (.arr items) => (typesOf options (path ++ [.key "items"]) 0 items).map .tuple
  | some item => (typeOf options (path ++ [.key "items"]) item).map .array
termination_by (sizeOf node, 0)
decreasing_by
  · have := sizeOf_lt_of_get? _h
    simp at this ⊢
    omega
  · exact Prod.Lex.left _ _ (sizeOf_lt_of_get? _h)

/-- The type of a node that is an object: its properties in order, and the type of further
keys when it admits them. -/
def typeOfObject (options : CompileOptions) (path : SchemaPath) (node : Dict Json) :
    Except CompileError TypeExpr := do
  let properties ← propertiesOf options path node
  let index ← indexOf options path node
  return .object properties index
termination_by (sizeOf node, 1)

/-- The properties of a node that is an object. -/
def propertiesOf (options : CompileOptions) (path : SchemaPath) (node : Dict Json) :
    Except CompileError (List (PropertyHead × TypeExpr)) :=
  match _h : Dict.get? node "properties" with
  | none => (requiredOf path node).map fun _ => []
  | some (.obj properties) => do
    let required ← requiredOf path node
    typesOfProperties options path required properties
  | some _ => .error (.malformed (path ++ [.key "properties"]) .propertiesNotObject)
termination_by (sizeOf node, 0)
decreasing_by
  have := sizeOf_lt_of_get? _h
  simp at this ⊢
  omega

/-- The type of the further keys of a node that is an object. -/
def indexOf (options : CompileOptions) (path : SchemaPath) (node : Dict Json) :
    Except CompileError (Option TypeExpr) :=
  let path := path ++ [.key "additionalProperties"]
  match _h : Dict.get? node "additionalProperties" with
  | none => .ok (if options.additionalProperties then some (.keyword "any") else none)
  | some (.bool false) => .ok none
  | some (.bool true) => .ok (some (.keyword "any"))
  | some (.obj schema) => (typeOfNode options path schema).map some
  | some _ => .error (.malformed path .additionalPropertiesNotSchema)
termination_by (sizeOf node, 0)
decreasing_by
  have := sizeOf_lt_of_get? _h
  simp at this ⊢
  omega

/-- The properties of an object, each with the type of its schema. -/
def typesOfProperties (options : CompileOptions) (path : SchemaPath) (required : List String)
    (properties : List (String × Json)) :
    Except CompileError (List (PropertyHead × TypeExpr)) :=
  match properties with
  | [] => .ok []
  | (key, schema) :: rest => do
    let type ← typeOf options (path ++ [.key "properties", .key key]) schema
    let types ← typesOfProperties options path required rest
    let head := ⟨key, schema.members?.bind description?, !required.contains key⟩
    return (head, type) :: types
termination_by (sizeOf properties, 0)

end

end Blokwork.TypeScript
