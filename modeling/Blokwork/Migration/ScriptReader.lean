import Blokwork.Json.Record
import Blokwork.Migration.Script

/-!
# Reading operations

An operation is an object whose `op` names it, next to its arguments, or an array of its name
and its arguments in order. The name is looked at first, wherever it stands; the arguments are
then taken in their order, and a key that is no argument is refused.
-/

namespace Blokwork

namespace ScriptOp

variable {α : Type} [Datum α]

/-- The arguments of an operation as they are read. -/
structure Draft where
  field : Option String := none
  value : Json := .null
  newName : String := ""
deriving DecidableEq, Repr

/-- What an operation is made of: its name as a variant, its arguments in order, and how they
make an operation. -/
structure Form (α : Type) where
  name : String
  variant : String
  arguments : List (RecordField α Draft)
  make : Draft → ScriptOp

/-- The argument that names a field. -/
def fieldArgument : RecordField α Draft :=
  ⟨"field", false, fun a d => return { d with field := ← Datum.asOption Datum.asString a }⟩

/-- The argument that is written; `toJson` turns it into content. -/
def valueArgument (toJson : α → Json) : RecordField α Draft :=
  ⟨"value", true, fun a d => return { d with value := toJson a }⟩

/-- The argument that is a new name. -/
def toArgument : RecordField α Draft :=
  ⟨"to", true, fun a d => return { d with newName := ← Datum.asString a }⟩

/-- The operations. -/
def forms (toJson : α → Json) : List (Form α) := [
  ⟨"set", "Set", [fieldArgument, valueArgument toJson], fun d => .set d.field d.value⟩,
  ⟨"remove", "Remove", [fieldArgument], fun d => .remove d.field⟩,
  ⟨"rename", "Rename", [fieldArgument, toArgument], fun d => .rename d.field d.newName⟩,
  ⟨"default", "Default", [fieldArgument, valueArgument toJson],
    fun d => .default d.field d.value⟩,
  ⟨"wrap_in_array", "WrapInArray", [fieldArgument], fun d => .wrapInArray d.field⟩]

/-- The operation that a value names. -/
def formOf (toJson : α → Json) (tag : α) : Shaped (Form α) :=
  match Datum.found tag with
  | .text name =>
    match (forms toJson).find? fun f => f.name = name with
    | some f => .ok f
    | none => .error (.unknownVariant name ((forms toJson).map (·.name)))
  | _ => Datum.unexpected tag "variant identifier"

/-- A number of elements. -/
def elementCount (n : Nat) : String :=
  n.repr ++ (if n = 1 then " element" else " elements")

/-- Reads the arguments of an operation from the members next to its name. -/
def Form.ofMembers (form : Form α) (members : Dict α) : Shaped ScriptOp := do
  let draft ← members.foldlM (fun draft (key, a) =>
    match form.arguments.find? fun f => f.name = key with
    | some f => f.enter a draft
    | none => .error (.unknownField key (form.arguments.map (·.name)))) ({} : Draft)
  match form.arguments.find? fun f => f.required && !Dict.has members f.name with
  | some f => .error (.missingField f.name)
  | none => return form.make draft

/-- Enters items into arguments in order; `position` items came before. -/
def enterArguments (form : Form α) (position : Nat) (draft : Draft) :
    List (RecordField α Draft) → List α → Shaped Draft
  | [], [] => .ok draft
  | [], rest =>
    .error (.wrongLength (position + rest.length) (elementCount position ++ " in sequence"))
  | _ :: _, [] =>
    .error (.wrongLength position
      ("struct variant ScriptOp::" ++ form.variant ++ " with "
        ++ elementCount form.arguments.length))
  | f :: fields, a :: rest => do
    let draft ← f.enter a draft
    enterArguments form (position + 1) draft fields rest

/-- Reads an operation. -/
def ofDatum (toJson : α → Json) (a : α) : Shaped ScriptOp :=
  match Datum.found a with
  | .map =>
    match Dict.get? (Datum.members a) "op" with
    | none => .error (.missingField "op")
    | some tag => do
      let form ← formOf toJson tag
      form.ofMembers (Dict.erase (Datum.members a) "op")
  | .sequence =>
    match Datum.items a with
    | [] => .error (.missingField "op")
    | tag :: rest => do
      let form ← formOf toJson tag
      return form.make (← enterArguments form 0 {} form.arguments rest)
  | _ => Datum.unexpected a "internally tagged enum ScriptOp"

/-- Reads a list of operations. -/
def listOf (toJson : α → Json) (a : α) : Shaped (List ScriptOp) :=
  Datum.asList (ofDatum toJson) a

/-- Reads a list of operations from a JSON value. -/
def listOfJson (j : Json) : Shaped (List ScriptOp) := listOf id j

end ScriptOp

end Blokwork
