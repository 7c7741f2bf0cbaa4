import Blokwork.Failure
import Blokwork.Schema.Component

/-!
# Types of custom fields

A custom field gets its property fragments from a `CustomTypes` function of the caller, or
from a table of one schema fragment for each plugin. The entry `*` of a table stands for every
plugin without an entry of its own.
-/

namespace Blokwork

/-- The property fragments of a custom field, given its name; `none` drops the field. -/
abbrev CustomTypes := String → Field → Option (Dict Json)

/-- Schema fragments by plugin. -/
structure PluginTable where
  fragments : Dict Json
deriving DecidableEq, Repr

namespace PluginTable

/-- The entry for plugins without an entry of their own. -/
def fallback : String := "*"

/-- The first entry that is no schema object. -/
def misfit? (entries : Dict Json) : Option String :=
  (entries.find? fun e => e.2.members?.isNone).map Prod.fst

/-- Reads a table from an object with one schema object for each plugin. -/
def ofJson (j : Json) : Except Failure PluginTable :=
  match j with
  | .obj entries =>
    match misfit? entries with
    | none => .ok ⟨entries⟩
    | some plugin =>
      .error (.ofMessage ("custom field type `" ++ plugin ++ "` must map to a JSON schema object"))
  | _ => .error (.ofMessage "custom field types must be a JSON object keyed by plugin id")

/-- The number of entries. -/
def size (table : PluginTable) : Nat := table.fragments.length

/-- The fragment for a custom field. -/
def fragment? (table : PluginTable) (field : Field) : Option Json :=
  (field.fieldType.bind (Dict.get? table.fragments)).or (Dict.get? table.fragments fallback)

/-- The types that a table gives to custom fields. -/
def types (table : PluginTable) : CustomTypes := fun name field =>
  (table.fragment? field).map fun fragment => [(name, fragment)]

end PluginTable

end Blokwork
