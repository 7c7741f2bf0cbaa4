import Blokwork.Json.Record
import Blokwork.Schema.Component
import Blokwork.Text.Blank

/-!
# Components as JSON

Reading components, fields and choices from JSON values and writing them back. Exports write
`null` where a flag or a list was never set, and an empty text where a name was; both count as
absence. What is absent or empty is left out when a field is written, the flags excepted.
-/

namespace Blokwork

namespace Json

/-- A string; `null` and a blank text are absence. -/
def asNamed (j : Json) : Shaped (Option String) :=
  (Datum.asOption Datum.asString j).map fun s => s.filter (!Text.isBlank ·)

/-- A boolean; `null` is false. -/
def asFlag (j : Json) : Shaped Bool := Datum.orDefault false Datum.asBool j

/-- A list; `null` is the empty list. -/
def asItems {β : Type} (item : Json → Shaped β) (j : Json) : Shaped (List β) :=
  Datum.orDefault [] (Datum.asList item) j

/-- A string, number or boolean as text; `null` is the empty text. -/
def asScalarText (j : Json) : Shaped String :=
  match j with
  | .null => .ok ""
  | .str s => .ok s
  | .num n => .ok n.text
  | .bool b => .ok (if b then "true" else "false")
  | other => .error (.notScalar other)

end Json

namespace FieldKind

/-- A kind is its name. -/
def ofJson (j : Json) : Shaped FieldKind := (Datum.asString j).map ofName

/-- The name of the kind. -/
def toJson (k : FieldKind) : Json := .str k.name

end FieldKind

namespace FieldOption

/-- The fields of a choice. -/
def shape : RecordShape Json FieldOption where
  title := "struct FieldOption"
  fields := [
    ⟨"name", false, fun j o => return { o with name := ← j.asScalarText }⟩,
    ⟨"value", false, fun j o => return { o with value := ← j.asScalarText }⟩]

/-- Reads a choice; what is absent is empty. -/
def ofJson (j : Json) : Shaped FieldOption := shape.read ⟨"", ""⟩ j

/-- The choice as an object. -/
def toJson (o : FieldOption) : Json := .obj [("name", .str o.name), ("value", .str o.value)]

end FieldOption

namespace Field

/-- The attributes of a field that have a meaning. -/
def shape : RecordShape Json Field where
  title := "struct FieldDescriptor"
  fields := [
    ⟨"type", true, fun j f => return { f with kind := ← FieldKind.ofJson j }⟩,
    ⟨"required", false, fun j f => return { f with required := ← j.asFlag }⟩,
    ⟨"restrict_components", false, fun j f => return { f with restrictComponents := ← j.asFlag }⟩,
    ⟨"restrict_type", false, fun j f => return { f with restrictType := ← j.asNamed }⟩,
    ⟨"component_whitelist", false,
      fun j f => return { f with componentWhitelist := ← j.asItems Datum.asString }⟩,
    ⟨"component_group_whitelist", false,
      fun j f => return { f with componentGroupWhitelist := ← j.asItems Datum.asString }⟩,
    ⟨"email_link_type", false, fun j f => return { f with emailLinkType := ← j.asFlag }⟩,
    ⟨"asset_link_type", false, fun j f => return { f with assetLinkType := ← j.asFlag }⟩,
    ⟨"options", false, fun j f => return { f with options := ← j.asItems FieldOption.ofJson }⟩,
    ⟨"source", false, fun j f => return { f with source := ← j.asNamed }⟩,
    ⟨"field_type", false, fun j f => return { f with fieldType := ← j.asNamed }⟩,
    ⟨"description", false, fun j f => return { f with description := ← j.asNamed }⟩]

/-- Reads a field from an object; attributes without a meaning are kept as they are. -/
def ofJson (j : Json) : Shaped Field :=
  match j with
  | .obj members => do
    let f ← shape.readMembers { kind := .other "" } members
    return { f with extra := members.filter fun m => (shape.field? m.1).isNone }
  | _ => Datum.unexpected j shape.title

/-- A member that is left out when there is no value. -/
def optionalMember (key : String) (value : Option String) : List (String × Json) :=
  match value with
  | none => []
  | some s => [(key, .str s)]

/-- A member that is left out when the list is empty. -/
def listMember (key : String) (items : List Json) : List (String × Json) :=
  if items.isEmpty then [] else [(key, .arr items)]

/-- The field as an object: its attributes in order, then the ones without a meaning. -/
def toJson (f : Field) : Json :=
  .obj (
    [("type", f.kind.toJson), ("required", .bool f.required),
     ("restrict_components", .bool f.restrictComponents)]
    ++ optionalMember "restrict_type" f.restrictType
    ++ listMember "component_whitelist" (f.componentWhitelist.map .str)
    ++ listMember "component_group_whitelist" (f.componentGroupWhitelist.map .str)
    ++ [("email_link_type", .bool f.emailLinkType), ("asset_link_type", .bool f.assetLinkType)]
    ++ listMember "options" (f.options.map FieldOption.toJson)
    ++ optionalMember "source" f.source
    ++ optionalMember "field_type" f.fieldType
    ++ optionalMember "description" f.description
    ++ f.extra)

end Field

namespace Component

/-- The fields of a component's record. -/
def shape : RecordShape Json Component where
  title := "struct ComponentSchema"
  fields := [
    ⟨"name", true, fun j c => return { c with name := ← Datum.asString j }⟩,
    ⟨"component_group_uuid", false, fun j c => return { c with group := ← j.asNamed }⟩,
    ⟨"schema", false,
      fun j c => return { c with fields := ← Datum.orDefault [] (Datum.asDict Field.ofJson) j }⟩]

/-- Reads a component. -/
def ofJson (j : Json) : Shaped Component := shape.read { name := "" } j

/-- The component as an object. -/
def toJson (c : Component) : Json :=
  .obj ([("name", .str c.name)]
    ++ Field.optionalMember "component_group_uuid" c.group
    ++ [("schema", .obj (c.fields.map fun (k, f) => (k, f.toJson)))])

end Component

end Blokwork
