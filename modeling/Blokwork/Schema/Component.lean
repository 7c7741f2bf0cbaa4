import Blokwork.Json.Basic

/-!
# Component schemas

A component is a named list of fields, perhaps a member of a component group. The kind of a
field says what it holds; the five *shared* kinds refer to a helper type of their own. Fields
whose name starts with the tab marker arrange the editor and carry no data.
-/

namespace Blokwork

/-- What a field holds. A kind this library does not know is kept by its name. -/
inductive FieldKind where
  | text
  | textarea
  | markdown
  | datetime
  | number
  | boolean
  | singleOption
  | multiOption
  | bloks
  | asset
  | multiasset
  | multilink
  | table
  | richtext
  | custom
  | section
  | tab
  | other (name : String)
deriving DecidableEq, Repr

namespace FieldKind

/-- The kinds that have a name of their own. -/
def named : List (String × FieldKind) :=
  [("text", .text), ("textarea", .textarea), ("markdown", .markdown), ("datetime", .datetime),
   ("number", .number), ("boolean", .boolean), ("option", .singleOption),
   ("options", .multiOption), ("bloks", .bloks), ("asset", .asset), ("multiasset", .multiasset),
   ("multilink", .multilink), ("table", .table), ("richtext", .richtext), ("custom", .custom),
   ("section", .section), ("tab", .tab)]

/-- The kind of that name. -/
def ofName (name : String) : FieldKind :=
  (Dict.get? named name).getD (.other name)

/-- The name of a kind. -/
def name : FieldKind → String
  | .text => "text"
  | .textarea => "textarea"
  | .markdown => "markdown"
  | .datetime => "datetime"
  | .number => "number"
  | .boolean => "boolean"
  | .singleOption => "option"
  | .multiOption => "options"
  | .bloks => "bloks"
  | .asset => "asset"
  | .multiasset => "multiasset"
  | .multilink => "multilink"
  | .table => "table"
  | .richtext => "richtext"
  | .custom => "custom"
  | .section => "section"
  | .tab => "tab"
  | .other name => name

/-- The kinds that refer to a helper type, which is declared once. -/
def isShared : FieldKind → Bool
  | .asset | .multiasset | .multilink | .table | .richtext => true
  | _ => false

/-- The kind is one this library does not know. -/
def isOther : FieldKind → Bool
  | .other _ => true
  | _ => false

end FieldKind

/-- One of the choices of an option field. -/
structure FieldOption where
  name : String
  value : String
deriving DecidableEq, Repr

/-- A field of a component. -/
structure Field where
  kind : FieldKind
  required : Bool := false
  /-- Only some components may stand in the field. -/
  restrictComponents : Bool := false
  /-- How they are named: `groups` for component groups, anything else for components. -/
  restrictType : Option String := none
  componentWhitelist : List String := []
  componentGroupWhitelist : List String := []
  emailLinkType : Bool := false
  assetLinkType : Bool := false
  /-- The choices of an option field. -/
  options : List FieldOption := []
  /-- Where the choices come from instead. -/
  source : Option String := none
  /-- The plugin of a custom field. -/
  fieldType : Option String := none
  description : Option String := none
  /-- Attributes without a meaning here, in order. -/
  extra : Dict Json := []
deriving DecidableEq, Repr

namespace Field

/-- The components allowed are named by their groups. -/
def restrictsToGroups (f : Field) : Bool := f.restrictType = some "groups"

/-- The values of the choices, when they are listed in the field itself. -/
def staticOptions? (f : Field) : Option (List String) :=
  if f.source.isSome || f.options.isEmpty then none else some (f.options.map (·.value))

end Field

/-- A component: its fields in the order of the schema. -/
structure Component where
  name : String
  group : Option String := none
  fields : Dict Field := []
deriving DecidableEq, Repr

/-- The start of the names of editor tabs. -/
def tabMarker : String := "tab-"

/-- The field carries data. -/
def isDataField (name : String) : Bool := !tabMarker.toList.isPrefixOf name.toList

/-- The fields that carry data. -/
def Component.dataFields (c : Component) : Dict Field :=
  c.fields.filter fun entry => isDataField entry.1

end Blokwork
