import Blokwork.Generate.TypeName
import Blokwork.Schema.Component

/-!
# Helper types

The schemas of the types that fields of a shared kind refer to. Each is declared once, before
the first component that needs it; a list of assets needs the type of an asset first.
-/

namespace Blokwork.HelperType

/-- A schema with a type name. -/
def typed (name : String) : Json := .obj [("type", .str name)]

/-- A schema of a type or `null`. -/
def nullable (name : String) : Json := .obj [("type", Json.strings [name, "null"])]

/-- A schema of one of some texts. -/
def oneOfTexts (texts : List String) : Json := .obj [("enum", Json.strings texts)]

/-- A schema given by the text of its type. -/
def verbatim (text : String) : Json := .obj [("tsType", .str text)]

/-- A schema of an object with properties, some of them required. -/
def object (required : List String) (properties : List (String × Json)) : Json :=
  .obj [("type", .str "object"), ("required", Json.strings required),
    ("properties", .obj properties)]

/-- A schema of an object whose properties are all optional. -/
def looseObject (properties : List (String × Json)) : Json :=
  .obj [("type", .str "object"), ("properties", .obj properties)]

/-- A schema of an array. -/
def arrayOf (item : Json) : Json := .obj [("type", .str "array"), ("items", item)]

/-- The schema of an asset. -/
def asset : Json :=
  object ["id", "filename", "name"]
    [("alt", nullable "string"), ("copyright", nullable "string"),
     ("fieldtype", oneOfTexts ["asset"]), ("id", typed "number"),
     ("filename", nullable "string"), ("name", typed "string"), ("title", nullable "string"),
     ("focus", nullable "string"), ("meta_data", typed "object"), ("source", nullable "string"),
     ("is_external_url", typed "boolean"), ("is_private", typed "boolean"),
     ("src", typed "string"), ("updated_at", typed "string"), ("width", nullable "number"),
     ("height", nullable "number"), ("aspect_ratio", nullable "number"),
     ("public_id", nullable "string"), ("content_type", typed "string")]

/-- Where a link opens. -/
def linkTarget : Json := oneOfTexts ["_self", "_blank"]

/-- The schema of a link. The link type is optional in every variant, so that excluding one
value of it removes exactly one variant. -/
def multilink : Json :=
  let fieldType := ("fieldtype", oneOfTexts ["multilink"])
  let text (key : String) := (key, typed "string")
  .obj [("oneOf", .arr [
    looseObject
      [fieldType, text "id", text "url", text "cached_url", ("target", linkTarget),
       text "anchor", text "rel", text "title", text "prep", ("linktype", oneOfTexts ["story"]),
       ("story", verbatim "StoryblokStory<any>")],
    looseObject
      [fieldType, text "id", text "url", text "cached_url", ("target", linkTarget), text "rel",
       text "title", ("linktype", oneOfTexts ["url"])],
    looseObject
      [fieldType, text "email", ("target", linkTarget), ("linktype", oneOfTexts ["email"])],
    looseObject
      [fieldType, text "id", text "url", text "cached_url", ("target", linkTarget),
       ("linktype", oneOfTexts ["asset"])]])]

/-- The schema of a table cell of one kind. -/
def tableCell (component : String) : Json :=
  object ["_uid", "component"]
    [("_uid", typed "string"), ("value", typed "string"),
     ("component", oneOfTexts [component])]

/-- The schema of a table. -/
def table : Json :=
  object ["thead", "tbody"]
    [("fieldtype", oneOfTexts ["table"]),
     ("thead", arrayOf (tableCell "_table_head")),
     ("tbody", arrayOf (object ["_uid", "component", "body"]
        [("_uid", typed "string"), ("component", oneOfTexts ["_table_row"]),
         ("body", arrayOf (tableCell "_table_col"))]))]

/-- The schema of rich text, which holds parts of the type `self`. -/
def richtext (self : String) : Json :=
  object ["type"]
    [("type", typed "string"), ("content", arrayOf (verbatim self)),
     ("marks", arrayOf (verbatim self)), ("attrs", verbatim "any"), ("text", typed "string")]

/-- The schema of the helper type of a kind; only shared kinds have one. -/
def schema? (namer : TypeNamer) : FieldKind → Option Json
  | .asset => some asset
  | .multiasset => some (arrayOf (verbatim (namer.typeName FieldKind.asset.name)))
  | .multilink => some multilink
  | .table => some table
  | .richtext => some (richtext (namer.typeName FieldKind.richtext.name))
  | _ => none

/-- The kinds whose helper types the helper type of a kind refers to. -/
def dependencies : FieldKind → List FieldKind
  | .multiasset => [.asset]
  | _ => []

end Blokwork.HelperType
