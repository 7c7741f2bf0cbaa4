import Blokwork.Generate.HelperType
import Blokwork.Generate.PluginTable
import Blokwork.Generate.Roster

/-!
# Property fragments of fields

The schema fragment of a field, by its kind. Custom fields are left to the caller's types;
kinds without data have no fragment. A field of a shared kind refers to a helper type, which is
queued for declaration when it is met first. A link excludes the variants that the field does
not allow, and a bloks field lists the components that may stand in it.
-/

namespace Blokwork

/-- What the fragments of a run depend on. -/
structure FragmentContext where
  roster : Roster
  namer : TypeNamer
  custom : Option CustomTypes := none

/-- The helper types referred to so far, and those of them still to be declared. -/
structure HelperQueue where
  seen : List FieldKind := []
  pending : List FieldKind := []
deriving DecidableEq, Repr

namespace HelperQueue

/-- Queues a kind unless it was seen before. -/
def enqueue (queue : HelperQueue) (kind : FieldKind) : HelperQueue :=
  if queue.seen.contains kind then queue
  else { seen := queue.seen ++ [kind], pending := queue.pending ++ [kind] }

/-- Queues a kind behind the kinds it depends on. -/
def refer (queue : HelperQueue) (kind : FieldKind) : HelperQueue :=
  ((HelperType.dependencies kind).foldl enqueue queue).enqueue kind

/-- The queue after everything pending is declared. -/
def taken (queue : HelperQueue) : HelperQueue := { queue with pending := [] }

end HelperQueue

/-- A result together with what is reported on the way. -/
structure Noticed (α : Type) where
  value : α
  notices : List Notice := []
deriving DecidableEq, Repr

namespace FragmentContext

variable (ctx : FragmentContext)

/-- An array of any of the components. -/
def arrayOf : List String → String
  | [] => "never[]"
  | [only] => ctx.namer.typeName only ++ "[]"
  | many => "(" ++ String.intercalate " | " (many.map ctx.namer.typeName) ++ ")[]"

/-- The variants of a link that a field does not allow. -/
def excludedVariants (field : Field) : List String :=
  (if field.emailLinkType then [] else ["\x7b linktype?: \"email\" \x7d"])
    ++ (if field.assetLinkType then [] else ["\x7b linktype?: \"asset\" \x7d"])

/-- The type of a link field. -/
def linkType (field : Field) : String :=
  let base := ctx.namer.typeName FieldKind.multilink.name
  match excludedVariants field with
  | [] => base
  | excluded => "Exclude<" ++ base ++ ", " ++ String.intercalate " | " excluded ++ ">"

/-- The members of some groups, each once, in the order of the groups. -/
def groupMembers (groups : List String) : List String :=
  groups.foldl (fun found group =>
    ((ctx.roster.members? group).getD []).foldl addName found) []

/-- The groups that have no members. -/
def emptyGroups (groups : List String) : List String :=
  groups.filter fun group => ((ctx.roster.members? group).getD []).isEmpty

/-- The components that may stand in a bloks field; `none` when the field is restricted by an
empty list. -/
def allowedComponents (name : String) (field : Field) : Noticed (Option (List String)) :=
  if !field.restrictComponents then { value := some ctx.roster.names }
  else if field.restrictsToGroups then
    if field.componentGroupWhitelist.isEmpty then { value := none }
    else
      { value := some (ctx.groupMembers field.componentGroupWhitelist)
        notices := (ctx.emptyGroups field.componentGroupWhitelist).map (.emptyGroup name) }
  else if field.componentWhitelist.isEmpty then { value := none }
  else
    let (defined, missing) := field.componentWhitelist.partition ctx.roster.names.contains
    { value := some defined, notices := missing.map (.undefinedComponent name) }

/-- The choices of an option field: an empty one in front, unless the field excludes it. -/
def choices (field : Field) (values : List String) : List String :=
  let excludesEmpty := ((Dict.get? field.extra "exclude_empty_option").bind Json.bool?).getD false
  if !excludesEmpty && field.kind = .singleOption then "" :: values else values

/-- The schema of one choice of an option field. -/
def choiceSchema (field : Field) : Json :=
  match field.staticOptions? with
  | none => HelperType.typed "string"
  | some values => .obj [("type", .str "string"), ("enum", Json.strings (choices field values))]

/-- The members of a fragment before a type is set by its text; kinds without data have none. -/
def baseMembers? (field : Field) : Option (Dict Json) :=
  match field.kind with
  | .text | .textarea | .markdown | .datetime => some [("type", .str "string")]
  | .number => some [("type", .str "number")]
  | .boolean => some [("type", .str "boolean")]
  | .singleOption => (choiceSchema field).members?
  | .multiOption => some [("type", .str "array"), ("items", choiceSchema field)]
  | .bloks | .multiasset => some [("type", .str "array")]
  | .asset | .multilink | .table | .richtext => some [("type", .str "object")]
  | .custom | .section | .tab | .other _ => none

/-- The type of a field as text, where its kind gives one. -/
def typeText (name : String) (field : Field) : Noticed (Option String) :=
  match field.kind with
  | .multilink => { value := some (ctx.linkType field) }
  | .bloks =>
    let allowed := ctx.allowedComponents name field
    { value := allowed.value.map ctx.arrayOf, notices := allowed.notices }
  | kind => { value := if kind.isShared then some (ctx.namer.typeName kind.name) else none }

/-- A member that is left out when there is no text. -/
def textMember (key : String) (text : Option String) : Dict Json :=
  match text with
  | none => []
  | some s => [(key, .str s)]

/-- The property fragments of a field with a kind of its own. -/
def plainFragments (name : String) (field : Field) : Noticed (Option (Dict Json)) :=
  match baseMembers? field with
  | none => { value := none }
  | some members =>
    let type := ctx.typeText name field
    { value := some [(name, .obj (members ++ textMember "tsType" type.value
        ++ textMember "description" field.description))]
      notices := type.notices }

/-- The property fragments of a field; `none` when it has no property. -/
def fragments (name : String) (field : Field) : Noticed (Option (Dict Json)) :=
  if field.kind = .custom then { value := ctx.custom.bind fun types => types name field }
  else ctx.plainFragments name field

end FragmentContext

/-- The queue after the fragment of a field was made. -/
def HelperQueue.afterField (queue : HelperQueue) (field : Field) : HelperQueue :=
  if field.kind.isShared then queue.refer field.kind else queue

end Blokwork
