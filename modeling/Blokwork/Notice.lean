import Blokwork.Schema.Component
import Blokwork.Text.Quoted
import Blokwork.TypeScript.CompileError

/-!
# Notices

What an operation reports besides its result: warnings about input that is used nevertheless,
and errors that concern only a part of it. Each notice has a level, a fixed sentence and named
details.
-/

namespace Blokwork

/-- How serious a notice is. -/
inductive NoticeLevel where
  | warning
  | error
deriving DecidableEq, Repr

/-- The name of a level. -/
def NoticeLevel.name : NoticeLevel → String
  | .warning => "WARN"
  | .error => "ERROR"

/-- A notice. -/
inductive Notice where
  /-- A component name occurs a second time. -/
  | repeatedComponent (component : String)
  /-- Several components have one type name. -/
  | sharedTypeName (typeName : String) (components : List String)
  /-- A bloks field names a component group without components. -/
  | emptyGroup (field group : String)
  /-- A bloks field names a component that is not defined. -/
  | undefinedComponent (field component : String)
  /-- A helper type has no declaration. -/
  | helperFailed (kind : FieldKind) (error : TypeScript.CompileError)
  /-- A component has no declaration. -/
  | componentFailed (component : String) (error : TypeScript.CompileError)
  /-- An item is no component. -/
  | componentRejected (component reason : String)
  /-- A push failed in the middle of a batch. -/
  | pushFailed (migration entry : String) (pushed remaining : Nat)
  /-- A snapshot was taken for another component. -/
  | foreignSnapshot (file component : String)
  /-- A file that could not be written whole could not be removed either. -/
  | leftover (path error : String)
  /-- The artifact lacks some components. -/
  | incomplete (failures rejected : Nat)
deriving DecidableEq, Repr

namespace Notice

/-- The level of a notice. -/
def level : Notice → NoticeLevel
  | .repeatedComponent .. | .sharedTypeName .. | .emptyGroup .. | .undefinedComponent ..
  | .foreignSnapshot .. | .leftover .. | .incomplete .. => .warning
  | .helperFailed .. | .componentFailed .. | .componentRejected .. | .pushFailed .. => .error

/-- The sentence of a notice. -/
def message : Notice → String
  | .repeatedComponent .. => "duplicate component name in input"
  | .sharedTypeName .. => "components share a type name; their interfaces will merge"
  | .emptyGroup .. => "component group resolves to no components"
  | .undefinedComponent .. => "whitelisted component is not defined"
  | .helperFailed .. => "shared field type failed to compile"
  | .componentFailed .. =>
    "schema compilation failed; skipping component, bloks unions naming it will not resolve"
  | .componentRejected .. => "invalid component schema; skipping component"
  | .pushFailed .. => "push failed; batch left snapshotted"
  | .foreignSnapshot .. => "snapshot records a different component"
  | .leftover .. => "could not remove partially written file"
  | .incomplete .. =>
    "some components were skipped; the artifact is incomplete and unions that name a "
      ++ "skipped component reference a type it does not declare"

/-- The details of a notice, with their names. -/
def details : Notice → List (String × String)
  | .repeatedComponent component => [("component", component)]
  | .sharedTypeName typeName components =>
    [("type_name", typeName), ("components", Text.quotedList components)]
  | .emptyGroup field group => [("field", field), ("group", group)]
  | .undefinedComponent field component => [("field", field), ("component", component)]
  | .helperFailed kind error => [("kind", kind.name), ("error", error.message)]
  | .componentFailed component error => [("component", component), ("error", error.message)]
  | .componentRejected component reason => [("component", component), ("error", reason)]
  | .pushFailed migration entry pushed remaining =>
    [("migration", migration), ("entry_id", entry), ("pushed", pushed.repr),
     ("remaining", remaining.repr)]
  | .foreignSnapshot file component => [("file", file), ("component", component)]
  | .leftover path error => [("path", path), ("error", error)]
  | .incomplete failures rejected =>
    [("failures", failures.repr), ("rejected", rejected.repr)]

/-- A notice on one line. -/
def line (n : Notice) : String :=
  n.level.name ++ " " ++ n.message
    ++ String.join (n.details.map fun (name, value) => " " ++ name ++ "=" ++ value)

end Notice

end Blokwork
