import Blokwork.Content.Entry
import Blokwork.Failure
import Blokwork.Migration.Target

/-!
# Migration scripts

A script is a list of operations, run in order on every blok of the target's component. An
operation without a field of its own works on the field of the target.
-/

namespace Blokwork

/-- One edit of a blok. -/
inductive ScriptOp where
  /-- Gives the field a value. -/
  | set (field : Option String) (value : Json)
  /-- Removes the field. -/
  | remove (field : Option String)
  /-- Moves the field's value to another name. -/
  | rename (field : Option String) (newName : String)
  /-- Gives the field a value when it is missing or `null`. -/
  | default (field : Option String) (value : Json)
  /-- Puts the field's value into an array; arrays, `null` and missing fields stay. -/
  | wrapInArray (field : Option String)
deriving DecidableEq, Repr

namespace ScriptOp

/-- The name of an operation in a script. -/
def name : ScriptOp → String
  | .set .. => "set"
  | .remove .. => "remove"
  | .rename .. => "rename"
  | .default .. => "default"
  | .wrapInArray .. => "wrap_in_array"

/-- The field that is named by an operation. -/
def field? : ScriptOp → Option String
  | .set field _ | .remove field | .rename field _ | .default field _ | .wrapInArray field => field

/-- The value that an operation may write. -/
def value? : ScriptOp → Option Json
  | .set _ value | .default _ value => some value
  | _ => none

/-- A blok after one operation; `fallback` is the field of operations that name none. -/
def apply (fallback : String) (op : ScriptOp) (blok : Dict Json) : Dict Json :=
  let field := op.field?.getD fallback
  match op with
  | .set _ value => Dict.insert blok field value
  | .remove _ => Dict.erase blok field
  | .rename _ newName =>
    match Dict.get? blok field with
    | none => blok
    | some value => Dict.insert (Dict.erase blok field) newName value
  | .default _ value =>
    match Dict.get? blok field with
    | none => Dict.insert blok field value
    | some old => if old.isNull then Dict.insert blok field value else blok
  | .wrapInArray _ =>
    match Dict.get? blok field with
    | none => blok
    | some old => if old.isArray || old.isNull then blok else Dict.insert blok field (.arr [old])

end ScriptOp

/-- A script for one target. -/
structure Script where
  target : Target
  ops : List ScriptOp
deriving DecidableEq, Repr

/-- An edit of a fetched entry. -/
abbrev EntryTransform := Entry → Except Failure Entry

namespace Script

/-- A blok after all operations. -/
def applyToBlok (script : Script) (blok : Dict Json) : Dict Json :=
  script.ops.foldl (fun blok op => op.apply script.target.field blok) blok

/-- The largest depth of the values that the script may write. -/
def valueDepth (script : Script) : Nat :=
  script.ops.foldl (fun d op => max d ((op.value?.map Json.depth).getD 0)) 0

/-- The depth that the script may add below a blok: each of its values at most once, and one
array around it. -/
def growth (script : Script) : Nat :=
  (script.ops.length + 1) * (script.valueDepth + 2)

/-- The entry after the script ran on every blok of its component. A script that puts a blok of
its own component into such a blok again and again has no result. -/
def transform (script : Script) : EntryTransform := fun entry =>
  match entry.visitBloks script.target.component script.growth
      (fun (s : Unit) blok => (s, script.applyToBlok blok)) () with
  | some (_, _, entry) => .ok entry
  | none =>
    .error
      (.ofMessage ("the script nests bloks of `" ++ script.target.component ++ "` without end"))

end Script

end Blokwork
