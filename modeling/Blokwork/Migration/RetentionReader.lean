import Blokwork.Migration.Rollback
import Blokwork.Toml.Basic

/-!
# Reading what becomes of a snapshot

A retention is written as its name, or as a map with its name as the only key and nothing under
it: `null` in JSON, an empty array or table in TOML.
-/

namespace Blokwork.Retention

/-- The name of a retention. -/
def name : Retention → String
  | .keep => "keep"
  | .delete => "delete"

/-- The retention of that name. -/
def ofName (s : String) : Shaped Retention :=
  match [keep, delete].find? fun r => r.name = s with
  | some r => .ok r
  | none => .error (.unknownVariant s ([keep, delete].map name))

/-- Reads a retention from a JSON value. -/
def ofJson (j : Json) : Shaped Retention :=
  match j with
  | .str s => ofName s
  | .obj [(key, value)] => do
    let r ← ofName key
    match value with
    | .null => return r
    | _ => Datum.unexpected value "unit"
  | .obj _ => .error (.wrongValue .map "map with a single key")
  | _ => Datum.unexpected j "string or map"

/-- There may be nothing under the name of a retention. -/
def expectNothing : Toml → Shaped Unit
  | .arr [] => .ok ()
  | .arr _ => .error (.other "expected empty array")
  | .table [] => .ok ()
  | .table _ => .error (.other "expected empty table")
  | t => .error (.other ("expected table, found " ++ t.kind))

/-- Reads a retention from a TOML value. -/
def ofToml (t : Toml) : Shaped Retention :=
  match t with
  | .str s => ofName s
  | .table [] => .error (.other "wanted exactly 1 element, found 0 elements")
  | .table [(key, value)] => do
    let r ← ofName key
    expectNothing value
    return r
  | .table _ => .error (.other "wanted exactly 1 element, more than 1 element")
  | _ => .error (.other "wanted string or table")

end Blokwork.Retention
