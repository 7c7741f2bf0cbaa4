import Blokwork.Failure
import Blokwork.Notice
import Blokwork.Schema.Json

/-!
# Sets of components

The components of an export: an object with a list under `components`, a list, or one
component. Each item is read on its own; one that is no component is rejected with its name, or
with its position when it has none, and the others are not affected.
-/

namespace Blokwork

/-- An item that is no component. -/
structure RejectedComponent where
  component : String
  reason : String
deriving DecidableEq, Repr

/-- The components of an export and the items that are none. -/
structure ComponentSet where
  components : List Component := []
  rejected : List RejectedComponent := []
deriving DecidableEq, Repr

namespace ComponentSet

/-- One set behind the other. -/
def append (a b : ComponentSet) : ComponentSet where
  components := a.components ++ b.components
  rejected := a.rejected ++ b.rejected

/-- The name of an item, or its position. -/
def label (position : Nat) (item : Json) : String :=
  ((item.member? "name").bind Json.string?).getD ("#" ++ position.repr)

/-- The set of one item. -/
def ofItem (position : Nat) (item : Json) : ComponentSet :=
  match Component.ofJson item with
  | .ok c => { components := [c] }
  | .error m => { rejected := [⟨label position item, m.message⟩] }

/-- The set of some items, of which `position` came before. -/
def ofItemsFrom (position : Nat) : List Json → ComponentSet
  | [] => {}
  | item :: rest => (ofItem position item).append (ofItemsFrom (position + 1) rest)

/-- The items of an export. -/
def items (document : Json) : Except Failure (List Json) :=
  match document with
  | .obj members =>
    match Dict.get? members "components" with
    | some (.arr items) => .ok items
    | some _ => .error (.ofMessage "`components` must be an array")
    | none => .ok [document]
  | .arr items => .ok items
  | _ =>
    .error (.ofMessage
      "expected a component export object, an array, or a single component")

/-- The components of an export. -/
def ofJson (document : Json) : Except Failure ComponentSet :=
  (items document).map (ofItemsFrom 0)

/-- What is reported about a set. -/
def notices (set : ComponentSet) : List Notice :=
  set.rejected.map fun r => .componentRejected r.component r.reason

end ComponentSet

end Blokwork
