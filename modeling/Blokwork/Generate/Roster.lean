import Blokwork.Notice

/-!
# The roster of components

What has to be known of all components before the first of them gets a type: the names that
are defined, each once, and the names that belong to each component group, all in the order in
which they are met first. A repeated name is reported.
-/

namespace Blokwork

/-- The names and groups of a list of components. -/
structure Roster where
  names : List String := []
  groups : Dict (List String) := []
deriving DecidableEq, Repr

/-- The list with the name at its end, unless it is in the list already. -/
def addName (names : List String) (name : String) : List String :=
  if names.contains name then names else names ++ [name]

namespace Roster

/-- The roster with one more component. -/
def add (roster : Roster) (c : Component) : Roster where
  names := addName roster.names c.name
  groups :=
    match c.group with
    | none => roster.groups
    | some group =>
      Dict.insert roster.groups group (addName ((Dict.get? roster.groups group).getD []) c.name)

/-- What is reported when a component joins the roster. -/
def noticesOf (roster : Roster) (c : Component) : List Notice :=
  if roster.names.contains c.name then [.repeatedComponent c.name] else []

/-- The roster of a list of components. -/
def ofComponents (components : List Component) : Roster :=
  components.foldl add {}

/-- What is reported when components join a roster one after the other. -/
def noticesFrom (roster : Roster) : List Component → List Notice
  | [] => []
  | c :: rest => roster.noticesOf c ++ noticesFrom (roster.add c) rest

/-- The members of a component group. -/
def members? (roster : Roster) (group : String) : Option (List String) :=
  Dict.get? roster.groups group

end Roster

end Blokwork
