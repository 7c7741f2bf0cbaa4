import Blokwork.Toml.Basic

/-!
# Tables as they are defined

The tables of a TOML text while it is read. A table is *implied* by the path of a header below
it, *dotted* when a dotted key made it, or it has a *header* of its own. Each key is defined
once: a header names a table that is new or only implied, a header of an array adds an element
to an array of headers, and a dotted key extends tables that dotted keys made, perhaps below
implied tables or the last element of an array.
-/

namespace Blokwork.Toml

/-- How a table came about. -/
inductive Origin where
  | implied
  | dotted
  | header
deriving DecidableEq, Repr

/-- What stands under a key: a value, a table that may still grow, or an array of tables whose
last element may still grow. -/
inductive Node where
  | value (value : Toml)
  | table (origin : Origin) (members : List (String × Node))
  | tables (elements : List (List (String × Node)))

namespace Node

mutual

/-- The value that was defined. -/
def toToml : Node → Toml
  | .value v => v
  | .table _ ms => .ofMembers (membersToToml ms)
  | .tables xs => .arr (elementsToToml xs)

/-- The members of a table that was defined. -/
def membersToToml : List (String × Node) → List (String × Toml)
  | [] => []
  | (k, n) :: rest => (k, toToml n) :: membersToToml rest

/-- The elements of an array that was defined. -/
def elementsToToml : List (List (String × Node)) → List Toml
  | [] => []
  | ms :: rest => .ofMembers (membersToToml ms) :: elementsToToml rest

end

end Node

/-- A table that is being defined. -/
abbrev Draft := Dict Node

namespace Draft

/-- The draft as a value. -/
def toToml (draft : Draft) : Toml := (Node.table .header draft).toToml

/-- Gives a dotted key its value. -/
def assign (value : Toml) : (path : List String) → Draft → Option Draft
  | [], _ => none
  | [key], draft =>
    if Dict.has draft key then none else some (Dict.insert draft key (.value value))
  | key :: next :: rest, draft =>
    match Dict.get? draft key with
    | none => do
      let members ← assign value (next :: rest) []
      return Dict.insert draft key (.table .dotted members)
    | some (.table origin members) =>
      if origin = .header || (rest.isEmpty && origin ≠ .dotted) then none
      else do
        let members ← assign value (next :: rest) members
        return Dict.insert draft key (.table origin members)
    | some (.tables elements) =>
      if rest.isEmpty then none
      else do
        let last ← elements.getLast?
        let last ← assign value (next :: rest) last
        return Dict.insert draft key (.tables (elements.dropLast ++ [last]))
    | some (.value _) => none

/-- Edits the table at the end of a path of headers. -/
def within (edit : Draft → Option Draft) : (path : List String) → Draft → Option Draft
  | [], draft => edit draft
  | key :: rest, draft =>
    match Dict.get? draft key with
    | none => do
      let members ← within edit rest []
      return Dict.insert draft key (.table .implied members)
    | some (.table origin members) => do
      let members ← within edit rest members
      return Dict.insert draft key (.table origin members)
    | some (.tables elements) => do
      let last ← elements.getLast?
      let last ← within edit rest last
      return Dict.insert draft key (.tables (elements.dropLast ++ [last]))
    | some (.value _) => none

/-- Gives a table its header. -/
def openTable (key : String) (draft : Draft) : Option Draft :=
  match Dict.get? draft key with
  | none => some (Dict.insert draft key (.table .header []))
  | some (.table .implied members) => some (Dict.insert draft key (.table .header members))
  | some _ => none

/-- Adds an element to an array of tables. -/
def openElement (key : String) (draft : Draft) : Option Draft :=
  match Dict.get? draft key with
  | none => some (Dict.insert draft key (.tables [[]]))
  | some (.tables elements) => some (Dict.insert draft key (.tables (elements ++ [[]])))
  | some _ => none

end Draft

/-- One statement of a TOML text. -/
inductive Statement where
  /-- A dotted key and its value. -/
  | assign (path : List String) (value : Toml)
  /-- The header of a table. -/
  | table (path : List String)
  /-- The header of an element of an array of tables. -/
  | element (path : List String)

/-- A text up to some statement: the path of the last header, and what was defined. -/
structure Definitions where
  header : List String := []
  root : Draft := []

namespace Definitions

/-- One more statement. -/
def add (defs : Definitions) : Statement → Option Definitions
  | .assign path value => do
    let root ← defs.root.within (Draft.assign value path) defs.header
    return { defs with root }
  | .table path => do
    let root ← defs.root.within (Draft.openTable (path.getLast?.getD "")) path.dropLast
    return { header := path, root }
  | .element path => do
    let root ← defs.root.within (Draft.openElement (path.getLast?.getD "")) path.dropLast
    return { header := path, root }

end Definitions

end Blokwork.Toml
