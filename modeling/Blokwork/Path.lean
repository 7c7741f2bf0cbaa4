/-!
# Paths

Paths are texts with a slash between the steps. Joining puts one slash between the two parts
unless there is one already; an absolute path replaces what it is joined to, and nothing is
simplified. Paths are ordered step by step.
-/

namespace Blokwork.Path

/-- The path starts at the root. -/
def isAbsolute (path : String) : Bool := path.toList.head? = some '/'

/-- `path` as seen from `base`. -/
def join (base path : String) : String :=
  if isAbsolute path then path
  else if base.isEmpty || base.toList.getLast? = some '/' then base ++ path
  else base ++ "/" ++ path

/-- The parts of a text between slashes, of which there is at least one. -/
def parts : List Char → List (List Char)
  | [] => [[]]
  | c :: rest =>
    if c = '/' then [] :: parts rest
    else
      match parts rest with
      | [] => [[c]]
      | part :: others => (c :: part) :: others

/-- The steps of a path, one after the other. A slash at the end counts as a step in place. -/
def steps (path : String) : List String :=
  let named := ((parts path.toList).filter fun p => !p.isEmpty).map String.ofList
  if path.toList.getLast? = some '/' then named ++ ["."] else named

/-- The names of a path: its steps without those in place, except one at the start. -/
def names (path : String) : List String :=
  match steps path with
  | [] => []
  | first :: rest =>
    let rest := rest.filter (· ≠ ".")
    if first = "." && isAbsolute path then rest else first :: rest

/-- The path without its last name; the root and the empty path have none. -/
def parent? (path : String) : Option String :=
  match names path with
  | [] => none
  | ns =>
    some ((if isAbsolute path then "/" else "") ++ String.intercalate "/" ns.dropLast)

/-- The place of a name in the order of names: in place first, then upwards, then by name. -/
def rank (name : String) : Nat × String :=
  if name = "." then (0, "") else if name = ".." then (1, "") else (2, name)

/-- The order of lists of names: the first names that differ decide, and a list comes before
its extensions. -/
def namesLe : List String → List String → Bool
  | [], _ => true
  | _ :: _, [] => false
  | a :: as, b :: bs =>
    if a = b then namesLe as bs
    else
      let (i, x) := rank a
      let (j, y) := rank b
      i < j || (i = j && x ≤ y)

/-- The order of paths; absolute paths come first. -/
def le (a b : String) : Bool :=
  if isAbsolute a = isAbsolute b then namesLe (names a) (names b) else isAbsolute a

end Blokwork.Path
