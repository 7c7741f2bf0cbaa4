import Blokwork.Dict

/-!
# Type names

The type name of a component is a prefix, the component's name and a suffix, each in Pascal
case: the words between characters other than ASCII letters and digits, with their first
letters capitalised. An underscore is put in front of a name that would be empty or start
with a digit. `collisions` finds the names that share a type name.
-/

namespace Blokwork

/-- The words of a text joined, each with its first letter capitalised. A word is a run of
ASCII letters and digits; `atStart` says that the next letter starts one. -/
def pascalCase (atStart : Bool) : List Char → List Char
  | [] => []
  | c :: rest =>
    if c.isAlphanum then (if atStart then c.toUpper else c) :: pascalCase false rest
    else pascalCase true rest

/-- What stands before and behind a component's name in its type name. -/
structure TypeNamer where
  namePrefix : String := ""
  nameSuffix : String := "Storyblok"
deriving DecidableEq, Repr

namespace TypeNamer

/-- An underscore in front of a name that is empty or starts with a digit. -/
def guarded : List Char → List Char
  | [] => ['_']
  | c :: rest => if c.isDigit then '_' :: c :: rest else c :: rest

/-- The type name that belongs to a name. -/
def typeName (namer : TypeNamer) (name : String) : String :=
  String.ofList (guarded
    (pascalCase true namer.namePrefix.toList ++ pascalCase true name.toList
      ++ pascalCase true namer.nameSuffix.toList))

/-- The names by their type name, both in the order in which they are met first. -/
def byTypeName (namer : TypeNamer) (names : List String) : Dict (List String) :=
  names.foldl (fun groups name =>
    let typeName := namer.typeName name
    Dict.insert groups typeName ((Dict.get? groups typeName).getD [] ++ [name])) []

/-- The type names that belong to more than one of the names, with those names. -/
def collisions (namer : TypeNamer) (names : List String) : Dict (List String) :=
  (namer.byTypeName names).filter fun group => 1 < group.2.length

end TypeNamer

end Blokwork
