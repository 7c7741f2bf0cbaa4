import Blokwork.Dict
import Blokwork.Files.Disk

/-!
# File trees

A model of the files below a working directory: a tree of directories with files as leaves. A
path is followed step by step from the root of the tree; nothing lies outside of it. The
operations refuse what a file system refuses, for the same reasons.

An absolute path starts outside of the tree, so it leads to nothing. What is said of all paths is
therefore a statement about those below the working directory; of absolute ones it says no more
than that nothing is found there and nothing can be made.
-/

namespace Blokwork

/-- A file or a directory. -/
inductive FileTree where
  | file (contents : ByteArray)
  | directory (entries : List (String × FileTree))

namespace FileTree

instance : Inhabited FileTree := ⟨.directory []⟩

/-- The node is a directory. -/
def isDirectoryNode : FileTree → Bool
  | .directory _ => true
  | .file _ => false

/-- The node is a file. -/
def isFileNode : FileTree → Bool
  | .file _ => true
  | .directory _ => false

/-- The node at a place, which is a list of names from the root. -/
def get? : (place : List String) → FileTree → Option FileTree
  | [], t => some t
  | _ :: _, .file _ => none
  | name :: rest, .directory entries =>
    match Dict.get? entries name with
    | none => none
    | some t => get? rest t

/-- The tree with a node put at a place whose directories exist. -/
def put (node : FileTree) : List String → FileTree → FileTree
  | [], _ => node
  | _ :: _, .file contents => .file contents
  | name :: rest, .directory entries =>
    .directory (Dict.insert entries name
      (put node rest ((Dict.get? entries name).getD (.directory []))))

/-- The tree without the node at a place. -/
def without : List String → FileTree → FileTree
  | [], t => t
  | _ :: _, .file contents => .file contents
  | [name], .directory entries => .directory (Dict.erase entries name)
  | name :: next :: rest, .directory entries =>
    match Dict.get? entries name with
    | none => .directory entries
    | some t => .directory (Dict.insert entries name (without (next :: rest) t))

/-! ## Following paths -/

/-- The longest name of a file, in bytes. -/
def longestName : Nat := 255

/-- A path is shorter than this, in bytes. -/
def pathLimit : Nat := 4096

/-- The path ends in a slash, so that it can only be the path of a directory. -/
def endsInSlash (path : String) : Bool := path.toList.getLast? = some '/'

/-- The steps of a path that may be followed. An absolute path leads out of the tree, where nothing
is found. -/
def steps (path : String) : Except FileFault (List String) :=
  if path.toList.contains '\x00' then .error .invalidInput
  else if pathLimit ≤ path.utf8ByteSize then .error .nameTooLong
  else if path.isEmpty || Path.isAbsolute path then .error .notFound
  else .ok (Path.steps path)

/-- The steps of a path without the one that a slash at the end stands for. -/
def namedSteps (path : String) : Except FileFault (List String) :=
  (steps path).map fun all => if endsInSlash path then all.dropLast else all

/-- The place that some steps lead to from a place. -/
def follow (root : FileTree) (place : List String) : List String → Except FileFault (List String)
  | [] => .ok place
  | step :: rest =>
    match root.get? place with
    | none => .error .notFound
    | some (.file _) => .error .notADirectory
    | some (.directory entries) =>
      if step = "." then follow root place rest
      else if step = ".." then
        if place.isEmpty then .error .notFound else follow root place.dropLast rest
      else if longestName < step.utf8ByteSize then .error .nameTooLong
      else if Dict.has entries step then follow root (place ++ [step]) rest
      else .error .notFound

/-- The place of a path. -/
def locate (root : FileTree) (path : String) : Except FileFault (List String) := do
  follow root [] (← steps path)

/-- The node of a path. -/
def node? (root : FileTree) (path : String) : Except FileFault FileTree := do
  match root.get? (← root.locate path) with
  | some t => .ok t
  | none => .error .notFound

/-- A step leads to a place of its own, neither in place nor upwards. -/
def isName (step : String) : Bool := step ≠ "." && step ≠ ".."

/-- The place where a path would put a new file. A path that ends in a slash is that of a
directory, and a path that ends in no name leads to something that exists. -/
def newPlace (root : FileTree) (path : String) : Except FileFault (List String) := do
  let all ← namedSteps path
  let directory ← follow root [] all.dropLast
  match root.get? directory, all.getLast? with
  | some (.directory entries), some name =>
    if endsInSlash path then .error .isADirectory
    else if !isName name then .error .alreadyExists
    else if longestName < name.utf8ByteSize then .error .nameTooLong
    else if Dict.has entries name then .error .alreadyExists
    else .ok (directory ++ [name])
  | some (.file _), _ => .error .notADirectory
  | _, _ => .error .notFound

/-! ## Operations -/

/-- The contents of a file. -/
def read (path : String) (root : FileTree) : Except FileFault ByteArray := do
  match ← root.node? path with
  | .file contents => .ok contents
  | .directory _ => .error .isADirectory

/-- The entries of a directory. -/
def items (path : String) (root : FileTree) : Except FileFault (List DirectoryItem) := do
  match ← root.node? path with
  | .directory entries =>
    .ok (entries.map fun (name, t) => ⟨name, t.isFileNode, t.isDirectoryNode⟩)
  | .file _ => .error .notADirectory

/-- Makes the directories that some steps lead through from a place. -/
def makeSteps (root : FileTree) (place : List String) : List String → Except FileFault FileTree
  | [] => .ok root
  | step :: rest =>
    match root.get? place with
    | none => .error .notFound
    | some (.file _) => .error .notADirectory
    | some (.directory entries) =>
      if step = "." then makeSteps root place rest
      else if step = ".." then
        if place.isEmpty then .error .notFound else makeSteps root place.dropLast rest
      else if longestName < step.utf8ByteSize then .error .nameTooLong
      else
        match Dict.get? entries step with
        | some (.file _) => .error (if rest.isEmpty then .alreadyExists else .notADirectory)
        | some (.directory _) => makeSteps root (place ++ [step]) rest
        | none =>
          let place := place ++ [step]
          makeSteps (put (.directory []) place root) place rest

/-- Makes a directory and those that it is in, as far as they are missing. -/
def makeDirectories (path : String) (root : FileTree) : Except FileFault FileTree :=
  if path.isEmpty then .ok root
  else do makeSteps root [] (← namedSteps path)

/-- Makes an empty file. -/
def create (path : String) (root : FileTree) : Except FileFault FileTree := do
  let place ← root.newPlace path
  return put (.file ByteArray.empty) place root

/-- Replaces the contents of a file, or makes it. -/
def write (path : String) (contents : ByteArray) (root : FileTree) : Except FileFault FileTree :=
  match root.newPlace path with
  | .ok place => .ok (put (.file contents) place root)
  | .error .alreadyExists => do
    let place ← root.locate path
    match root.get? place with
    | some (.file _) => .ok (put (.file contents) place root)
    | _ => .error .isADirectory
  | .error fault => .error fault

/-- Removes a file. -/
def remove (path : String) (root : FileTree) : Except FileFault FileTree := do
  let place ← root.locate path
  match root.get? place with
  | some (.file _) => .ok (root.without place)
  | _ => .error .isADirectory

/-- The files below some place with their paths. -/
def filesBelow (path : String) : FileTree → List (String × ByteArray)
  | .file contents => [(path, contents)]
  | .directory entries => go entries
where
  /-- The files of some entries. -/
  go : List (String × FileTree) → List (String × ByteArray)
    | [] => []
    | (name, t) :: rest =>
      filesBelow (if path.isEmpty then name else path ++ "/" ++ name) t ++ go rest

end FileTree

end Blokwork
