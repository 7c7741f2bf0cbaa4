import Blokwork.Files.Disk
import Blokwork.Files.Pattern

/-!
# Finding files by pattern

The paths on a disk that a pattern stands for, step by step: a step without wildcards is looked
up by name, any other step is compared with the entries of the directory that was reached.
-/

namespace Blokwork

namespace Pattern

/-- What comes of an entry of a directory: it is a result, or the search goes on from it. -/
inductive Lead where
  | found (path : String)
  | search (steps : List Pattern) (path : String)

/-- `name` as seen from a directory; the working directory is left out. -/
def below (directory name : String) : String :=
  if directory = "." then name else Path.join directory name

/-- What comes of an entry whose name the first step stands for. -/
def leadsByName (steps : List Pattern) (path name : String) : List Lead :=
  match steps with
  | [] => []
  | step :: rest =>
    if step.matchesName name then
      if rest.isEmpty then [.found path] else [.search rest path]
    else []

/-- What comes of an entry of a directory. -/
def leads (steps : List Pattern) (path : String) (item : DirectoryItem) : List Lead :=
  match steps with
  | [] => []
  | step :: rest =>
    if step.isRecursive then
      let rest := rest.dropWhile isRecursive
      (if item.isDirectory then
          Lead.search (step :: rest) path :: (if rest.isEmpty then [.found path] else [])
        else [])
        ++ leadsByName rest path item.name
    else leadsByName steps path item.name

/-- What comes of the steps in place and upwards, which only a pattern with a dot in front
stands for. -/
def leadsByDots (steps : List Pattern) (directory : String) : List Lead :=
  match steps with
  | (.char '.' :: tokens) :: rest =>
    [".", ".."].flatMap fun name =>
      leadsByName ((.char '.' :: tokens) :: rest) (Path.join directory name) name
  | _ => []

variable {m : Type → Type} [Monad m] (disk : Disk m)

/-- The results of some leads, given how a search goes on. -/
def followLeads (search : List Pattern → String → m (Except FileFault (List String))) :
    List Lead → m (Except FileFault (List String))
  | [] => return .ok []
  | .found path :: rest => do
    match ← followLeads search rest with
    | .error fault => return .error fault
    | .ok paths => return .ok (path :: paths)
  | .search steps path :: rest => do
    match ← search steps path with
    | .error fault => return .error fault
    | .ok first =>
      match ← followLeads search rest with
      | .error fault => return .error fault
      | .ok paths => return .ok (first ++ paths)

/-- The paths below a directory that some steps stand for. At most `fuel` steps are taken. -/
def search : (fuel : Nat) → List Pattern → (directory : String) →
    m (Except FileFault (List String))
  | 0, _, _ => return .ok []
  | _ + 1, [], _ => return .ok []
  | fuel + 1, step :: rest, directory => do
    match step.literal? with
    | some cs =>
      let name := String.ofList cs
      let path := below directory name
      let reached ←
        if name = "." || name = ".." then disk.isDirectory directory else disk.holds path
      if !reached then return .ok []
      else if rest.isEmpty then return .ok [path]
      else search fuel rest path
    | none =>
      if ← disk.isDirectory directory then
        match ← disk.items directory with
        | .error fault => return .error fault
        | .ok items =>
          let steps := step :: rest
          followLeads (search fuel)
            (items.flatMap (fun item => leads steps (below directory item.name) item)
              ++ leadsByDots steps directory)
      else return .ok []

/-- Directories inside one another are followed up to here. -/
def searchDepth : Nat := 4096

/-- The steps of a pattern for paths. -/
def stepsOf (text : String) : Except PatternFault (List Pattern) := do
  let _ ← parse text
  let path := text.toList
  let path := if Path.isAbsolute text then path.drop 1 else path
  (Path.parts path).mapM fun part => parse (String.ofList part)

/-- The paths that a pattern stands for. -/
def find (text : String) (steps : List Pattern) : m (Except FileFault (List String)) :=
  search disk (steps.length + searchDepth) steps (if Path.isAbsolute text then "/" else ".")

end Pattern

end Blokwork
