import Blokwork.Files.Tree
import Blokwork.Migration.Environment

/-!
# Workspaces in memory

A model of all that a run works on, apart from the network: the files below the working
directory, the present time, and what was printed and noted.
-/

namespace Blokwork

/-- Files, a clock and what a run had to say. -/
structure Workspace where
  files : FileTree := .directory []
  now : Timestamp := ⟨0, 0⟩
  printed : String := ""
  notices : List Notice := []

namespace Workspace

/-- Looks something up in the files. -/
def ask {α : Type} (query : FileTree → α) : StateM Workspace α := do
  return query (← get).files

/-- Changes the files; what is refused changes nothing. -/
def change (edit : FileTree → Except FileFault FileTree) :
    StateM Workspace (Except FileFault Unit) :=
  modifyGet fun w =>
    match edit w.files with
    | .ok files => (.ok (), { w with files })
    | .error fault => (.error fault, w)

/-- A path leads to a node that passes a test. -/
def nodeIs (test : FileTree → Bool) (path : String) (files : FileTree) : Bool :=
  match files.node? path with
  | .ok t => test t
  | .error _ => false

/-- The files as a disk. -/
def disk : Disk (StateM Workspace) where
  isFile path := ask (nodeIs FileTree.isFileNode path)
  isDirectory path := ask (nodeIs FileTree.isDirectoryNode path)
  read path := ask (FileTree.read path)
  items path := ask (FileTree.items path)
  makeDirectories path := change (FileTree.makeDirectories path)
  write path contents := change (FileTree.write path contents)
  create path := change (FileTree.create path)
  remove path := change (FileTree.remove path)

/-- Takes note of something. -/
def report (notice : Notice) : StateM Workspace Unit :=
  modify fun w => { w with notices := w.notices ++ [notice] }

/-- Prints a text. -/
def print (text : String) : StateM Workspace Unit :=
  modify fun w => { w with printed := w.printed ++ text }

end Workspace

end Blokwork
