import Blokwork.Config.Basic
import Blokwork.Files.Search
import Blokwork.Generate.PluginTable
import Blokwork.Json.Parser
import Blokwork.Migration.ScriptFile
import Blokwork.Schema.ComponentSet

/-!
# Loading

What is read from files: sets of components from a file or a directory of files, tables of
custom fields, scripts and configurations. The files of a directory are those with names in
`.json`, in the order of their paths; the name of the directory is a part of the pattern that
they are found by.
-/

namespace Blokwork

variable {m : Type → Type} [Monad m] (disk : Disk m)

/-- The JSON value in a file. -/
def loadJson (path : String) : m (Except Failure Json) := do
  match ← disk.readText path with
  | .error fault => return fileResult ("read " ++ path) (.error fault)
  | .ok text =>
    return (Json.parse text).mapError fun fault =>
      { contexts := ["parse " ++ path], cause := .json fault }

namespace ComponentSet

variable (report : Notice → m Unit)

/-- The components in a file. -/
def loadFile (path : String) : m (Except Failure ComponentSet) := do
  match ← loadJson disk path with
  | .error f => return .error f
  | .ok j =>
    match inContext ("load components from " ++ path) (ofJson j) with
    | .error f => return .error f
    | .ok set =>
      set.notices.forM report
      return .ok set

/-- The components in some files, one after the other. -/
def loadFiles : List String → m (Except Failure ComponentSet)
  | [] => return .ok {}
  | path :: rest => do
    match ← loadFile disk report path with
    | .error f => return .error f
    | .ok first =>
      match ← loadFiles rest with
      | .error f => return .error f
      | .ok others => return .ok (first.append others)

/-- The components in the files of a directory. -/
def loadDirectory (path : String) : m (Except Failure ComponentSet) := do
  let pattern := Path.join path "*.json"
  match Pattern.stepsOf pattern with
  | .error fault =>
    return .error { contexts := ["glob " ++ pattern], cause := .message fault.message }
  | .ok steps =>
    match ← Pattern.find disk pattern steps with
    | .error fault => return fileResult ("read entry under " ++ path) (.error fault)
    | .ok paths => loadFiles disk report (paths.mergeSort Path.le)

/-- The components in a file or a directory of files. -/
def load (path : String) : m (Except Failure ComponentSet) := do
  if ← disk.isDirectory path then loadDirectory disk report path else loadFile disk report path

end ComponentSet

/-- The table of custom fields in a file. -/
def PluginTable.load (path : String) : m (Except Failure PluginTable) := do
  match ← loadJson disk path with
  | .error f => return .error f
  | .ok j => return inContext ("load " ++ path) (ofJson j)

/-- The script in a file. -/
def Script.load (target : Target) (path : String) : m (Except Failure Script) := do
  match ← disk.readText path with
  | .error fault => return fileResult ("read " ++ path) (.error fault)
  | .ok text => return inContext ("load " ++ path) (parse target text)

namespace Config

/-- The configuration file of a project, if there is one. -/
def find? (root : String) : m (Option String) := do
  let path := Path.join root fileName
  return if ← disk.holds path then some path else none

/-- The configuration in a file. -/
def load (path : String) : m (Except Failure Config) := do
  match ← disk.readText path with
  | .error fault => return fileResult ("read config file " ++ path) (.error fault)
  | .ok text => return inContext ("parse config file " ++ path) (parse text)

/-- The configuration of a project, which may have none. -/
def loadProject (root : String) : m (Except Failure Config) := do
  match ← find? disk root with
  | none => return .ok {}
  | some path => load disk path

end Config

end Blokwork
