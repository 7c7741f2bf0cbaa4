import Blokwork.CommandLine.Session

/-!
# Tasks

A second tool, for the upkeep of a project: it prints the identifiers of the formats, and it
lays out the directories of migrations together with an empty script for a target.
-/

namespace Blokwork.CommandLine.Tasks

/-- The tool. -/
def tool : ToolSpec where
  name := "xtask"
  commands := [
    { name := "print-schemas" },
    { name := "init-migration"
      options := { values := targetOptions ++ [⟨"root", false, none⟩] } }]

/-- What stands for the component in the text of an empty script. -/
def componentMark : String := "\x7bcomponent\x7d"

/-- What stands for the field in the text of an empty script. -/
def fieldMark : String := "\x7bfield\x7d"

/-- The text of an empty script, with marks for its target. -/
def scriptTemplate : String :=
  "# Ops run in order on every `" ++ componentMark ++ "` blok found in an entry's content.\n"
    ++ "# `field` defaults to \"" ++ fieldMark ++ "\".\n"
    ++ "#\n# [[ops]]\n# op = \"rename\"\n# to = \"new_name\"\n"
    ++ "#\n# [[ops]]\n# op = \"default\"\n# value = \"\"\n"

/-- The text of an empty script for a target: first the component is filled in, then the
field. -/
def emptyScript (target : Target) : String :=
  Text.replace (Text.replace scriptTemplate componentMark target.component) fieldMark target.field

variable {m : Type → Type} [Monad m] (disk : Disk m) (print : String → m Unit)

/-- Makes the directories and the script of a migration. -/
def initMigration (root : String) (target : Target) : m (Except Failure Unit) := do
  let directory := Path.join root Target.snapshotDirectory
  match fileResult ("create " ++ directory) (← disk.makeDirectories directory) with
  | .error f => return .error f
  | .ok () =>
    let path := target.scriptPath root
    if ← disk.holds path then return .error (.ofMessage (path ++ " already exists"))
    else
      match ← disk.write path (emptyScript target).toUTF8 with
      | .error fault => return .error (.ofFile fault)
      | .ok () =>
        print ("initialized " ++ path ++ "\n")
        return .ok ()

/-- Runs a command. -/
def execute (name : String) (given : Given) : m (Except Failure Unit) :=
  match name with
  | "init-migration" => initMigration disk print ((given.value? "root").getD ".") given.target
  | _ => do
    print (Snapshot.schemaId ++ "\n")
    return .ok ()

/-- A session with some arguments. -/
def session (arguments : List String) : m Ending := do
  match tool.parse arguments with
  | .error stop => stopped tool print stop
  | .ok (name, given) =>
    match ← execute disk print name given with
    | .ok () => return .done
    | .error f => return .failed (.failure f)

end Blokwork.CommandLine.Tasks
