import Blokwork.CommandLine.Options
import Blokwork.Config.Settings

/-!
# Commands

The commands of the tool, with what their options say. The access token is an option, or comes
from the environment.
-/

namespace Blokwork.CommandLine

/-- How a list is printed. -/
inductive OutputFormat where
  | text
  | json
deriving DecidableEq, Repr

/-- How the content API is reached. -/
structure Access where
  token : Option String := none
  spaceId : Option String := none
  baseUrl : Option String := none
deriving DecidableEq, Repr

/-- What is to be done. -/
inductive Action where
  /-- Generate the artifact, or only check the one that exists. -/
  | generate (choices : GenerateChoices) (check : Bool)
  /-- Migrate, or only report what would change. -/
  | migrate (target : Target) (script : Option String) (apply : Bool)
      (directory : Option String) (access : Access)
  /-- Undo a migration. -/
  | rollback (target : Target) (delete : Bool) (directory : Option String) (access : Access)
  /-- List the snapshots. -/
  | listSnapshots (directory : Option String) (format : OutputFormat)
deriving DecidableEq, Repr

/-- A command with the options that all commands have. -/
structure Command where
  root : String
  config : Option String
  action : Action
deriving DecidableEq, Repr

/-- The options that name a target. -/
def targetOptions : List ValueSpec :=
  [⟨"component", true, none⟩, ⟨"field", true, none⟩]

/-- The options that say how the content API is reached. -/
def accessOptions : List ValueSpec :=
  [⟨"token", false, none⟩, ⟨"space", false, none⟩, ⟨"base-url", false, none⟩]

/-- The option that names the directory of snapshots. -/
def directoryOption : ValueSpec := ⟨"rollback-dir", false, none⟩

/-- The tool. -/
def tool : ToolSpec where
  name := "blokgen"
  version := some "0.1.0"
  options := { flags := [⟨"verbose", some 'v'⟩]
               values := [⟨"root", false, none⟩, ⟨"config", false, none⟩] }
  commands := [
    { name := "generate"
      options := {
        flags := [⟨"check", none⟩]
        values := ["source", "destination", "prefix", "suffix", "custom-field-types"].map
          fun name => ⟨name, false, none⟩ } },
    { name := "migrate"
      options := {
        flags := [⟨"apply", none⟩]
        values := targetOptions ++ [⟨"script", false, none⟩, directoryOption] ++ accessOptions } },
    { name := "rollback"
      options := {
        flags := [⟨"delete", none⟩]
        values := targetOptions ++ [directoryOption] ++ accessOptions } },
    { name := "list-rollbacks"
      options := { values := [directoryOption, ⟨"format", false, some ["text", "json"]⟩] } }]

namespace Given

variable (given : Given)

/-- The value of an option. -/
def value? (name : String) : Option String := Dict.get? given.values name

/-- A flag is set. -/
def hasFlag (name : String) : Bool := given.flags.contains name

/-- The target that the options name. -/
def target : Target :=
  ⟨(given.value? "component").getD "", (given.value? "field").getD ""⟩

/-- How the content API is reached; `token` comes from the environment. -/
def access (token : Option String) : Access where
  token := (given.value? "token").or token
  spaceId := given.value? "space"
  baseUrl := given.value? "base-url"

/-- The choices for a generation. -/
def choices : GenerateChoices where
  source := given.value? "source"
  destination := given.value? "destination"
  typePrefix := given.value? "prefix"
  typeSuffix := given.value? "suffix"
  customTypes := given.value? "custom-field-types"

end Given

/-- The action of the command of that name. -/
def Action.ofGiven (token : Option String) (name : String) (given : Given) : Action :=
  match name with
  | "migrate" =>
    .migrate given.target (given.value? "script") (given.hasFlag "apply")
      (given.value? "rollback-dir") (given.access token)
  | "rollback" =>
    .rollback given.target (given.hasFlag "delete") (given.value? "rollback-dir")
      (given.access token)
  | "list-rollbacks" =>
    .listSnapshots (given.value? "rollback-dir")
      (if given.value? "format" = some "json" then .json else .text)
  | _ => .generate given.choices (given.hasFlag "check")

/-- The command of some arguments; `token` comes from the environment. -/
def Command.parse (token : Option String) (arguments : List String) : Except Stop Command :=
  (tool.parse arguments).map fun (name, given) =>
    { root := (given.value? "root").getD "."
      config := given.value? "config"
      action := .ofGiven token name given }

end Blokwork.CommandLine
