import Blokwork.Config.Basic
import Blokwork.Generate.Generation
import Blokwork.Migration.Environment
import Blokwork.Path

/-!
# Settings

What a run works with: the choices of the caller, then what is configured, then the defaults.
Configured paths and default paths are seen from the root of the project, paths that the caller
chose are taken as they are.
-/

namespace Blokwork

/-- The caller's choices for a generation. -/
structure GenerateChoices where
  source : Option String := none
  destination : Option String := none
  typePrefix : Option String := none
  typeSuffix : Option String := none
  customTypes : Option String := none
deriving DecidableEq, Repr

/-- The settings of a generation. -/
structure GenerateSettings where
  /-- A file of components, or a directory of such files. -/
  source : String := "components.json"
  /-- Where the artifact goes; without a destination it stays in memory. -/
  destination : Option String := none
  namer : TypeNamer := {}
  /-- A table of types of custom fields. -/
  customTypes : Option String := none
  compile : TypeScript.CompileOptions := {}

/-- The settings of a migration. -/
structure MigrateSettings where
  snapshotDirectory : String
  dryRun : Bool
deriving DecidableEq, Repr

/-- The settings of a rollback. -/
structure RollbackSettings where
  snapshotDirectory : String
  retention : Retention
deriving DecidableEq, Repr

namespace Config

variable (config : Config) (root : String)

/-- The settings of a generation. -/
def generateSettings (choices : GenerateChoices) : GenerateSettings :=
  let default : GenerateSettings := {}
  { source :=
      choices.source.getD (Path.join root (config.generate.source.getD default.source))
    destination := choices.destination.or (config.generate.destination.map (Path.join root))
    namer := {
      namePrefix :=
        (choices.typePrefix.or config.generate.typePrefix).getD default.namer.namePrefix
      nameSuffix :=
        (choices.typeSuffix.or config.generate.typeSuffix).getD default.namer.nameSuffix }
    customTypes := choices.customTypes.or (config.generate.customTypes.map (Path.join root))
    compile := config.generate.compile }

/-- The directory of snapshots. -/
def snapshotDirectory (choice : Option String) : String :=
  choice.getD
    (Path.join root (config.migrate.snapshotDirectory.getD Target.snapshotDirectory))

/-- Where the script file of that name is looked for. -/
def scriptPath (file : String) : String :=
  Path.join (Path.join root (config.migrate.scriptDirectory.getD Target.scriptDirectory)) file

/-- The settings of a migration, which is a dry run unless it is to be applied. -/
def migrateSettings (directory : Option String) (apply : Bool) : MigrateSettings where
  snapshotDirectory := config.snapshotDirectory root directory
  dryRun := !apply

/-- The settings of a rollback; a snapshot that is to be deleted is not kept. -/
def rollbackSettings (directory : Option String) (delete : Bool) : RollbackSettings where
  snapshotDirectory := config.snapshotDirectory root directory
  retention := if delete then .delete else config.migrate.retention

/-- Where the content API is found by default. -/
def defaultBaseUrl : String := "https://mapi.storyblok.com"

/-- The space to talk to; there is no default for it. -/
def credentials (spaceId baseUrl : Option String) : Except Failure Credentials :=
  match spaceId.or config.api.spaceId with
  | none =>
    .error (.ofMessage "no space id: pass --space or set [api] space_id in blokgen.toml")
  | some spaceId =>
    .ok { spaceId, baseUrl := (baseUrl.or config.api.baseUrl).getD defaultBaseUrl }

end Config

end Blokwork
