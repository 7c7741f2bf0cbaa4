import Blokwork.Artifact.Run
import Blokwork.CommandLine.Command
import Blokwork.Files.SnapshotDirectory
import Blokwork.Http.Client
import Blokwork.Migration.Rollback

/-!
# Sessions

What the commands do, given a host: a disk, a network, a clock, and places for output and
notices. A session ends well, fails with an error, gives the information that was asked for, or
refuses arguments that it does not understand; each end has an exit code.
-/

namespace Blokwork.CommandLine

/-- What a session works on. -/
structure Host (m : Type → Type) where
  disk : Disk m
  transport : Http.Transport m
  now : m Timestamp
  /-- Prints a text. -/
  print : String → m Unit
  /-- Takes note of something. -/
  report : Notice → m Unit
  /-- The access token of the environment. -/
  token : Option String

/-- Why a command failed. -/
inductive RunError where
  | migration (error : MigrationError)
  /-- The destination differs from the artifact. -/
  | drift (path : String)
  | failure (failure : Failure)
deriving DecidableEq, Repr

namespace RunError

/-- The wording of an error, with `wording` for causes from outside. -/
def messageWith (wording : Cause → String) : RunError → String
  | .migration e => e.messageWith wording
  | .drift path => path ++ " is out of date; run `blokgen generate` to refresh it"
  | .failure f => f.textWith wording

/-- The exit code of a program that stopped with the error. -/
def exitCode : RunError → Nat
  | .migration e => e.exitCode
  | .drift _ => 2
  | .failure _ => 1

end RunError

/-- The result of a command. -/
abbrev Run (α : Type) := Except RunError α

variable {m : Type → Type} [Monad m] (host : Host m)

/-- The client of the content API. -/
def clientOf (config : Config) (access : Access) : Except Failure (Http.Client m) := do
  let credentials ← config.credentials access.spaceId access.baseUrl
  match access.token with
  | none => .error (.ofMessage "no OAuth token: pass --token or set BLOKGEN_OAUTH_TOKEN")
  | some token => return .ofCredentials credentials token host.transport

/-- The store of snapshots in a directory. -/
def storeOf (directory : String) : SnapshotStore m :=
  (SnapshotDirectory.mk host.disk directory host.report).store

/-- What a migration works on. -/
def environmentOf (client : Http.Client m) (directory : String) : MigrationEnvironment m where
  api := client.api
  store := storeOf host directory
  report := host.report
  now := host.now

/-! ## Generation -/

/-- Compares the artifact with what exists at its destination, and prints the difference. -/
def checkArtifact (settings : GenerateSettings) (outcome : Outcome) : m (Run Unit) := do
  match settings.destination with
  | none =>
    return .error (.failure (.ofMessage
      "--check needs a destination (--destination or [generate] destination_file_path)"))
  | some path =>
    let existing ←
      if ← host.disk.holds path then
        pure (fileResult ("read " ++ path) (← host.disk.readText path))
      else pure (.ok "")
    match existing with
    | .error f => return .error (.failure f)
    | .ok existing =>
      match Artifact.drift? outcome.artifact existing with
      | none => return .ok ()
      | some difference =>
        host.print difference
        return .error (.drift path)

/-- Writes the artifact to its destination, or prints it. -/
def deliverArtifact (settings : GenerateSettings) (outcome : Outcome) : m (Run Unit) := do
  match ← outcome.write host.disk settings with
  | .error f => return .error (.failure f)
  | .ok (some _) => return .ok ()
  | .ok none =>
    host.print outcome.artifact
    return .ok ()

/-- Generates the artifact. -/
def generate (settings : GenerateSettings) (check : Bool) : m (Run Unit) := do
  let load := ComponentSet.load host.disk host.report settings.source
  match ← Outcome.run host.disk host.report settings load none with
  | .error f => return .error (.failure f)
  | .ok outcome =>
    if outcome.isIncomplete then
      host.report (.incomplete outcome.failures.length outcome.rejected.length)
    if check then checkArtifact host settings outcome else deliverArtifact host settings outcome

/-! ## Migration -/

/-- The lines that tell of a migration. -/
def migrationLines (report : MigrationReport) : List String :=
  match report.state, report.snapshotFile with
  | .pending, _ =>
    ["dry-run: " ++ report.changed.length.repr ++ " of " ++ report.fetched.repr
      ++ " entries would change for " ++ report.target.display]
      ++ report.changed.map ("  " ++ ·)
      ++ (if report.changed.isEmpty then []
        else ["Re-run with --apply to snapshot and push these entries."])
  | _, some file =>
    ["migrated " ++ report.target.display ++ ": pushed " ++ report.pushed.repr ++ " of "
      ++ report.fetched.repr ++ " entries (rollback snapshot " ++ file ++ ")"]
  | _, none => ["nothing to migrate for " ++ report.target.display]

/-- Prints lines. -/
def printLines : List String → m Unit
  | [] => return ()
  | line :: rest => do
    host.print (line ++ "\n")
    printLines rest

/-- Migrates the entries of a target by its script. -/
def migrate (config : Config) (root : String) (target : Target) (script : Option String)
    (settings : MigrateSettings) (access : Access) : m (Run Unit) := do
  let path := script.getD (config.scriptPath root target.scriptFile)
  match ← Script.load host.disk target path with
  | .error f => return .error (.failure f)
  | .ok script =>
    match clientOf host config access with
    | .error f => return .error (.failure f)
    | .ok client =>
      let job : Job := { target, transform := script.transform, dryRun := settings.dryRun }
      match ← job.run (environmentOf host client settings.snapshotDirectory) with
      | .error e => return .error (.migration e)
      | .ok report =>
        printLines host (migrationLines report)
        return .ok ()

/-- The lines that tell of a rollback. -/
def rollbackLines (report : RollbackReport) : List String :=
  ["restored " ++ report.restored.repr ++ " entries for " ++ report.target.display ++ " from "
    ++ String.intercalate ", " report.files]
    ++ (if report.removed then ["snapshot removed"] else [])

/-- Restores the entries of a target. -/
def undo (config : Config) (target : Target) (settings : RollbackSettings) (access : Access) :
    m (Run Unit) := do
  match clientOf host config access with
  | .error f => return .error (.failure f)
  | .ok client =>
    let env := environmentOf host client settings.snapshotDirectory
    match ← rollback env target settings.retention with
    | .error e => return .error (.migration e)
    | .ok report =>
      printLines host (rollbackLines report)
      return .ok ()

/-- The lines that list the snapshots in a directory. -/
def listingLines (directory : String) (format : OutputFormat) (files : List String) :
    List String :=
  match format with
  | .json => [(Json.strings files).pretty]
  | .text => if files.isEmpty then ["No rollback snapshots in " ++ directory] else files

/-- Lists the snapshots in a directory. -/
def listDirectory (directory : String) (format : OutputFormat) : m (Run Unit) := do
  match ← listSnapshots (storeOf host directory) with
  | .error f => return .error (.failure f)
  | .ok files =>
    printLines host (listingLines directory format files)
    return .ok ()

/-! ## Commands -/

/-- Does what is to be done. -/
def perform (config : Config) (root : String) : Action → m (Run Unit)
  | .generate choices check => generate host (config.generateSettings root choices) check
  | .migrate target script apply directory access =>
    migrate host config root target script (config.migrateSettings root directory apply) access
  | .rollback target delete directory access =>
    undo host config target (config.rollbackSettings root directory delete) access
  | .listSnapshots directory format =>
    listDirectory host (config.snapshotDirectory root directory) format

/-- The configuration of a command. -/
def configOf (command : Command) : m (Except Failure Config) :=
  match command.config with
  | some path => Config.load host.disk path
  | none => inContext "load blokgen.toml config" <$> Config.loadProject host.disk command.root

/-- Runs a command. -/
def execute (command : Command) : m (Run Unit) := do
  match ← configOf host command with
  | .error f => return .error (.failure f)
  | .ok config => perform host config command.root command.action

/-- How a session ended. -/
inductive Ending where
  | done
  | failed (error : RunError)
  | misused (misuse : Misuse)
deriving DecidableEq, Repr

/-- The exit code of a session. -/
def Ending.exitCode : Ending → Nat
  | .done => 0
  | .failed e => e.exitCode
  | .misused _ => 2

/-- How a tool is used. -/
def ToolSpec.usage (tool : ToolSpec) : String :=
  "Usage: " ++ tool.name ++ " [OPTIONS] <COMMAND>\n\nCommands:\n"
    ++ String.join (tool.commands.map fun c => "  " ++ c.name ++ "\n")

/-- Ends a session that runs no command. -/
def stopped (tool : ToolSpec) (print : String → m Unit) : Stop → m Ending
  | .version => do
    print (tool.name ++ " " ++ tool.version.getD "" ++ "\n")
    return .done
  | .help => do
    print tool.usage
    return .done
  | .misuse misuse => return .misused misuse

/-- A session with some arguments. -/
def session (arguments : List String) : m Ending := do
  match Command.parse host.token arguments with
  | .error stop => stopped tool host.print stop
  | .ok command =>
    match ← execute host command with
    | .ok () => return .done
    | .error e => return .failed e

end Blokwork.CommandLine
