import Blokwork.CommandLine.Tasks
import Std.Time.DateTime.Timestamp

/-!
# The program

Both tools on the disk, the clock and the terminal of the computer. The program links no
network, so every request is one that could not be sent; all that needs no request is done in
full. It is one program under two names: called by the name of the second tool, it is that tool.
-/

namespace Blokwork.Program

/-- What an error of the system says about a file. -/
def faultOf : IO.Error → FileFault
  | .noFileOrDirectory .. | .noSuchThing .. => .notFound
  | .alreadyExists .. => .alreadyExists
  | .unsatisfiedConstraints .. => .directoryNotEmpty
  | .inappropriateType _ code _ => if code = 21 then .isADirectory else .notADirectory
  | .invalidArgument _ code _ => if code = 36 then .nameTooLong else .invalidInput
  | _ => .other

/-- Does something on the disk. -/
def attempt {α : Type} (action : IO α) : IO (Except FileFault α) := do
  match ← action.toBaseIO with
  | .ok a => return .ok a
  | .error e => return .error (faultOf e)

/-- The kind of what a path leads to, if it leads to anything. -/
def kind? (path : String) : IO (Option IO.FS.FileType) := do
  match ← (System.mkFilePath [path]).metadata.toBaseIO with
  | .ok data => return some data.type
  | .error _ => return none

/-- An entry of a directory. -/
def itemOf (directory name : String) : IO DirectoryItem := do
  let kind ← kind? (Path.join directory name)
  return { name, isFile := kind == some .file, isDirectory := kind == some .dir }

/-- The entries of a directory. -/
def itemsOf (directory : String) : IO (List DirectoryItem) := do
  let entries ← (System.mkFilePath [directory]).readDir
  entries.toList.mapM fun entry => itemOf directory entry.fileName

/-- Makes an empty file under a new name. -/
def createFile (path : String) : IO Unit := do
  let _ ← IO.FS.Handle.mk path .writeNew
  return ()

/-- The disk of the computer. -/
def disk : Disk IO where
  isFile path := return (← kind? path) == some .file
  isDirectory path := return (← kind? path) == some .dir
  read path := attempt (IO.FS.readBinFile path)
  items path := attempt (itemsOf path)
  makeDirectories path := attempt (IO.FS.createDirAll path)
  write path contents := attempt (IO.FS.writeBinFile path contents)
  create path := attempt (createFile path)
  remove path := attempt (IO.FS.removeFile path)

/-- Prints a text on the terminal. -/
def print (text : String) : IO Unit := do
  let out ← IO.getStdout
  out.putStr text
  out.flush

/-- Prints a line among the notices. -/
def note (line : String) : IO Unit := IO.eprintln line

/-- The present time. -/
def now : IO Timestamp := do
  let time ← Std.Time.Timestamp.now
  let nanoseconds := time.toNanosecondsSinceUnixEpoch.val
  return ⟨nanoseconds.fdiv 1000000000, (nanoseconds.fmod 1000000000).toNat⟩

/-- Sends no request. -/
def transport : Http.Transport IO := fun _ => return none

/-- The computer. -/
def host : IO (CommandLine.Host IO) := do
  let token ← IO.getEnv "BLOKGEN_OAUTH_TOKEN"
  return { disk, transport, now, print, token, report := fun notice => note notice.line }

/-- Tells how a session ended, and gives its exit code. -/
def finish (ending : CommandLine.Ending) : IO UInt32 := do
  match ending with
  | .done => pure ()
  | .failed e => note ("ERROR " ++ e.messageWith Cause.text)
  | .misused m => note ("error: " ++ m.message)
  return ending.exitCode.toUInt32

/-- Runs the tool that the program is called by. -/
def run (arguments : List String) : IO UInt32 := do
  let name := (← IO.appPath).fileName
  if name == some CommandLine.Tasks.tool.name then
    finish (← CommandLine.Tasks.session disk print arguments)
  else
    finish (← CommandLine.session (← host) arguments)

end Blokwork.Program

/-- The program. -/
def main (arguments : List String) : IO UInt32 := Blokwork.Program.run arguments
