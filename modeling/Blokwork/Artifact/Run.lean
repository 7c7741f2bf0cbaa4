import Blokwork.Artifact.Outcome
import Blokwork.Config.Settings
import Blokwork.Files.Loading

/-!
# Generation runs

A run of the generator: the components and the table of custom fields are loaded, the artifact
is generated, and it is written whole if there is a destination.
-/

namespace Blokwork

variable {m : Type → Type} [Monad m]

namespace Outcome

/-- The outcome for the components that `load` finds. Types of custom fields that the caller
gives take the place of the table in the settings. -/
def run (disk : Disk m) (report : Notice → m Unit) (settings : GenerateSettings)
    (load : m (Except Failure ComponentSet)) (custom : Option CustomTypes) :
    m (Except Failure Outcome) := do
  match inContext "load component schemas" (← load) with
  | .error f => return .error f
  | .ok set =>
    let table ←
      match custom, settings.customTypes with
      | some types, _ => pure (.ok (some types))
      | none, none => pure (.ok none)
      | none, some path =>
        pure ((inContext "load custom field types" (← PluginTable.load disk path)).map
          fun table => some table.types)
    match table with
    | .error f => return .error f
    | .ok custom =>
      let outcome :=
        ofComponents { namer := settings.namer, compile := settings.compile, custom } set
      outcome.notices.forM report
      return .ok outcome

/-- Writes the artifact to its destination; the result is the path, if there is one. -/
def write (disk : Disk m) (settings : GenerateSettings) (outcome : Outcome) :
    m (Except Failure (Option String)) := do
  match settings.destination with
  | none => return .ok none
  | some path =>
    return (← disk.writeWhole path outcome.artifact.toUTF8).map fun () => some path

end Outcome

end Blokwork
