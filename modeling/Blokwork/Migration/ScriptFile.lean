import Blokwork.Migration.ScriptReader
import Blokwork.Toml.Document

/-!
# Script files

A script file is a TOML text with the operations of a script under `ops`; other keys are passed
over.
-/

namespace Blokwork

namespace ScriptOp

/-- The only field of a script file. -/
def fileShape : RecordShape Toml (List ScriptOp) where
  title := "struct ScriptFile"
  fields := [⟨"ops", false, fun t _ => listOf Toml.toJson t⟩]

/-- Reads the operations of a script file. -/
def listOfFile (text : String) : Except Failure (List ScriptOp) :=
  Toml.decodeIn "parse migration script" (fileShape.read []) text

end ScriptOp

/-- Reads the script for a target from the text of its file. -/
def Script.parse (target : Target) (text : String) : Except Failure Script :=
  (ScriptOp.listOfFile text).map (⟨target, ·⟩)

end Blokwork
