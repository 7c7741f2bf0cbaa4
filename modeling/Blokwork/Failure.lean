import Blokwork.Json.Numeral
import Blokwork.Json.Shape

/-!
# Failures

A failure of the outer operations is a chain of contexts around a cause, told from the outside
in. A cause is either a text of this library or comes from outside: from the file system, from
a text that is no JSON or no TOML, or from the network. How an outside cause is worded is left
to a parameter; `Cause.text` is the wording used by default.
-/

namespace Blokwork

/-- Why the file system refused an operation. -/
inductive FileFault where
  | notFound
  | isADirectory
  | notADirectory
  | directoryNotEmpty
  | alreadyExists
  | invalidInput
  | invalidData
  | nameTooLong
  | other
deriving DecidableEq, Repr

/-- Why a TOML text was refused: it is no TOML, or its values have the wrong shape. -/
inductive TomlFault where
  | malformed
  | mismatched (mismatch : Mismatch)
deriving DecidableEq, Repr

/-- The innermost cause of a failure. -/
inductive Cause where
  | message (text : String)
  | file (fault : FileFault)
  | json (fault : TextFault)
  | toml (fault : TomlFault)
  | network
deriving DecidableEq, Repr

/-- A chain of contexts, the outermost first, around a cause. -/
structure Failure where
  contexts : List String := []
  cause : Cause
deriving DecidableEq, Repr

/-- The wording of a refusal by the file system. -/
def FileFault.text : FileFault → String
  | .notFound => "no such file or directory"
  | .isADirectory => "is a directory"
  | .notADirectory => "not a directory"
  | .directoryNotEmpty => "directory not empty"
  | .alreadyExists => "file exists"
  | .invalidInput => "invalid file name"
  | .invalidData => "the contents are not text"
  | .nameTooLong => "file name too long"
  | .other => "input or output failed"

/-- The wording of a refused JSON text. -/
def TextFault.text : TextFault → String
  | .ended => "the JSON text ends early"
  | .malformed => "malformed JSON text"
  | .mismatched => "unexpected JSON value"

/-- The wording of a cause. -/
def Cause.text : Cause → String
  | .message text => text
  | .file fault => fault.text
  | .json fault => fault.text
  | .toml .malformed => "malformed TOML text"
  | .toml (.mismatched m) => m.message
  | .network => "the request could not be sent"

namespace Failure

/-- A failure with a text of this library as its cause. -/
def ofMessage (text : String) : Failure := { cause := .message text }

/-- A failure of the file system. -/
def ofFile (fault : FileFault) : Failure := { cause := .file fault }

/-- The failure inside one more context. -/
def within (context : String) (f : Failure) : Failure :=
  { f with contexts := context :: f.contexts }

/-- The chain from the outside in, with `wording` for the cause. -/
def textWith (wording : Cause → String) (f : Failure) : String :=
  String.intercalate ": " (f.contexts ++ [wording f.cause])

/-- The chain from the outside in. -/
def text (f : Failure) : String := f.textWith Cause.text

end Failure

/-- The result with one more context around a failure. -/
def inContext {α : Type} (context : String) (result : Except Failure α) : Except Failure α :=
  result.mapError (Failure.within context)

end Blokwork
