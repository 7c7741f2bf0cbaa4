import Blokwork.Failure
import Blokwork.Toml.Parser

/-!
# Reading values from TOML text

A domain value is read from a whole text. A text that is no TOML and a text whose values have
the wrong shape are told apart.
-/

namespace Blokwork.Toml

variable {β : Type}

/-- Reads a value from a text; `read` takes it from the table that the text defines. -/
def decode (read : Toml → Shaped β) (text : String) : Except TomlFault β :=
  match parse? text with
  | none => .error .malformed
  | some t => (read t).mapError .mismatched

/-- Reads a value from a text; a fault is a failure within a context. -/
def decodeIn (context : String) (read : Toml → Shaped β) (text : String) : Except Failure β :=
  (decode read text).mapError fun fault => { contexts := [context], cause := .toml fault }

end Blokwork.Toml
