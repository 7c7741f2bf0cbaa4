import Blokwork.Content.Entry
import Blokwork.Json.Record
import Blokwork.Json.Stream
import Blokwork.Migration.Target
import Blokwork.Timestamp

/-!
# Snapshots

A snapshot holds the entries that a migration is about to change, as they were before. It is
written once, before the first push, as indented JSON. It is read back from that text, with
any fault found in text order; it can also be read from a JSON value.
-/

namespace Blokwork

/-- The entries of a migration as they were before it. -/
structure Snapshot where
  schema : Option String := none
  component : String
  field : Option String := none
  created : Bool := false
  createdAt : Option Timestamp := none
  entries : List Entry := []
deriving DecidableEq, Repr

namespace Snapshot

/-- The identifier of the format. -/
def schemaId : String := "blokgen.rollback.v1"

/-- The snapshot of some entries, taken now. -/
def take (target : Target) (now : Timestamp) (entries : List Entry) : Snapshot where
  schema := some schemaId
  component := target.component
  field := some target.field
  created := true
  createdAt := some now
  entries := entries

/-- A member that is left out when there is no value. -/
def optionalMember (key : String) (value : Option Json) : List (String × Json) :=
  match value with
  | none => []
  | some j => [(key, j)]

/-- The snapshot as an object; what is absent is left out. -/
def toJson (s : Snapshot) : Json :=
  .obj (optionalMember "schema" (s.schema.map .str)
    ++ [("component", .str s.component)]
    ++ optionalMember "field" (s.field.map .str)
    ++ [("created", .bool s.created)]
    ++ optionalMember "created_at" (s.createdAt.map fun t => .str t.text)
    ++ [("entries", .arr (s.entries.map Entry.doc))])

/-- The text of a snapshot. -/
def text (s : Snapshot) : String := s.toJson.pretty

/-- A timestamp as a string. -/
def asTimestamp (j : Json) : Shaped Timestamp :=
  match j with
  | .str s => (Timestamp.parse s).mapError fun fault => .other fault.message
  | _ => Datum.unexpected j "an RFC 3339 formatted date and time string"

/-- The fields of a snapshot. -/
def shape : RecordShape Json Snapshot where
  title := "struct RollbackSnapshot"
  fields := [
    ⟨"schema", false, fun j s => return { s with schema := ← Datum.asOption Datum.asString j }⟩,
    ⟨"component", true, fun j s => return { s with component := ← Datum.asString j }⟩,
    ⟨"field", false, fun j s => return { s with field := ← Datum.asOption Datum.asString j }⟩,
    ⟨"created", false, fun j s => return { s with created := ← Datum.asBool j }⟩,
    ⟨"created_at", false, fun j s =>
      return { s with createdAt := ← Datum.asOption asTimestamp j }⟩,
    ⟨"entries", false,
      fun j s => return { s with entries := ← Datum.asList (fun j => .ok ⟨j⟩) j }⟩]

/-- Reads a snapshot from a JSON value. -/
def ofJson (j : Json) : Shaped Snapshot := shape.read { component := "" } j

/-- A timestamp in a text. -/
def timestamp (cs : List Char) : Except TextFault (Timestamp × List Char) := do
  let (s, rest) ← TextField.string cs
  match Timestamp.parse s with
  | .ok t => return (t, rest)
  | .error _ => .error .mismatched

/-- The fields of a snapshot in a text. -/
def record : TextRecord Snapshot := [
  ⟨"schema", false, fun _ cs s =>
    (TextField.optional TextField.string cs).map fun (v, rest) => ({ s with schema := v }, rest)⟩,
  ⟨"component", true, fun _ cs s =>
    (TextField.string cs).map fun (v, rest) => ({ s with component := v }, rest)⟩,
  ⟨"field", false, fun _ cs s =>
    (TextField.optional TextField.string cs).map fun (v, rest) => ({ s with field := v }, rest)⟩,
  ⟨"created", false, fun _ cs s =>
    (TextField.boolean cs).map fun (v, rest) => ({ s with created := v }, rest)⟩,
  ⟨"created_at", false, fun _ cs s =>
    (TextField.optional timestamp cs).map fun (v, rest) => ({ s with createdAt := v }, rest)⟩,
  ⟨"entries", false, fun room cs s =>
    (TextField.values room cs).map fun (v, rest) => ({ s with entries := v.map Entry.mk }, rest)⟩]

/-- Reads a snapshot from its text. -/
def parse (text : String) : Except TextFault Snapshot :=
  record.parse { component := "" } text

/-- Reads a snapshot from the bytes of its text. -/
def ofBytes (bytes : ByteArray) : Except TextFault Snapshot := parseBytes parse bytes

end Snapshot

end Blokwork
