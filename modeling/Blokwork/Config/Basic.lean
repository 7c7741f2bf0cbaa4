import Blokwork.Migration.RetentionReader
import Blokwork.Toml.Document
import Blokwork.TypeScript.Options

/-!
# Configuration

The configuration file of a project, a TOML text with a section for each area of work. What is
not configured is left to the settings. Sections that are not known are refused; keys that are
not known within a section are passed over.
-/

namespace Blokwork

/-- What is configured about the generation of types. -/
structure GenerateSection where
  source : Option String := none
  destination : Option String := none
  typePrefix : Option String := none
  typeSuffix : Option String := none
  customTypes : Option String := none
  compile : TypeScript.CompileOptions := {}
deriving DecidableEq, Repr

/-- What is configured about migrations and rollbacks. -/
structure MigrateSection where
  snapshotDirectory : Option String := none
  scriptDirectory : Option String := none
  retention : Retention := .keep
deriving DecidableEq, Repr

/-- What is configured about the content API. -/
structure ApiSection where
  spaceId : Option String := none
  baseUrl : Option String := none
deriving DecidableEq, Repr

/-- A configuration. -/
structure Config where
  generate : GenerateSection := {}
  migrate : MigrateSection := {}
  api : ApiSection := {}
deriving DecidableEq, Repr

namespace Config

/-- The name of the configuration file. -/
def fileName : String := "blokgen.toml"

/-- A path. -/
def asPath (t : Toml) : Shaped String :=
  match t with
  | .str s => .ok s
  | _ => Datum.unexpected t "a UTF-8 path string"

/-- The fields of the section on generation. -/
def generateShape : RecordShape Toml GenerateSection where
  title := "struct GenerateConfig"
  fields := [
    ⟨"source", false, fun t s => return { s with source := some (← asPath t) }⟩,
    ⟨"destination_file_path", false,
      fun t s => return { s with destination := some (← asPath t) }⟩,
    ⟨"type_names_prefix", false,
      fun t s => return { s with typePrefix := some (← Datum.asString t) }⟩,
    ⟨"type_names_suffix", false,
      fun t s => return { s with typeSuffix := some (← Datum.asString t) }⟩,
    ⟨"custom_field_types_parser_path", false,
      fun t s => return { s with customTypes := some (← asPath t) }⟩,
    ⟨"compiler", false,
      fun t s => return { s with compile := ← TypeScript.CompileOptions.ofDatum t }⟩]

/-- The fields of the section on migrations. -/
def migrateShape : RecordShape Toml MigrateSection where
  title := "struct MigrateConfig"
  fields := [
    ⟨"rollback_dir", false, fun t s => return { s with snapshotDirectory := some (← asPath t) }⟩,
    ⟨"scripts_dir", false, fun t s => return { s with scriptDirectory := some (← asPath t) }⟩,
    ⟨"retention", false, fun t s => return { s with retention := ← Retention.ofToml t }⟩]

/-- The fields of the section on the content API. -/
def apiShape : RecordShape Toml ApiSection where
  title := "struct ApiConfig"
  fields := [
    ⟨"space_id", false, fun t s => return { s with spaceId := some (← Datum.asString t) }⟩,
    ⟨"base_url", false, fun t s => return { s with baseUrl := some (← Datum.asString t) }⟩]

/-- The names of the sections. -/
def sectionNames : List String := ["generate", "migrate", "api"]

/-- Enters a section into a configuration. -/
def enter (config : Config) (name : String) (t : Toml) : Shaped Config :=
  match name with
  | "generate" => return { config with generate := ← generateShape.read {} t }
  | "migrate" => return { config with migrate := ← migrateShape.read {} t }
  | "api" => return { config with api := ← apiShape.read {} t }
  | _ => .error (.unknownField name sectionNames)

/-- Reads a configuration from a table. -/
def ofToml (t : Toml) : Shaped Config :=
  (Datum.members t).foldlM (fun config (name, t) => config.enter name t) {}

/-- Reads a configuration from the text of its file. -/
def parse (text : String) : Except Failure Config :=
  Toml.decodeIn "invalid TOML" ofToml text

end Config

end Blokwork
