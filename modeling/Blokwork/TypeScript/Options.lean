import Blokwork.Json.Record
import Blokwork.TypeScript.OfSchema

/-!
# Reading compile options

The options of the compiler as a record: every field may be absent, the banner may be `null`.
-/

namespace Blokwork.TypeScript.CompileOptions

variable {α : Type} [Datum α]

/-- The fields of the options. -/
def shape : RecordShape α CompileOptions where
  title := "struct CompileOptions"
  fields := [
    ⟨"additional_properties", false,
      fun a o => return { o with additionalProperties := ← Datum.asBool a }⟩,
    ⟨"banner_comment", false,
      fun a o => return { o with bannerComment := ← Datum.asOption Datum.asString a }⟩,
    ⟨"indent", false, fun a o => return { o with indent := ← Datum.asNat a }⟩,
    ⟨"unknown_any", false, fun a o => return { o with unknownAny := ← Datum.asBool a }⟩]

/-- Reads compile options; what is absent has its default. -/
def ofDatum (a : α) : Shaped CompileOptions := shape.read {} a

end Blokwork.TypeScript.CompileOptions
