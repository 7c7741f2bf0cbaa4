import Blokwork.Artifact.Basic
import Blokwork.Artifact.Digest
import Blokwork.Artifact.Outcome
import Blokwork.Artifact.Reader
import Blokwork.Artifact.Run
import Blokwork.CommandLine.Command
import Blokwork.CommandLine.Options
import Blokwork.CommandLine.Session
import Blokwork.CommandLine.Tasks
import Blokwork.Config.Basic
import Blokwork.Config.Settings
import Blokwork.Content.Entry
import Blokwork.Dict
import Blokwork.Failure
import Blokwork.Files.Disk
import Blokwork.Files.Loading
import Blokwork.Files.Pattern
import Blokwork.Files.Search
import Blokwork.Files.SnapshotDirectory
import Blokwork.Files.Tree
import Blokwork.Files.Workspace
import Blokwork.Generate.ComponentType
import Blokwork.Generate.FieldFragment
import Blokwork.Generate.Generation
import Blokwork.Generate.HelperType
import Blokwork.Generate.PluginTable
import Blokwork.Generate.Roster
import Blokwork.Generate.TypeName
import Blokwork.Http.Client
import Blokwork.Http.Message
import Blokwork.Http.Status
import Blokwork.Json.Basic
import Blokwork.Json.Numeral
import Blokwork.Json.Parser
import Blokwork.Json.Printer
import Blokwork.Json.Record
import Blokwork.Json.Shape
import Blokwork.Json.Stream
import Blokwork.Main
import Blokwork.Migration.Batch
import Blokwork.Migration.Environment
import Blokwork.Migration.Error
import Blokwork.Migration.Memory
import Blokwork.Migration.RetentionReader
import Blokwork.Migration.Rollback
import Blokwork.Migration.Script
import Blokwork.Migration.ScriptFile
import Blokwork.Migration.ScriptReader
import Blokwork.Migration.Snapshot
import Blokwork.Migration.Target
import Blokwork.Notice
import Blokwork.Number.Binary64
import Blokwork.Number.Shortest
import Blokwork.Path
import Blokwork.Schema.Component
import Blokwork.Schema.ComponentSet
import Blokwork.Schema.Json
import Blokwork.Text.Blank
import Blokwork.Text.Difference
import Blokwork.Text.Lines
import Blokwork.Text.Printable
import Blokwork.Text.Quoted
import Blokwork.Timestamp
import Blokwork.Toml.Basic
import Blokwork.Toml.Document
import Blokwork.Toml.Parser
import Blokwork.Toml.Quoted
import Blokwork.Toml.Scalar
import Blokwork.Toml.Tree
import Blokwork.TypeScript.Comment
import Blokwork.TypeScript.CompileError
import Blokwork.TypeScript.Declaration
import Blokwork.TypeScript.Identifier
import Blokwork.TypeScript.OfSchema
import Blokwork.TypeScript.Options
import Blokwork.TypeScript.TypeExpr
import Blokwork.Proofs.Json.RoundTrip
import Blokwork.Proofs.Json.Reading
import Blokwork.Proofs.Migration.SnapshotText
import Blokwork.Proofs.Migration.Space
import Blokwork.Proofs.Migration.BatchSteps
import Blokwork.Proofs.Migration.Restoring
import Blokwork.Proofs.Migration.CrashRecovery
import Blokwork.Proofs.Migration.Concurrency
import Blokwork.Proofs.Migration.Journal
import Blokwork.Proofs.Migration.Ownership
import Blokwork.Proofs.Migration.Coverage
import Blokwork.Proofs.Migration.Exits
import Blokwork.Proofs.Migration.Replay
import Blokwork.Proofs.TypeScript.Grammar
import Blokwork.Proofs.TypeScript.Printing
import Blokwork.Proofs.TypeScript.Meaning
import Blokwork.Proofs.TypeScript.EmptyTexts
import Blokwork.Proofs.TypeScript.Errors
import Blokwork.Proofs.TypeScript.Names
import Blokwork.Proofs.Generate.Fragments
import Blokwork.Proofs.Generate.Interface
import Blokwork.Proofs.Generate.Acceptance
import Blokwork.Proofs.Generate.Run
import Blokwork.Proofs.Generate.TypeNames
import Blokwork.Proofs.Generate.References
import Blokwork.Proofs.Generate.Placement
import Blokwork.Proofs.Generate.AllowedComponents
import Blokwork.Proofs.Migration.DryRun
import Blokwork.Proofs.Migration.Retrying
import Blokwork.Proofs.Json.Record
import Blokwork.Proofs.Schema.NormalForm
import Blokwork.Proofs.Json.Objects
import Blokwork.Proofs.Json.Places
import Blokwork.Proofs.Content.Visits
import Blokwork.Proofs.Migration.ScriptVisits
import Blokwork.Proofs.Migration.Repetition
import Blokwork.Proofs.Migration.Filtering
import Blokwork.Proofs.Text.Lines
import Blokwork.Proofs.TypeScript.Layout
import Blokwork.Proofs.Artifact.Concatenation
import Blokwork.Proofs.Files.Tree
import Blokwork.Proofs.Files.Operations
import Blokwork.Proofs.Files.SnapshotDirectory
import Blokwork.Proofs.Files.Interchange
import Blokwork.Proofs.Migration.OnDisk
import Blokwork.Proofs.Generate.Structure
import Blokwork.Proofs.Schema.ComponentSet
import Blokwork.Proofs.Files.Pattern
import Blokwork.Proofs.Files.Search
import Blokwork.Proofs.Files.Loading
import Blokwork.Proofs.Http.Listing
import Blokwork.Proofs.Generate.Namesakes
import Blokwork.Proofs.Toml.Keys
import Blokwork.Proofs.Migration.ScriptValues
import Blokwork.Proofs.TypeScript.Culprits
import Blokwork.Proofs.Text.Search
import Blokwork.Proofs.TypeScript.Headers
import Blokwork.Proofs.TypeScript.PropertyLines
import Blokwork.Proofs.Generate.Lines
import Blokwork.Proofs.Artifact.Reading
import Blokwork.Proofs.TypeScript.Comment
import Blokwork.Proofs.TypeScript.Forms
