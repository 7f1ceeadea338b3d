import AtomLog.Annotation.Basic
import AtomLog.Annotation.Registry
import AtomLog.Atom.Basic
import AtomLog.Atom.Catalog
import AtomLog.Atom.Selection
import AtomLog.Bits
import AtomLog.Collation.Basic
import AtomLog.Collation.Defect
import AtomLog.Collation.FieldType
import AtomLog.Collation.Fields
import AtomLog.CommandLine.Arguments
import AtomLog.CommandLine.Flag
import AtomLog.CommandLine.Run
import AtomLog.Config.Basic
import AtomLog.Config.Document
import AtomLog.Config.Plan
import AtomLog.Decimal.Binary
import AtomLog.Decimal.Shortest
import AtomLog.Descriptor.Check
import AtomLog.Descriptor.Content
import AtomLog.Descriptor.Declaration
import AtomLog.Descriptor.Default
import AtomLog.Descriptor.File
import AtomLog.Descriptor.Files
import AtomLog.Descriptor.Merge
import AtomLog.Descriptor.MessageType
import AtomLog.Descriptor.Name
import AtomLog.Descriptor.Options
import AtomLog.Descriptor.Pool
import AtomLog.Descriptor.Reader
import AtomLog.Descriptor.Schema
import AtomLog.Descriptor.Standard
import AtomLog.Descriptor.Types
import AtomLog.Descriptor.Wire
import AtomLog.Document.Basic
import AtomLog.Document.Fit
import AtomLog.Document.Misfit
import AtomLog.Document.Text
import AtomLog.Emit.Context
import AtomLog.Emit.Event
import AtomLog.Emit.Java
import AtomLog.Emit.Jni
import AtomLog.Emit.Native
import AtomLog.Emit.Rust
import AtomLog.FieldType
import AtomLog.Files.Disk
import AtomLog.Files.Path
import AtomLog.Generate.Render
import AtomLog.Generate.Report
import AtomLog.Generate.Run
import AtomLog.Json.Number
import AtomLog.Json.Reader
import AtomLog.Main
import AtomLog.Naming
import AtomLog.Proofs.Acceptance
import AtomLog.Proofs.AttributionNodes
import AtomLog.Proofs.Bindings
import AtomLog.Proofs.Buckets
import AtomLog.Proofs.CamelCase
import AtomLog.Proofs.Catalog
import AtomLog.Proofs.ClosedSchemas
import AtomLog.Proofs.Collated
import AtomLog.Proofs.Columns
import AtomLog.Proofs.CommentLines
import AtomLog.Proofs.Constants
import AtomLog.Proofs.Delegates
import AtomLog.Proofs.DocComments
import AtomLog.Proofs.Draft
import AtomLog.Proofs.EnumConstants
import AtomLog.Proofs.EventLines
import AtomLog.Proofs.Events
import AtomLog.Proofs.Extensions
import AtomLog.Proofs.FieldDefects
import AtomLog.Proofs.FlatCalls
import AtomLog.Proofs.Flaws
import AtomLog.Proofs.HeaderSource
import AtomLog.Proofs.InfoTables
import AtomLog.Proofs.Items
import AtomLog.Proofs.Layers
import AtomLog.Proofs.LeadingTags
import AtomLog.Proofs.Lookups
import AtomLog.Proofs.Meanings
import AtomLog.Proofs.OptionDocs
import AtomLog.Proofs.OptionLists
import AtomLog.Proofs.OptionTables
import AtomLog.Proofs.Outcomes
import AtomLog.Proofs.Overloads
import AtomLog.Proofs.Plans
import AtomLog.Proofs.Rearrangement
import AtomLog.Proofs.Renumbering
import AtomLog.Proofs.Runs
import AtomLog.Proofs.Selections
import AtomLog.Proofs.SignatureNames
import AtomLog.Proofs.StateMarks
import AtomLog.Proofs.StateResets
import AtomLog.Proofs.StateValues
import AtomLog.Proofs.TypeNames
import AtomLog.Proofs.Writes
import AtomLog.Schema.Basic
import AtomLog.Schema.Document
import AtomLog.Schema.FieldKind
import AtomLog.Schema.File
import AtomLog.Schema.OptionKey
import AtomLog.Schema.Options
import AtomLog.Schema.TypeName
import AtomLog.Signature
import AtomLog.Sorted.Map
import AtomLog.Sorted.Set
import AtomLog.Text.Blank
import AtomLog.Text.Bytes
import AtomLog.Text.Lines
import AtomLog.Text.Pairs
import AtomLog.Text.Printable
import AtomLog.Text.Quoted
import AtomLog.Text.Split
import AtomLog.Text.Terminal
import AtomLog.Text.Upper
import AtomLog.Toml.Date
import AtomLog.Toml.Number
import AtomLog.Toml.Reader
import AtomLog.Toml.Table
import AtomLog.Toml.Text
import AtomLog.Toml.Value
