import ClearNames.Breakdown
import ClearNames.CommandLine.Arguments
import ClearNames.CommandLine.Help
import ClearNames.CommandLine.Program
import ClearNames.CommandLine.Words
import ClearNames.Disk.Basic
import ClearNames.Disk.Walk
import ClearNames.Journal.Amount
import ClearNames.Journal.Basic
import ClearNames.Journal.Directive
import ClearNames.Journal.Figure
import ClearNames.Journal.Layout
import ClearNames.Journal.Moment
import ClearNames.Journal.Record
import ClearNames.Journal.Sink
import ClearNames.Journal.TimePattern
import ClearNames.Json.Basic
import ClearNames.Json.Binary64
import ClearNames.Json.Printer
import ClearNames.Json.Reader
import ClearNames.LoosePath
import ClearNames.Main
import ClearNames.Mapping.Line
import ClearNames.Mapping.Reader
import ClearNames.NameTree.Basic
import ClearNames.NameTree.Document
import ClearNames.NameTree.Fault
import ClearNames.NameTree.Growth
import ClearNames.NameTree.Listing
import ClearNames.NameTree.Lookup
import ClearNames.NameTree.Naming
import ClearNames.NameTree.Obfuscation
import ClearNames.OrderedTable
import ClearNames.Path
import ClearNames.Payload.Base64
import ClearNames.Payload.Basic
import ClearNames.Payload.Bits
import ClearNames.Payload.Zlib
import ClearNames.Primitive
import ClearNames.Proofs.CommandLine.Preflight
import ClearNames.Proofs.CommandLine.Saving
import ClearNames.Proofs.CommandLine.Settings
import ClearNames.Proofs.Disk.Expanding
import ClearNames.Proofs.Disk.Following
import ClearNames.Proofs.Disk.LoosePaths
import ClearNames.Proofs.Disk.Normalizing
import ClearNames.Proofs.Disk.Paths
import ClearNames.Proofs.Disk.SourceFiles
import ClearNames.Proofs.Disk.Writing
import ClearNames.Proofs.Journal.SettingUp
import ClearNames.Proofs.Json.Indented
import ClearNames.Proofs.Json.Limits
import ClearNames.Proofs.Json.Reading
import ClearNames.Proofs.Json.Strings
import ClearNames.Proofs.Mapping.Carrying
import ClearNames.Proofs.Mapping.ClassRecords
import ClearNames.Proofs.Mapping.EffectiveNames
import ClearNames.Proofs.Mapping.Faults
import ClearNames.Proofs.Mapping.Grammar
import ClearNames.Proofs.Mapping.MethodTables
import ClearNames.Proofs.Mapping.Printing
import ClearNames.Proofs.Mapping.Reading
import ClearNames.Proofs.Mapping.Registered
import ClearNames.Proofs.Mapping.Renamings
import ClearNames.Proofs.Mapping.Reordering
import ClearNames.Proofs.Mapping.Resolving
import ClearNames.Proofs.Mapping.RoundTrip
import ClearNames.Proofs.Mapping.Telling
import ClearNames.Proofs.Mapping.Tokens
import ClearNames.Proofs.Mapping.Trees
import ClearNames.Proofs.NameTree.Accounts
import ClearNames.Proofs.NameTree.Addition
import ClearNames.Proofs.NameTree.Altering
import ClearNames.Proofs.NameTree.Branches
import ClearNames.Proofs.NameTree.Carried
import ClearNames.Proofs.NameTree.Casing
import ClearNames.Proofs.NameTree.Changes
import ClearNames.Proofs.NameTree.Completing
import ClearNames.Proofs.NameTree.Correspondence
import ClearNames.Proofs.NameTree.Edits
import ClearNames.Proofs.NameTree.Extension
import ClearNames.Proofs.NameTree.Flattening
import ClearNames.Proofs.NameTree.Formed
import ClearNames.Proofs.NameTree.Frames
import ClearNames.Proofs.NameTree.FullNames
import ClearNames.Proofs.NameTree.Growing
import ClearNames.Proofs.NameTree.Listings
import ClearNames.Proofs.NameTree.Located
import ClearNames.Proofs.NameTree.Locating
import ClearNames.Proofs.NameTree.Natural
import ClearNames.Proofs.NameTree.Operations
import ClearNames.Proofs.NameTree.Ownership
import ClearNames.Proofs.NameTree.Paths
import ClearNames.Proofs.NameTree.Presence
import ClearNames.Proofs.NameTree.Prolonging
import ClearNames.Proofs.NameTree.Registration
import ClearNames.Proofs.NameTree.Rendering
import ClearNames.Proofs.NameTree.Resolution
import ClearNames.Proofs.NameTree.Routes
import ClearNames.Proofs.NameTree.Spelling
import ClearNames.Proofs.NameTree.Store
import ClearNames.Proofs.NameTree.Twins
import ClearNames.Proofs.NameTree.Unaliased
import ClearNames.Proofs.NameTree.Unlocated
import ClearNames.Proofs.Payload.Base64
import ClearNames.Proofs.Payload.RoundTrip
import ClearNames.Proofs.Payload.Zlib
import ClearNames.Proofs.Release.Outcomes
import ClearNames.Proofs.Release.Runs
import ClearNames.Proofs.Release.Summaries
import ClearNames.Proofs.RenameLog.Agreement
import ClearNames.Proofs.RenameLog.Faults
import ClearNames.Proofs.RenameLog.Unlocated
import ClearNames.Proofs.Settings.Saving
import ClearNames.Proofs.Settings.Settling
import ClearNames.Proofs.Settings.Strictness
import ClearNames.Proofs.Signature
import ClearNames.Proofs.Signature.Grammar
import ClearNames.Proofs.Sources.InnerClasses
import ClearNames.Proofs.Sources.Matching
import ClearNames.Proofs.Sources.Specification
import ClearNames.Proofs.Sources.Targets
import ClearNames.Proofs.Steps
import ClearNames.Proofs.Text.Lines
import ClearNames.Proofs.Text.Loose
import ClearNames.Proofs.Text.Utf8
import ClearNames.Proofs.YGuardLog.InnerClasses
import ClearNames.Proofs.YGuardLog.Reading
import ClearNames.Release.Basic
import ClearNames.Release.Result
import ClearNames.Release.Upload
import ClearNames.RenameLog.Basic
import ClearNames.RenameLog.Fault
import ClearNames.RenameLog.Reading
import ClearNames.Settings.Basic
import ClearNames.Settings.Saved
import ClearNames.Settings.Validation
import ClearNames.Settings.Warning
import ClearNames.Signature
import ClearNames.Sources
import ClearNames.Text.Alphanumeric
import ClearNames.Text.Blank
import ClearNames.Text.Digits
import ClearNames.Text.Fill
import ClearNames.Text.Hex
import ClearNames.Text.Loose
import ClearNames.Text.Printable
import ClearNames.Text.Quoted
import ClearNames.Text.Split
import ClearNames.Text.Utf8
import ClearNames.World
import ClearNames.Writing
import ClearNames.Xml.Chars
import ClearNames.Xml.CodePage
import ClearNames.Xml.ContentModel
import ClearNames.Xml.Declarations
import ClearNames.Xml.Doctype
import ClearNames.Xml.Element
import ClearNames.Xml.Encoding
import ClearNames.Xml.EncodingName
import ClearNames.Xml.Markup
import ClearNames.Xml.Reader
import ClearNames.YGuardLog.InnerClass
import ClearNames.YGuardLog.Reader
