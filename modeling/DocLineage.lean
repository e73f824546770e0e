import DocLineage.CommandLine.Command
import DocLineage.CommandLine.Options
import DocLineage.CommandLine.Pipeline
import DocLineage.CommandLine.Resolve
import DocLineage.Config.Basic
import DocLineage.Config.Settings
import DocLineage.Digest.Sha256
import DocLineage.Doclet.Basic
import DocLineage.Doclet.Inherit
import DocLineage.Doclet.OfMapping
import DocLineage.Doclet.ToMapping
import DocLineage.Fault
import DocLineage.Files.Dump
import DocLineage.Files.Path
import DocLineage.Files.Tree
import DocLineage.Index
import DocLineage.Journal
import DocLineage.Json.KeyOrder
import DocLineage.Json.Reader
import DocLineage.Json.Token
import DocLineage.Json.Writer
import DocLineage.Main
import DocLineage.Number.Binary64
import DocLineage.Number.Numeral
import DocLineage.Number.Shortest
import DocLineage.Proofs.ArrivalOrder
import DocLineage.Proofs.Completion
import DocLineage.Proofs.Consistency
import DocLineage.Proofs.Declaring
import DocLineage.Proofs.Documentation
import DocLineage.Proofs.Execution
import DocLineage.Proofs.Frozen
import DocLineage.Proofs.History
import DocLineage.Proofs.Layers
import DocLineage.Proofs.Links
import DocLineage.Proofs.Loading
import DocLineage.Proofs.ParamNames
import DocLineage.Proofs.Pass
import DocLineage.Proofs.Precedence
import DocLineage.Proofs.Prose
import DocLineage.Proofs.Signature
import DocLineage.Proofs.SourceOrder
import DocLineage.Proofs.Stages
import DocLineage.Proofs.Tables
import DocLineage.Proofs.Termination
import DocLineage.Report
import DocLineage.Resolution.Arrival
import DocLineage.Resolution.Cascade
import DocLineage.Resolution.Declaration
import DocLineage.Resolution.Registry
import DocLineage.Resolution.Resolve
import DocLineage.Resolution.Run
import DocLineage.Table
import DocLineage.TagDictionary
import DocLineage.Text.Base64
import DocLineage.Text.Blank
import DocLineage.Text.CaseData
import DocLineage.Text.Digit
import DocLineage.Text.Encoding
import DocLineage.Text.Hex
import DocLineage.Text.Lower
import DocLineage.Text.Printable
import DocLineage.Text.Quoted
import DocLineage.Text.Symbol
import DocLineage.Value.Basic
import DocLineage.Value.Display
import DocLineage.Value.Moment
import DocLineage.Value.Overlay
import DocLineage.Value.SlotOrder
import DocLineage.Yaml.Cursor
import DocLineage.Yaml.Graph
import DocLineage.Yaml.Heap
import DocLineage.Yaml.Lending
import DocLineage.Yaml.Lexer
import DocLineage.Yaml.Node
import DocLineage.Yaml.NodeType
import DocLineage.Yaml.Reader
import DocLineage.Yaml.Scalar
import DocLineage.Yaml.ScalarText
import DocLineage.Yaml.Token
import DocLineage.Proofs.Rereading
import DocLineage.Proofs.Recording
import DocLineage.Proofs.SeeLinks
import DocLineage.Proofs.Persistence
import DocLineage.Proofs.Bookkeeping
import DocLineage.Proofs.Mirror
import DocLineage.Proofs.SideBySide
import DocLineage.Proofs.Independence
import DocLineage.Proofs.Remerging
import DocLineage.Proofs.Showing
import DocLineage.Proofs.Rerun
import DocLineage.Proofs.TagEffects
import DocLineage.Proofs.MergeLaws
import DocLineage.Proofs.Overriding
import DocLineage.Proofs.NumberText
import DocLineage.Proofs.CanonicalText
import DocLineage.Proofs.JoinedText
import DocLineage.Proofs.SettingsRead
import DocLineage.Proofs.Fingerprint
import DocLineage.Proofs.Lookup
import DocLineage.Proofs.Retention
import DocLineage.Proofs.Linking
import DocLineage.Proofs.Rewriting
import DocLineage.Proofs.Indexing
import DocLineage.Proofs.IndexPaths
import DocLineage.Proofs.Counting
import DocLineage.Proofs.Blocked
import DocLineage.Proofs.Overlaying
import DocLineage.Proofs.Places
import DocLineage.Proofs.Collecting
import DocLineage.Proofs.Walk
import DocLineage.Proofs.StaleWakes
