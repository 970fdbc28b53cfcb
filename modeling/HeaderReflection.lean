import HeaderReflection.Artifact.Accessor
import HeaderReflection.Artifact.ClassHeader
import HeaderReflection.Artifact.Emission
import HeaderReflection.Artifact.ModelSource
import HeaderReflection.Artifact.PackageHeader
import HeaderReflection.Artifact.Registration
import HeaderReflection.Artifact.RenderSource
import HeaderReflection.Artifact.Resolvers
import HeaderReflection.Artifact.ScriptImporter
import HeaderReflection.Artifact.Source
import HeaderReflection.ArtifactSet
import HeaderReflection.Calendar
import HeaderReflection.CommandLine.CommaList
import HeaderReflection.CommandLine.Command
import HeaderReflection.CommandLine.Config
import HeaderReflection.CommandLine.Flag
import HeaderReflection.CommandLine.Run
import HeaderReflection.Declaration.Basic
import HeaderReflection.Declaration.Kind
import HeaderReflection.Duration
import HeaderReflection.FilePath
import HeaderReflection.FileTree
import HeaderReflection.Generation
import HeaderReflection.Header.AttributeList
import HeaderReflection.Header.DeclarationLine
import HeaderReflection.Header.Fault
import HeaderReflection.Header.Lines
import HeaderReflection.Header.Metadata
import HeaderReflection.Header.Reader
import HeaderReflection.Layout
import HeaderReflection.Lineage
import HeaderReflection.Log
import HeaderReflection.Log.Json
import HeaderReflection.Log.LevelName
import HeaderReflection.Main
import HeaderReflection.Manifest
import HeaderReflection.Marker
import HeaderReflection.Module
import HeaderReflection.Number.Binary64
import HeaderReflection.Options
import HeaderReflection.PathPattern
import HeaderReflection.PathPattern.Matcher
import HeaderReflection.PathPattern.Piece
import HeaderReflection.PathPattern.Plan
import HeaderReflection.Proofs.Artifact.Accessors
import HeaderReflection.Proofs.Artifact.ParentCalls
import HeaderReflection.Proofs.Files.Atomicity
import HeaderReflection.Proofs.Files.Commit
import HeaderReflection.Proofs.Files.Paths
import HeaderReflection.Proofs.Files.Tree
import HeaderReflection.Proofs.Generation.Builds
import HeaderReflection.Proofs.Generation.Confinement
import HeaderReflection.Proofs.Generation.Places
import HeaderReflection.Proofs.Generation.Progress
import HeaderReflection.Proofs.Generation.Pruning
import HeaderReflection.Proofs.Generation.Sources
import HeaderReflection.Proofs.Generation.Stability
import HeaderReflection.Proofs.Generation.TableIds
import HeaderReflection.Proofs.Header.Annotations
import HeaderReflection.Proofs.Header.AttributeText
import HeaderReflection.Proofs.Header.Declared
import HeaderReflection.Proofs.Header.Edits
import HeaderReflection.Proofs.Header.MarkedText
import HeaderReflection.Proofs.Header.MemberText
import HeaderReflection.Proofs.Header.MetadataText
import HeaderReflection.Proofs.Header.RoundTrip
import HeaderReflection.Proofs.Header.TypeText
import HeaderReflection.Proofs.Lineage.Climbing
import HeaderReflection.Proofs.Lineage.Ids
import HeaderReflection.Proofs.Lineage.Overrides
import HeaderReflection.Proofs.Lineage.ParentsFirst
import HeaderReflection.Proofs.Lineage.Renumbering
import HeaderReflection.Proofs.Lineage.ScanOrder
import HeaderReflection.Proofs.Outcome
import HeaderReflection.Proofs.Table.Contents
import HeaderReflection.Proofs.Table.Document
import HeaderReflection.Proofs.Table.Grammar
import HeaderReflection.Proofs.Table.History
import HeaderReflection.Proofs.Table.OtherBlocks
import HeaderReflection.Proofs.Table.Patching
import HeaderReflection.Proofs.Table.ReadingBack
import HeaderReflection.Proofs.Table.Settling
import HeaderReflection.Proofs.Table.Updates
import HeaderReflection.Proofs.Text.Fields
import HeaderReflection.Proofs.Text.Order
import HeaderReflection.Proofs.Text.Pieces
import HeaderReflection.Proofs.Text.Quoted
import HeaderReflection.Proofs.Text.Words
import HeaderReflection.Settings.Dotenv
import HeaderReflection.Settings.Json
import HeaderReflection.Settings.Toml
import HeaderReflection.Settings.Value
import HeaderReflection.Settings.Yaml
import HeaderReflection.Table.Document
import HeaderReflection.Table.Shared
import HeaderReflection.Text.Base64
import HeaderReflection.Text.Basic
import HeaderReflection.Text.Blank
import HeaderReflection.Text.Case
import HeaderReflection.Text.CodePoint
import HeaderReflection.Text.Number
import HeaderReflection.Text.Order
import HeaderReflection.Text.Printable
import HeaderReflection.Text.Quoted
import HeaderReflection.Text.Utf16
import HeaderReflection.Watcher
import HeaderReflection.Yaml.Cursor
import HeaderReflection.Yaml.Document
import HeaderReflection.Yaml.Entries
import HeaderReflection.Yaml.Lexeme
import HeaderReflection.Yaml.Plain
import HeaderReflection.Yaml.Scalar
import HeaderReflection.Yaml.Token
import HeaderReflection.Proofs.Table.Applying
import HeaderReflection.Proofs.Header.MarkedLines
import HeaderReflection.Proofs.Header.Cursor
import HeaderReflection.Proofs.Header.Context
import HeaderReflection.Proofs.Header.Appending
import HeaderReflection.Proofs.Header.AttributeOrder
import HeaderReflection.Proofs.Header.ListLayout
import HeaderReflection.Proofs.Header.EscapedQuotes
import HeaderReflection.Proofs.Header.MovedLines
import HeaderReflection.Proofs.Header.InsertedLines
import HeaderReflection.Proofs.Lineage.Resolved
import HeaderReflection.Proofs.Artifact.Handles
import HeaderReflection.Proofs.Watching.Inputs
import HeaderReflection.Proofs.Watching.Changes
import HeaderReflection.Proofs.Text.WhiteSpace
import HeaderReflection.Proofs.Header.FieldSpelling
import HeaderReflection.Proofs.Header.Signatures
import HeaderReflection.Proofs.Files.Differences
import HeaderReflection.Proofs.Watching.SettledOptions
import HeaderReflection.Proofs.Header.NameTokens
import HeaderReflection.Proofs.Header.IncludeSet
