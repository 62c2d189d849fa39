import ScriptBundle.Build.Bundle
import ScriptBundle.Build.Failure
import ScriptBundle.Build.Output
import ScriptBundle.Build.Watching
import ScriptBundle.BuildContext
import ScriptBundle.BuildError
import ScriptBundle.Calendar
import ScriptBundle.CommandLine.Answer
import ScriptBundle.CommandLine.Request
import ScriptBundle.Config.Basic
import ScriptBundle.Config.Location
import ScriptBundle.Config.Reader
import ScriptBundle.Document.BlankLines
import ScriptBundle.Document.Body
import ScriptBundle.Document.Concatenation
import ScriptBundle.Document.Layout
import ScriptBundle.FileTree.Basic
import ScriptBundle.FileTree.Change
import ScriptBundle.FileTree.Difference
import ScriptBundle.FileTree.Error
import ScriptBundle.FileTree.Walk
import ScriptBundle.Gate.Command
import ScriptBundle.Gate.Configured
import ScriptBundle.Gate.Outcome
import ScriptBundle.Gate.SizePolicy
import ScriptBundle.Graph.Basic
import ScriptBundle.Graph.Search
import ScriptBundle.Main
import ScriptBundle.Metadata.Basic
import ScriptBundle.Metadata.Header
import ScriptBundle.Metadata.Placeholder
import ScriptBundle.Metadata.Reader
import ScriptBundle.Module.Interface
import ScriptBundle.Module.Pattern
import ScriptBundle.Module.Record
import ScriptBundle.Module.Statement
import ScriptBundle.Module.Stripped
import ScriptBundle.Module.Table
import ScriptBundle.Path.Basic
import ScriptBundle.Path.Normal
import ScriptBundle.Report
import ScriptBundle.Shell.Arguments
import ScriptBundle.Shell.Arithmetic
import ScriptBundle.Shell.Builtin
import ScriptBundle.Shell.Builtin.Declaration
import ScriptBundle.Shell.Builtin.Job
import ScriptBundle.Shell.Builtin.Option
import ScriptBundle.Shell.Builtin.Setting
import ScriptBundle.Shell.Byte
import ScriptBundle.Shell.Calculation
import ScriptBundle.Shell.Catalog
import ScriptBundle.Shell.Column
import ScriptBundle.Shell.Comparison
import ScriptBundle.Shell.Conditional
import ScriptBundle.Shell.Dump
import ScriptBundle.Shell.Editor.Command
import ScriptBundle.Shell.Editor.Reader
import ScriptBundle.Shell.Editor.Run
import ScriptBundle.Shell.Expansion
import ScriptBundle.Shell.FileCommand
import ScriptBundle.Shell.Filter
import ScriptBundle.Shell.Finding.Condition
import ScriptBundle.Shell.Finding.Walk
import ScriptBundle.Shell.Floating
import ScriptBundle.Shell.Launching
import ScriptBundle.Shell.Listing
import ScriptBundle.Shell.Lookup
import ScriptBundle.Shell.Naming
import ScriptBundle.Shell.Pattern
import ScriptBundle.Shell.Printing
import ScriptBundle.Shell.Program
import ScriptBundle.Shell.Quoted
import ScriptBundle.Shell.Regex.Basic
import ScriptBundle.Shell.Regex.Reader
import ScriptBundle.Shell.Run
import ScriptBundle.Shell.Scope
import ScriptBundle.Shell.Script
import ScriptBundle.Shell.Search
import ScriptBundle.Shell.Signal
import ScriptBundle.Shell.Sorting
import ScriptBundle.Shell.State
import ScriptBundle.Shell.Surroundings
import ScriptBundle.Shell.Token
import ScriptBundle.Shell.Word
import ScriptBundle.Source.Discovery
import ScriptBundle.Source.Lookup
import ScriptBundle.Source.Resolution
import ScriptBundle.Source.Specifier
import ScriptBundle.Source.Watch
import ScriptBundle.SyntaxError
import ScriptBundle.Text.Basic
import ScriptBundle.Text.Blank
import ScriptBundle.Text.Letter
import ScriptBundle.Text.Lossy
import ScriptBundle.Text.Numeral
import ScriptBundle.Text.Order
import ScriptBundle.Text.Position
import ScriptBundle.Text.Printable
import ScriptBundle.Text.Quoted
import ScriptBundle.Text.Search
import ScriptBundle.Text.Taken
import ScriptBundle.Token.Basic
import ScriptBundle.Token.Cursor
import ScriptBundle.Token.Lexer
import ScriptBundle.Token.Scan
import ScriptBundle.Toml.Document
import ScriptBundle.Toml.Scan
import ScriptBundle.Warning
import ScriptBundle.Proofs.Token.Extension
import ScriptBundle.Proofs.Token.RespacedScan
import ScriptBundle.Proofs.Token.State
import ScriptBundle.Proofs.Document.Indentation
import ScriptBundle.Proofs.Document.Reading
import ScriptBundle.Proofs.Token.Bounded
import ScriptBundle.Proofs.Token.Relexing
import ScriptBundle.Proofs.Document.Isolation
import ScriptBundle.Proofs.Document.Composition
import ScriptBundle.Proofs.Graph.PostOrder
import ScriptBundle.Proofs.FileTree.WellFormed
import ScriptBundle.Proofs.Source.Discovery
import ScriptBundle.Proofs.Module.Table
import ScriptBundle.Proofs.Source.Resolution
import ScriptBundle.Proofs.Module.Grammar
import ScriptBundle.Proofs.Module.Passing
import ScriptBundle.Proofs.Module.Cutting
import ScriptBundle.Proofs.Module.Pieces
import ScriptBundle.Proofs.Module.Remaining
import ScriptBundle.Proofs.Module.Edits
import ScriptBundle.Proofs.Module.Leftover
import ScriptBundle.Proofs.Module.Swallowing
import ScriptBundle.Proofs.Token.Trailing
import ScriptBundle.Proofs.Document.BlankLines
import ScriptBundle.Proofs.Document.Body
import ScriptBundle.Proofs.Document.Literals
import ScriptBundle.Proofs.Token.Open
import ScriptBundle.Proofs.Document.Integrity
import ScriptBundle.Proofs.Token.Boundary
import ScriptBundle.Proofs.Document.Reached
import ScriptBundle.Proofs.Build.Bindings
import ScriptBundle.Proofs.Document.Outside
import ScriptBundle.Proofs.Module.TableRuns
import ScriptBundle.Proofs.Token.Passed
import ScriptBundle.Proofs.FileTree.Kept
import ScriptBundle.Proofs.FileTree.Walking
import ScriptBundle.Proofs.FileTree.Writing
import ScriptBundle.Proofs.Source.Listing
import ScriptBundle.Proofs.Source.Rereading
import ScriptBundle.Proofs.FileTree.Straight
import ScriptBundle.Proofs.FileTree.Alike
import ScriptBundle.Proofs.Source.Exactness
import ScriptBundle.Proofs.Build.Rebuilding
import ScriptBundle.Proofs.Token.LineEnds
import ScriptBundle.Proofs.Token.Unbroken
import ScriptBundle.Proofs.Module.Bare
import ScriptBundle.Proofs.Module.Declarations
import ScriptBundle.Proofs.Build.Effects
import ScriptBundle.Proofs.Document.Header
import ScriptBundle.Proofs.Document.Indented
import ScriptBundle.Proofs.Token.Written
import ScriptBundle.Proofs.Metadata.Written
import ScriptBundle.Proofs.Module.Written
import ScriptBundle.Proofs.Graph.Visits
import ScriptBundle.Proofs.Graph.Cycle
import ScriptBundle.Proofs.Module.Ordering
import ScriptBundle.Proofs.Token.Substitution
import ScriptBundle.Proofs.Module.Operands
import ScriptBundle.Proofs.Module.Patterns
import ScriptBundle.Proofs.Token.Escapes
import ScriptBundle.Proofs.Module.Separation
import ScriptBundle.Proofs.Module.DefaultValue
import ScriptBundle.Proofs.Token.Slash
import ScriptBundle.Proofs.Token.Tiling
import ScriptBundle.Proofs.Module.Members
import ScriptBundle.Proofs.Metadata.Filled
import ScriptBundle.Proofs.Module.Located
import ScriptBundle.Proofs.Document.Placement
import ScriptBundle.Proofs.Module.Moved
import ScriptBundle.Proofs.Text.Trimming
import ScriptBundle.Proofs.Document.Hashbang
import ScriptBundle.Proofs.Metadata.Templates
import ScriptBundle.Proofs.Module.Overlooked
import ScriptBundle.Proofs.Metadata.Agreement
import ScriptBundle.Proofs.Metadata.Located
import ScriptBundle.Proofs.Module.Extraction
import ScriptBundle.Proofs.Path.Completed
import ScriptBundle.Proofs.Source.Extension
import ScriptBundle.Proofs.Text.Position
import ScriptBundle.Proofs.Document.Checked
import ScriptBundle.Proofs.Document.Collapsing
import ScriptBundle.Proofs.Token.CutOff
import ScriptBundle.Proofs.Path.Detours
