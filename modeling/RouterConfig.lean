import RouterConfig.Annotated.Line
import RouterConfig.Annotated.Render
import RouterConfig.Cli.Action
import RouterConfig.Cli.Arguments
import RouterConfig.Cli.Commands
import RouterConfig.Cli.Request
import RouterConfig.Cli.Staging
import RouterConfig.CommandFile.Commands
import RouterConfig.CommandFile.Line
import RouterConfig.CommandFile.Load
import RouterConfig.CommandFile.Save
import RouterConfig.Commit.Event
import RouterConfig.Commit.Executor
import RouterConfig.Commit.Module
import RouterConfig.Commit.Phase
import RouterConfig.Commit.Phases
import RouterConfig.Commit.Selection
import RouterConfig.Commit.Store
import RouterConfig.Comparison.Classes
import RouterConfig.Comparison.Compare
import RouterConfig.Comparison.Mangle
import RouterConfig.Decimal.Rounding
import RouterConfig.Decimal.Text
import RouterConfig.Error
import RouterConfig.Files.Disk
import RouterConfig.Files.Fault
import RouterConfig.Files.Script
import RouterConfig.Host
import RouterConfig.Keyed
import RouterConfig.Locations
import RouterConfig.Main
import RouterConfig.Palette
import RouterConfig.Pattern.AsciiClass
import RouterConfig.Pattern.Basic
import RouterConfig.Pattern.Bracket
import RouterConfig.Pattern.Encoded
import RouterConfig.Pattern.Escape
import RouterConfig.Pattern.Expression
import RouterConfig.Pattern.Group
import RouterConfig.Pattern.Plan
import RouterConfig.Pattern.Reading
import RouterConfig.Pattern.Repetition
import RouterConfig.Pattern.Size
import RouterConfig.Pattern.Syntax
import RouterConfig.Proofs.Annotated.Both
import RouterConfig.Proofs.Annotated.Contents
import RouterConfig.Proofs.Annotated.Layout
import RouterConfig.Proofs.Annotated.Marks
import RouterConfig.Proofs.Annotated.Sides
import RouterConfig.Proofs.Annotated.Substance
import RouterConfig.Proofs.CommandFile.Lines
import RouterConfig.Proofs.CommandFile.RoundTrip
import RouterConfig.Proofs.CommandFile.Saved
import RouterConfig.Proofs.CommandFile.Staging
import RouterConfig.Proofs.Commit.Barriers
import RouterConfig.Proofs.Commit.Candidates
import RouterConfig.Proofs.Commit.Conformance
import RouterConfig.Proofs.Commit.Interleaving
import RouterConfig.Proofs.Commit.Outcome
import RouterConfig.Proofs.Commit.Recording
import RouterConfig.Proofs.Commit.Steps
import RouterConfig.Proofs.Commit.Workers
import RouterConfig.Proofs.Host.Conformance
import RouterConfig.Proofs.Host.Run
import RouterConfig.Proofs.Keyed.Lookup
import RouterConfig.Proofs.Schema.Conformance
import RouterConfig.Proofs.Schema.Owned
import RouterConfig.Proofs.Schema.Places
import RouterConfig.Proofs.Schema.Turns
import RouterConfig.Proofs.Session.Commuting
import RouterConfig.Proofs.Session.Deleting
import RouterConfig.Proofs.Session.Instances
import RouterConfig.Proofs.Session.Presence
import RouterConfig.Proofs.Session.Soundness
import RouterConfig.Proofs.Session.Writing
import RouterConfig.Proofs.Text.Lines
import RouterConfig.Proofs.Text.Quoting
import RouterConfig.Proofs.Tree.Cutting
import RouterConfig.Proofs.Tree.Parting
import RouterConfig.Proofs.Tree.Rebuilding
import RouterConfig.Proofs.Tree.Update
import RouterConfig.Schema.Basic
import RouterConfig.Schema.Constraint
import RouterConfig.Schema.Defaults
import RouterConfig.Schema.Definition
import RouterConfig.Schema.Outline
import RouterConfig.Schema.Owners
import RouterConfig.Schema.Reader
import RouterConfig.Schema.Resolve
import RouterConfig.Session.Basic
import RouterConfig.Session.Edit
import RouterConfig.Session.Read
import RouterConfig.Settings.Basic
import RouterConfig.Settings.Entries
import RouterConfig.StableSort
import RouterConfig.Text.Blank
import RouterConfig.Text.Lines
import RouterConfig.Text.Numerals
import RouterConfig.Text.Quoted
import RouterConfig.Text.Words
import RouterConfig.Tree.Basic
import RouterConfig.Tree.Edit
import RouterConfig.Tree.Flatten
import RouterConfig.Tree.Json
import RouterConfig.Tree.Overlay
import RouterConfig.Unicode.Age
import RouterConfig.Unicode.Boundary
import RouterConfig.Unicode.CaseChange
import RouterConfig.Unicode.CaseFold
import RouterConfig.Unicode.Category
import RouterConfig.Unicode.CodeSet
import RouterConfig.Unicode.Contributory
import RouterConfig.Unicode.Derived
import RouterConfig.Unicode.Emoji
import RouterConfig.Unicode.Letter
import RouterConfig.Unicode.Mark
import RouterConfig.Unicode.Number
import RouterConfig.Unicode.Property
import RouterConfig.Unicode.Punctuation
import RouterConfig.Unicode.Script
import RouterConfig.Unicode.ScriptExtension
import RouterConfig.Unicode.Separator
import RouterConfig.Unicode.Symbol
import RouterConfig.Unicode.Trait
import RouterConfig.Yaml.Cursor
import RouterConfig.Yaml.Node
import RouterConfig.Yaml.ScalarText
import RouterConfig.Yaml.Tag
import RouterConfig.Yaml.Token
import RouterConfig.Yaml.Value
import RouterConfig.Yaml.Written
import RouterConfig.Proofs.Tree.Surroundings
import RouterConfig.Proofs.Session.Effects
import RouterConfig.Proofs.Tree.Descending
import RouterConfig.Proofs.Session.Traceless
import RouterConfig.Proofs.Session.Cursor
import RouterConfig.Proofs.Commit.Accounting
import RouterConfig.Proofs.Tree.Filling
import RouterConfig.Proofs.Comparison.Classification
import RouterConfig.Proofs.Schema.Defaults
import RouterConfig.Proofs.Comparison.Filling
import RouterConfig.Proofs.CommandFile.Values
import RouterConfig.Proofs.CommandFile.Folding
import RouterConfig.Proofs.Text.Parts
import RouterConfig.Proofs.Commit.Undisturbed
import RouterConfig.Proofs.Comparison.Accepting
import RouterConfig.Proofs.Comparison.Mangling
import RouterConfig.Proofs.Comparison.Restriction
import RouterConfig.Proofs.Tree.Renaming
import RouterConfig.Proofs.Session.Naming
import RouterConfig.Proofs.Host.Naming
import RouterConfig.Proofs.Schema.Grammar
import RouterConfig.Proofs.Schema.Compiling
import RouterConfig.Proofs.Schema.Accepting
import RouterConfig.Proofs.Schema.Listing
import RouterConfig.Proofs.Pattern.Matching
import RouterConfig.Proofs.Pattern.Escapes
import RouterConfig.Proofs.Pattern.Groups
import RouterConfig.Proofs.Pattern.Brackets
import RouterConfig.Proofs.Pattern.Notation
import RouterConfig.Proofs.Pattern.Anchoring
import RouterConfig.Proofs.Schema.Constraints
import RouterConfig.Proofs.Cli.Clearing
import RouterConfig.Proofs.Cli.Comparing
