import MediaCommand.Arity
import MediaCommand.Chain
import MediaCommand.Error
import MediaCommand.ErrorLog
import MediaCommand.Filter.Basic
import MediaCommand.Filter.Expression
import MediaCommand.Launch.Basic
import MediaCommand.Log
import MediaCommand.Number.Double
import MediaCommand.Number.Literal
import MediaCommand.Number.Shortest
import MediaCommand.Objects.Action
import MediaCommand.Objects.Arguments
import MediaCommand.Objects.Basic
import MediaCommand.Objects.Build
import MediaCommand.Objects.Connect
import MediaCommand.Objects.Copy
import MediaCommand.Objects.Grow
import MediaCommand.Objects.Inspect
import MediaCommand.Objects.Map
import MediaCommand.Objects.Outcome
import MediaCommand.Objects.Query
import MediaCommand.Objects.Sum
import MediaCommand.Objects.Text
import MediaCommand.Options
import MediaCommand.Program.Basic
import MediaCommand.Progress
import MediaCommand.Proofs.Actions
import MediaCommand.Proofs.Attachment
import MediaCommand.Proofs.Batch
import MediaCommand.Proofs.Brackets
import MediaCommand.Proofs.Building
import MediaCommand.Proofs.Calls
import MediaCommand.Proofs.CommandLine
import MediaCommand.Proofs.Complaints
import MediaCommand.Proofs.ComplexFilter
import MediaCommand.Proofs.Consumption
import MediaCommand.Proofs.Copies
import MediaCommand.Proofs.CountedReferences
import MediaCommand.Proofs.Counters
import MediaCommand.Proofs.DefaultPad
import MediaCommand.Proofs.Dictionaries
import MediaCommand.Proofs.EmittedNumbers
import MediaCommand.Proofs.Executions
import MediaCommand.Proofs.FailedGraphs
import MediaCommand.Proofs.Failure
import MediaCommand.Proofs.FoundProgram
import MediaCommand.Proofs.GraphReading
import MediaCommand.Proofs.Graphs
import MediaCommand.Proofs.Handover
import MediaCommand.Proofs.Identities
import MediaCommand.Proofs.Isolation
import MediaCommand.Proofs.Keeps
import MediaCommand.Proofs.LabelClashes
import MediaCommand.Proofs.Labels
import MediaCommand.Proofs.LiveSettings
import MediaCommand.Proofs.Lookup
import MediaCommand.Proofs.MadeStreams
import MediaCommand.Proofs.Mapped
import MediaCommand.Proofs.MarkedPads
import MediaCommand.Proofs.Numerals
import MediaCommand.Proofs.Occurrences
import MediaCommand.Proofs.OneByOne
import MediaCommand.Proofs.OptionsBack
import MediaCommand.Proofs.PadCounts
import MediaCommand.Proofs.PadSelectors
import MediaCommand.Proofs.PadValue
import MediaCommand.Proofs.Placement
import MediaCommand.Proofs.PrintedReports
import MediaCommand.Proofs.Reading
import MediaCommand.Proofs.ReadingBack
import MediaCommand.Proofs.Recording
import MediaCommand.Proofs.Reports
import MediaCommand.Proofs.Resolve
import MediaCommand.Proofs.SameTexts
import MediaCommand.Proofs.SelectorGrammar
import MediaCommand.Proofs.SettingsFound
import MediaCommand.Proofs.SettingsRestored
import MediaCommand.Proofs.Showing
import MediaCommand.Proofs.ShownLine
import MediaCommand.Proofs.Sound
import MediaCommand.Proofs.SpecifierPlaces
import MediaCommand.Proofs.Specifiers
import MediaCommand.Proofs.Statements
import MediaCommand.Proofs.Step
import MediaCommand.Proofs.StreamEquality
import MediaCommand.Proofs.Tracks
import MediaCommand.Proofs.Unambiguous
import MediaCommand.Proofs.VersionChecks
import MediaCommand.Proofs.VersionNumbers
import MediaCommand.Proofs.Wording
import MediaCommand.Proofs.Wordless
import MediaCommand.Proofs.WordsBack
import MediaCommand.Proofs.WrittenGraphs
import MediaCommand.Scene
import MediaCommand.Selector.Basic
import MediaCommand.Session.Basic
import MediaCommand.Session.Compose
import MediaCommand.Settings.Basic
import MediaCommand.Shell.Words
import MediaCommand.Text.Blank
import MediaCommand.Text.Case
import MediaCommand.Text.Cased
import MediaCommand.Text.Digit
import MediaCommand.Text.Lines
import MediaCommand.Text.Printable
import MediaCommand.Text.Quoted
import MediaCommand.Value.Basic
import MediaCommand.Value.Mark
import MediaCommand.Value.Numbered
import MediaCommand.Value.Order
import MediaCommand.Value.Path
import MediaCommand.Value.Text
import MediaCommand.Version.Basic
import MediaCommand.Version.Report
