import ScriptCase.Arguments.Fault
import ScriptCase.Arguments.Grammar
import ScriptCase.Arguments.Parse
import ScriptCase.Arguments.Switch
import ScriptCase.Arguments.Word
import ScriptCase.Codec.Encoding
import ScriptCase.Codec.Fault
import ScriptCase.Codec.ReadBack
import ScriptCase.Codec.Registry
import ScriptCase.Codec.Utf16
import ScriptCase.Codec.Utf8
import ScriptCase.Command.Console
import ScriptCase.Command.Format
import ScriptCase.Command.Run
import ScriptCase.Command.Serve
import ScriptCase.Command.Trouble
import ScriptCase.Diff.Script
import ScriptCase.Diff.Unified
import ScriptCase.Editor.Document
import ScriptCase.Editor.Host
import ScriptCase.Editor.Server
import ScriptCase.Editor.Uri
import ScriptCase.Editor.Workspace
import ScriptCase.Failure
import ScriptCase.Files.LoosePath
import ScriptCase.Files.Path
import ScriptCase.Files.Tree
import ScriptCase.Format.Formatter
import ScriptCase.Format.Report
import ScriptCase.Issue
import ScriptCase.Keyword.Bundled
import ScriptCase.Keyword.Category
import ScriptCase.Keyword.Source
import ScriptCase.Keyword.Table
import ScriptCase.Log
import ScriptCase.Main
import ScriptCase.Proofs.CaseOnly
import ScriptCase.Proofs.CaseTables
import ScriptCase.Proofs.EditorEdits
import ScriptCase.Proofs.Fates
import ScriptCase.Proofs.FormatLine
import ScriptCase.Proofs.FormatText
import ScriptCase.Proofs.InPlace
import ScriptCase.Proofs.Letters
import ScriptCase.Proofs.Notices
import ScriptCase.Proofs.Offsets
import ScriptCase.Proofs.Passes
import ScriptCase.Proofs.Places
import ScriptCase.Proofs.Rules
import ScriptCase.Proofs.Sync
import ScriptCase.Proofs.Values
import ScriptCase.Result
import ScriptCase.Rule.Builtin
import ScriptCase.Rule.Command
import ScriptCase.Rule.Leading
import ScriptCase.Rule.Region
import ScriptCase.Rule.SectionHeader
import ScriptCase.Rule.Trigger
import ScriptCase.Settings.Basic
import ScriptCase.Settings.Load
import ScriptCase.Text.Basic
import ScriptCase.Text.Blank
import ScriptCase.Text.Case
import ScriptCase.Text.Decimal
import ScriptCase.Text.Layout
import ScriptCase.Text.Loose
import ScriptCase.Text.Lowercase
import ScriptCase.Text.Printable
import ScriptCase.Text.Quoted
import ScriptCase.Text.Units
import ScriptCase.Text.Word
import ScriptCase.Value.Basic
import ScriptCase.Value.Double
import ScriptCase.Value.Json
import ScriptCase.Value.Moment
import ScriptCase.Value.Reader
import ScriptCase.Value.Toml.Document
import ScriptCase.Value.Toml.Scalars
import ScriptCase.Value.Toml.Strings
import ScriptCase.Proofs.CommandLine
import ScriptCase.Proofs.OffsetOrder
import ScriptCase.Proofs.Shape
import ScriptCase.Proofs.Runs
import ScriptCase.Proofs.Outcomes
import ScriptCase.Proofs.DiskEffect
import ScriptCase.Proofs.DryRun
import ScriptCase.Proofs.CheckPasses
import ScriptCase.Proofs.RuleOrder
import ScriptCase.Proofs.Reloading
import ScriptCase.Proofs.Isolation
import ScriptCase.Proofs.Abbreviations
import ScriptCase.Proofs.TwoReadings
import ScriptCase.Proofs.LargerTables
import ScriptCase.Proofs.LineIsolation
import ScriptCase.Proofs.SettingsFailures
import ScriptCase.Proofs.SoundTables
import ScriptCase.Proofs.Extensions
import ScriptCase.Proofs.SettingsShape
import ScriptCase.Proofs.Discovery
import ScriptCase.Proofs.DiffLines
import ScriptCase.Proofs.EditScripts
import ScriptCase.Proofs.Patches
import ScriptCase.Proofs.WellFormedDiffs
import ScriptCase.Proofs.Indentation
import ScriptCase.Proofs.LeadingKeywords
import ScriptCase.Proofs.LineSlices
