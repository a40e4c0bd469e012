import Transplant.Build.Conversion
import Transplant.Build.Project
import Transplant.Build.Step
import Transplant.Cassette.Basic
import Transplant.Cassette.Exchange
import Transplant.Cassette.Playback
import Transplant.Cassette.Reader
import Transplant.Cassette.Recording
import Transplant.Cassette.Replay
import Transplant.Cassette.Shelf
import Transplant.CommandLine.Arguments
import Transplant.CommandLine.Command
import Transplant.CommandLine.Run
import Transplant.CommandLine.Switch
import Transplant.Decimal.Binary
import Transplant.Decimal.Shortest
import Transplant.Django.Files
import Transplant.FileSystem
import Transplant.FileTree.Basic
import Transplant.Instant.Basic
import Transplant.Instant.Printer
import Transplant.Instant.Reader
import Transplant.Json.Basic
import Transplant.Json.Document
import Transplant.Json.Equality
import Transplant.Json.Number
import Transplant.Json.Parts
import Transplant.Json.Printer
import Transplant.Keyed
import Transplant.Main
import Transplant.Path
import Transplant.Pipeline.Course
import Transplant.Pipeline.Sequencer
import Transplant.Pipeline.State
import Transplant.Pipeline.Work
import Transplant.Plan.Basic
import Transplant.Plan.Fence
import Transplant.Plan.Reader
import Transplant.Proofs.Agenda
import Transplant.Proofs.Agreement
import Transplant.Proofs.Ancestors
import Transplant.Proofs.Answers
import Transplant.Proofs.AppFiles
import Transplant.Proofs.ApplicationText
import Transplant.Proofs.Balance
import Transplant.Proofs.Below
import Transplant.Proofs.BlockTags
import Transplant.Proofs.BuildCalls
import Transplant.Proofs.ByteOrder
import Transplant.Proofs.Calls
import Transplant.Proofs.Cassettes
import Transplant.Proofs.Catalogue
import Transplant.Proofs.ChangedPaths
import Transplant.Proofs.ClassText
import Transplant.Proofs.Cleared
import Transplant.Proofs.Collision
import Transplant.Proofs.Containment
import Transplant.Proofs.ControllerLines
import Transplant.Proofs.Convergence
import Transplant.Proofs.Correspondence
import Transplant.Proofs.Courses
import Transplant.Proofs.DeclaredNames
import Transplant.Proofs.Delimiters
import Transplant.Proofs.Detours
import Transplant.Proofs.Differences
import Transplant.Proofs.Drivers
import Transplant.Proofs.Echo
import Transplant.Proofs.Elsewhere
import Transplant.Proofs.Emission
import Transplant.Proofs.Ends
import Transplant.Proofs.FailFast
import Transplant.Proofs.Fences
import Transplant.Proofs.FieldOrder
import Transplant.Proofs.FileLines
import Transplant.Proofs.Includes
import Transplant.Proofs.LineEnds
import Transplant.Proofs.Listing
import Transplant.Proofs.Literals
import Transplant.Proofs.Locality
import Transplant.Proofs.Looking
import Transplant.Proofs.Making
import Transplant.Proofs.Neighbours
import Transplant.Proofs.Nesting
import Transplant.Proofs.Nodes
import Transplant.Proofs.OneLine
import Transplant.Proofs.Overwritten
import Transplant.Proofs.Ownership
import Transplant.Proofs.Parents
import Transplant.Proofs.Patterns
import Transplant.Proofs.Place
import Transplant.Proofs.PlanText
import Transplant.Proofs.Preconditions
import Transplant.Proofs.Printed
import Transplant.Proofs.Progress
import Transplant.Proofs.Quiet
import Transplant.Proofs.Reached
import Transplant.Proofs.ReadBack
import Transplant.Proofs.Readings
import Transplant.Proofs.RecordLines
import Transplant.Proofs.References
import Transplant.Proofs.Registered
import Transplant.Proofs.Replayed
import Transplant.Proofs.Rerun
import Transplant.Proofs.RouteLines
import Transplant.Proofs.Scans
import Transplant.Proofs.Seams
import Transplant.Proofs.SequencerCalls
import Transplant.Proofs.Served
import Transplant.Proofs.Shares
import Transplant.Proofs.Sigils
import Transplant.Proofs.Snapshots
import Transplant.Proofs.SortedValues
import Transplant.Proofs.Spacing
import Transplant.Proofs.Spelling
import Transplant.Proofs.StageCalls
import Transplant.Proofs.Surveyed
import Transplant.Proofs.TagForms
import Transplant.Proofs.Tapes
import Transplant.Proofs.Targets
import Transplant.Proofs.TemplateText
import Transplant.Proofs.TreeCalls
import Transplant.Proofs.Trimming
import Transplant.Proofs.Twins
import Transplant.Proofs.Unnoticed
import Transplant.Proofs.WalkOrder
import Transplant.Proofs.Ways
import Transplant.Question
import Transplant.Rails.Application
import Transplant.Rails.Controller
import Transplant.Rails.Erb
import Transplant.Rails.Reader
import Transplant.Rails.Record
import Transplant.Rails.Route
import Transplant.Rails.Survey
import Transplant.Rails.Template
import Transplant.Services
import Transplant.Settings
import Transplant.Text.Alphanumeric
import Transplant.Text.Case
import Transplant.Text.CaseTables
import Transplant.Text.Characters
import Transplant.Text.Pattern
import Transplant.Text.Quoted
import Transplant.VariableFile
import Transplant.World
import Transplant.Yaml.Grammar
import Transplant.Yaml.Node
import Transplant.Yaml.Printer
import Transplant.Yaml.Reader
import Transplant.Yaml.Scalar
import Transplant.Yaml.Style
import Transplant.Yaml.Token
import Transplant.Yaml.TokenText
import Transplant.Yaml.Tokens
