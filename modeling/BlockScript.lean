import BlockScript.Activity.Basic
import BlockScript.Activity.Compilation
import BlockScript.Activity.Execution
import BlockScript.Activity.Recursion
import BlockScript.Activity.Slice
import BlockScript.Block.Basic
import BlockScript.Block.Graph
import BlockScript.Block.Input
import BlockScript.CommandLine
import BlockScript.Document.Basic
import BlockScript.Document.Decoder
import BlockScript.Document.Figure
import BlockScript.Document.Mismatch
import BlockScript.Document.Quotation
import BlockScript.Document.Record
import BlockScript.Document.Token
import BlockScript.Document.Tree
import BlockScript.Engine
import BlockScript.Event
import BlockScript.Frame.Basic
import BlockScript.Frame.Pool
import BlockScript.Halt
import BlockScript.Main
import BlockScript.Number.Binary64
import BlockScript.Number.Layout
import BlockScript.Number.Power
import BlockScript.Number.Reading
import BlockScript.Number.Shortest
import BlockScript.Project
import BlockScript.Proofs.Activity.Refinement
import BlockScript.Proofs.Activity.Turns
import BlockScript.Proofs.Frame.Lending
import BlockScript.Proofs.Schedule.Circles
import BlockScript.Proofs.Schedule.CompiledRuns
import BlockScript.Proofs.Schedule.Driving
import BlockScript.Proofs.Schedule.Interleaving
import BlockScript.Proofs.Schedule.Sharing
import BlockScript.Proofs.Schedule.StructuredRuns
import BlockScript.Proofs.Schedule.Watching
import BlockScript.Proofs.Thread.Chains
import BlockScript.Proofs.Thread.Indifference
import BlockScript.Proofs.Thread.Inline
import BlockScript.Proofs.Thread.StackMachine
import BlockScript.Proofs.Thread.Structured
import BlockScript.Schedule
import BlockScript.Session
import BlockScript.Settings
import BlockScript.Table
import BlockScript.Target
import BlockScript.Text.Blank
import BlockScript.Text.Printable
import BlockScript.Text.Quoted
import BlockScript.Thread.Basic
import BlockScript.Thread.Describe
import BlockScript.Value
import BlockScript.Proofs.Activity.Steps
import BlockScript.Proofs.Schedule.TurnByTurn
import BlockScript.Proofs.Schedule.Ticks
import BlockScript.Proofs.Schedule.Safety
import BlockScript.Proofs.Schedule.StopRequests
import BlockScript.Proofs.Thread.Clock
import BlockScript.Proofs.Thread.Decisions
import BlockScript.Proofs.Schedule.Following
import BlockScript.Proofs.Schedule.Slicing
import BlockScript.Proofs.Thread.Enumeration
import BlockScript.Proofs.Schedule.QuietRuns
import BlockScript.Proofs.Schedule.Rearrangement
import BlockScript.Proofs.Schedule.Reaching
import BlockScript.Proofs.Thread.Paths
import BlockScript.Proofs.Thread.Upkeep
import BlockScript.Proofs.Schedule.PathRuns
import BlockScript.Proofs.Schedule.Leaks
import BlockScript.Proofs.Activity.Nesting
import BlockScript.Proofs.Schedule.Lookups
import BlockScript.Proofs.Thread.Modes
import BlockScript.Proofs.Schedule.ModeRuns
import BlockScript.Proofs.Activity.Unwinding
import BlockScript.Proofs.Document.Records
import BlockScript.Proofs.Document.Revisions
import BlockScript.Proofs.Schedule.GuardRuns
import BlockScript.Proofs.Thread.Parameters
import BlockScript.Proofs.Activity.Histories
import BlockScript.Proofs.Activity.Looks
import BlockScript.Proofs.Thread.Settling
import BlockScript.Proofs.Schedule.SettlingRuns
import BlockScript.Proofs.Schedule.Verdicts
import BlockScript.Proofs.Thread.Stretches
import BlockScript.Proofs.Schedule.StretchRuns
import BlockScript.Proofs.Document.Slots
import BlockScript.Proofs.Document.Admission
import BlockScript.Proofs.Document.Loading
import BlockScript.Proofs.Document.Openings
import BlockScript.Proofs.Frame.Recycling
import BlockScript.Proofs.Number.NotANumber
import BlockScript.Proofs.Settings.Budgets
import BlockScript.Proofs.Session.Counting
