import Foreman.Agent.Backend
import Foreman.Agent.Check
import Foreman.Agent.Exit
import Foreman.Agent.Plan
import Foreman.Agent.Prompt
import Foreman.Agent.Session
import Foreman.Agent.Stream
import Foreman.Config.Basic
import Foreman.Config.Document
import Foreman.Coordinator.Desk
import Foreman.Coordinator.Dispatch
import Foreman.Coordinator.Documents
import Foreman.Coordinator.Reset
import Foreman.Coordinator.Settle
import Foreman.Failure
import Foreman.Files.Path
import Foreman.Files.Tree
import Foreman.Footprint.Pattern
import Foreman.Footprint.Registry
import Foreman.Git.Branching
import Foreman.Git.Client
import Foreman.Git.Command
import Foreman.Git.Content
import Foreman.Git.Ignore
import Foreman.Git.Repository
import Foreman.Git.Status
import Foreman.Git.ThreeWay
import Foreman.Git.Worktrees
import Foreman.Json.Basic
import Foreman.Json.Decode
import Foreman.Json.Reader
import Foreman.Json.Writer
import Foreman.Kanban.Basic
import Foreman.Kanban.Document
import Foreman.Lock.Basic
import Foreman.LogLevel
import Foreman.Machine.Basic
import Foreman.Machine.Program
import Foreman.Main
import Foreman.Merge.Forest
import Foreman.Merge.Order
import Foreman.Merge.Report
import Foreman.Merge.Trunk
import Foreman.Number.Decimal
import Foreman.Number.Shortest
import Foreman.Operator.CommandLine
import Foreman.Operator.Console
import Foreman.Operator.Grammar
import Foreman.Operator.Overview
import Foreman.Operator.Report
import Foreman.Operator.Reset
import Foreman.Operator.SetUp
import Foreman.Operator.Work
import Foreman.Process.Launch
import Foreman.Process.Supervise
import Foreman.Proofs.Agent.Exit
import Foreman.Proofs.Agent.Reason
import Foreman.Proofs.Agent.Stream
import Foreman.Proofs.Coordinator.Cabinet
import Foreman.Proofs.Coordinator.Cooldown
import Foreman.Proofs.Coordinator.Dispatch
import Foreman.Proofs.Coordinator.Exchange
import Foreman.Proofs.Coordinator.Reset
import Foreman.Proofs.Coordinator.Rollback
import Foreman.Proofs.Coordinator.Settle
import Foreman.Proofs.Distinct
import Foreman.Proofs.Files.Write
import Foreman.Proofs.Footprint.Canonical
import Foreman.Proofs.Footprint.Claims
import Foreman.Proofs.Footprint.Components
import Foreman.Proofs.Footprint.Coverage
import Foreman.Proofs.Footprint.Queue
import Foreman.Proofs.Footprint.Reach
import Foreman.Proofs.Footprint.Stored
import Foreman.Proofs.Footprint.Waiting
import Foreman.Proofs.History.Accord
import Foreman.Proofs.History.Active
import Foreman.Proofs.History.Basic
import Foreman.Proofs.History.Budget
import Foreman.Proofs.History.Counters
import Foreman.Proofs.History.Desk
import Foreman.Proofs.History.Disjoint
import Foreman.Proofs.History.Finality
import Foreman.Proofs.History.Frame
import Foreman.Proofs.History.Names
import Foreman.Proofs.History.Pass
import Foreman.Proofs.History.Recovery
import Foreman.Proofs.History.Standing
import Foreman.Proofs.History.Tidy
import Foreman.Proofs.History.Workplace
import Foreman.Proofs.Json.Fields
import Foreman.Proofs.Json.Locality
import Foreman.Proofs.Json.RoundTrip
import Foreman.Proofs.Kanban.Document
import Foreman.Proofs.Kanban.Frame
import Foreman.Proofs.Kanban.Taking
import Foreman.Proofs.Kanban.Tasks
import Foreman.Proofs.Lock.Contest
import Foreman.Proofs.Merge.Forest
import Foreman.Proofs.Merge.Lookup
import Foreman.Proofs.Merge.Order
import Foreman.Proofs.Merge.Report
import Foreman.Proofs.Operator.Ignore
import Foreman.Proofs.Operator.Reset
import Foreman.Proofs.Run.Advance
import Foreman.Proofs.Run.Balance
import Foreman.Proofs.Run.Branches
import Foreman.Proofs.Run.Flights
import Foreman.Proofs.Run.Precedence
import Foreman.Proofs.Run.Slots
import Foreman.Proofs.Schedule.Plan
import Foreman.Proofs.Schedule.Release
import Foreman.Proofs.Schedule.Waking
import Foreman.Proofs.State.Document
import Foreman.Proofs.State.Lineage
import Foreman.Proofs.State.Liveness
import Foreman.Proofs.State.Metrics
import Foreman.Proofs.State.Records
import Foreman.Proofs.State.Restart
import Foreman.Proofs.Table
import Foreman.Proofs.Task.NaturalOrder
import Foreman.Proofs.Text.Blank
import Foreman.Proofs.Text.Digits
import Foreman.Proofs.Text.Lines
import Foreman.Proofs.Text.Utf8
import Foreman.Proofs.Time.Calendar
import Foreman.Proofs.Time.Instant
import Foreman.Proofs.Time.Rfc3339
import Foreman.Proofs.Worker.Names
import Foreman.Proofs.Yaml.Blocks
import Foreman.Proofs.Yaml.Cursor
import Foreman.Proofs.Yaml.Data
import Foreman.Proofs.Yaml.Literal
import Foreman.Proofs.Yaml.Plain
import Foreman.Proofs.Yaml.Quoted
import Foreman.Proofs.Yaml.Read
import Foreman.Proofs.Yaml.Scalar
import Foreman.Proofs.Yaml.Stream
import Foreman.Proofs.Yaml.Written
import Foreman.Run.Attempt
import Foreman.Run.Basic
import Foreman.Run.Link
import Foreman.Run.Loop
import Foreman.Run.Rehearsal
import Foreman.Schedule.Eligibility
import Foreman.Schedule.Score
import Foreman.Schedule.Selection
import Foreman.Schedule.Snapshot
import Foreman.Shell.Basic
import Foreman.Shell.Environment
import Foreman.Shell.Field
import Foreman.Shell.Perl
import Foreman.Shell.Printf
import Foreman.Shell.Reader
import Foreman.Shell.Run
import Foreman.Shell.Sum
import Foreman.Shell.Test
import Foreman.Shell.Utility
import Foreman.Sorting
import Foreman.State.Basic
import Foreman.State.Document
import Foreman.State.Liveness
import Foreman.State.Metrics
import Foreman.Table
import Foreman.Task.Basic
import Foreman.Task.Id
import Foreman.Task.Status
import Foreman.Text.Blank
import Foreman.Text.Case
import Foreman.Text.Integer
import Foreman.Text.Quoted
import Foreman.Text.Regex
import Foreman.Text.Search
import Foreman.Text.Utf8
import Foreman.Text.WordChar
import Foreman.Time.Calendar
import Foreman.Time.Instant
import Foreman.Time.Rfc3339
import Foreman.Time.Span
import Foreman.Toml.Basic
import Foreman.Toml.Printer
import Foreman.Toml.Reader
import Foreman.Worker.Basic
import Foreman.Worker.Status
import Foreman.Workspace.Basic
import Foreman.Yaml.Basic
import Foreman.Yaml.Cursor
import Foreman.Yaml.Printer
import Foreman.Yaml.Reader
import Foreman.Yaml.Scalar
import Foreman.Yaml.Scanner
import Foreman.Yaml.Token
