import PipelineTraining.Clock.Action
import PipelineTraining.Clock.Simulation
import PipelineTraining.Clock.WorkOrder
import PipelineTraining.Cluster.Basic
import PipelineTraining.Cluster.Callbacks
import PipelineTraining.Cluster.Ensemble
import PipelineTraining.Cluster.Rehearsal
import PipelineTraining.Cluster.Schedule
import PipelineTraining.Config.Basic
import PipelineTraining.Config.Loading
import PipelineTraining.Decimal.Binary
import PipelineTraining.Decimal.Magnitude
import PipelineTraining.Decimal.Shortest
import PipelineTraining.Decimal.Style
import PipelineTraining.Document.Interest
import PipelineTraining.Document.Plan
import PipelineTraining.Document.Record
import PipelineTraining.Document.Settings
import PipelineTraining.Document.Source
import PipelineTraining.Document.Text
import PipelineTraining.Document.Timing
import PipelineTraining.Document.Validation
import PipelineTraining.Document.Yaml
import PipelineTraining.Duration
import PipelineTraining.Engine.Attempt
import PipelineTraining.Engine.Run
import PipelineTraining.Engine.Worker
import PipelineTraining.Fault
import PipelineTraining.Fingerprint.Basic
import PipelineTraining.Fingerprint.Digest
import PipelineTraining.Json.Number
import PipelineTraining.Json.Reader
import PipelineTraining.Json.Value
import PipelineTraining.Layout
import PipelineTraining.Limiter
import PipelineTraining.Operation
import PipelineTraining.Plan.Basic
import PipelineTraining.Plan.Blueprint
import PipelineTraining.Plan.Verification
import PipelineTraining.Proofs.Clock.Choice
import PipelineTraining.Proofs.Clock.Course
import PipelineTraining.Proofs.Clock.CriticalPath
import PipelineTraining.Proofs.Clock.Enumeration
import PipelineTraining.Proofs.Clock.Exactness
import PipelineTraining.Proofs.Clock.Feasibility
import PipelineTraining.Proofs.Clock.Filling
import PipelineTraining.Proofs.Clock.Foresight
import PipelineTraining.Proofs.Clock.History
import PipelineTraining.Proofs.Clock.Horizon
import PipelineTraining.Proofs.Clock.Outcome
import PipelineTraining.Proofs.Clock.Phases
import PipelineTraining.Proofs.Clock.Punctuality
import PipelineTraining.Proofs.Clock.Succession
import PipelineTraining.Proofs.Clock.TickRange
import PipelineTraining.Proofs.Clock.Timetable
import PipelineTraining.Proofs.Clock.Turns
import PipelineTraining.Proofs.Clock.WorkOrder
import PipelineTraining.Proofs.Cluster.AttemptPayloads
import PipelineTraining.Proofs.Cluster.Calls
import PipelineTraining.Proofs.Cluster.CallsOnce
import PipelineTraining.Proofs.Cluster.CommonOutcome
import PipelineTraining.Proofs.Cluster.Composition
import PipelineTraining.Proofs.Cluster.GuardedMoves
import PipelineTraining.Proofs.Cluster.GuardedStep
import PipelineTraining.Proofs.Cluster.InFlight
import PipelineTraining.Proofs.Cluster.Interleaving
import PipelineTraining.Proofs.Cluster.Isolation
import PipelineTraining.Proofs.Cluster.Joint
import PipelineTraining.Proofs.Cluster.Lockstep
import PipelineTraining.Proofs.Cluster.Progress
import PipelineTraining.Proofs.Cluster.RankDistance
import PipelineTraining.Proofs.Cluster.Readiness
import PipelineTraining.Proofs.Cluster.Session
import PipelineTraining.Proofs.Cluster.SessionMoves
import PipelineTraining.Proofs.Cluster.SharedVerdict
import PipelineTraining.Proofs.Cluster.Turning
import PipelineTraining.Proofs.Cluster.UnblockedRank
import PipelineTraining.Proofs.Cluster.Waiting
import PipelineTraining.Proofs.Config.Agreement
import PipelineTraining.Proofs.Document.Records
import PipelineTraining.Proofs.Document.RoundTrip
import PipelineTraining.Proofs.Engine.Advance
import PipelineTraining.Proofs.Engine.Atomicity
import PipelineTraining.Proofs.Engine.AttemptProgress
import PipelineTraining.Proofs.Engine.Conduct
import PipelineTraining.Proofs.Engine.Dialogue
import PipelineTraining.Proofs.Engine.Drain
import PipelineTraining.Proofs.Engine.Driving
import PipelineTraining.Proofs.Engine.GroupCalls
import PipelineTraining.Proofs.Engine.HeldValues
import PipelineTraining.Proofs.Engine.Increments
import PipelineTraining.Proofs.Engine.NextOperation
import PipelineTraining.Proofs.Engine.PassInputs
import PipelineTraining.Proofs.Engine.Precedence
import PipelineTraining.Proofs.Engine.Recording
import PipelineTraining.Proofs.Engine.Repair
import PipelineTraining.Proofs.Engine.Rounds
import PipelineTraining.Proofs.Engine.Safekeeping
import PipelineTraining.Proofs.Engine.SeenCalls
import PipelineTraining.Proofs.Engine.SingleRankProgress
import PipelineTraining.Proofs.Engine.Span
import PipelineTraining.Proofs.Engine.Steady
import PipelineTraining.Proofs.Engine.Steps
import PipelineTraining.Proofs.Engine.Thoroughness
import PipelineTraining.Proofs.Engine.Trial
import PipelineTraining.Proofs.Engine.Turns
import PipelineTraining.Proofs.Engine.Verdicts
import PipelineTraining.Proofs.Fingerprint.Sensitivity
import PipelineTraining.Proofs.Layout.Stages
import PipelineTraining.Proofs.Layout.Tiling
import PipelineTraining.Proofs.Layout.Way
import PipelineTraining.Proofs.Limiter.Accounting
import PipelineTraining.Proofs.Limiter.Counting
import PipelineTraining.Proofs.Plan.Acceptance
import PipelineTraining.Proofs.Plan.Accounting
import PipelineTraining.Proofs.Plan.Building
import PipelineTraining.Proofs.Plan.BuiltCourse
import PipelineTraining.Proofs.Plan.Coverage
import PipelineTraining.Proofs.Plan.Crossings
import PipelineTraining.Proofs.Plan.Discipline
import PipelineTraining.Proofs.Plan.Exchange
import PipelineTraining.Proofs.Plan.Handover
import PipelineTraining.Proofs.Plan.Lawful
import PipelineTraining.Proofs.Plan.Script
import PipelineTraining.Proofs.Service.Account
import PipelineTraining.Proofs.Timing.Measuring
import PipelineTraining.Proofs.Transport.Delivery
import PipelineTraining.Proofs.Transport.Encoding
import PipelineTraining.Proofs.Transport.Epochs
import PipelineTraining.Proofs.Transport.Reliability
import PipelineTraining.Proofs.Transport.Tags
import PipelineTraining.Proofs.Validation.Gathering
import PipelineTraining.Proofs.Validation.Retrying
import PipelineTraining.Proofs.Validation.Unanimity
import PipelineTraining.Proofs.Validation.Verdict
import PipelineTraining.StepState
import PipelineTraining.Text.Invisible
import PipelineTraining.Text.Quoted
import PipelineTraining.Timing.Record
import PipelineTraining.Timing.Window
import PipelineTraining.Topology
import PipelineTraining.Transport.Mesh
import PipelineTraining.Transport.Tag
import PipelineTraining.Validation.Comparison
import PipelineTraining.Validation.Gather
import PipelineTraining.Validation.Settings
import PipelineTraining.Validation.StepCycle
import PipelineTraining.Validation.Validator
import PipelineTraining.Yaml.Core
import PipelineTraining.Yaml.Cursor
import PipelineTraining.Yaml.Node
import PipelineTraining.Yaml.Scalar
import PipelineTraining.Yaml.Tag
import PipelineTraining.Yaml.Token
