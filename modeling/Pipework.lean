import Pipework.Action
import Pipework.Argument
import Pipework.Capture
import Pipework.Command.Basic
import Pipework.Command.Make
import Pipework.Command.Template
import Pipework.Decimal.Double
import Pipework.Decimal.Rounding
import Pipework.Engine
import Pipework.Error
import Pipework.Graph.Basic
import Pipework.Graph.Build
import Pipework.Graph.Inspect
import Pipework.Handle
import Pipework.Memory
import Pipework.Object
import Pipework.Proofs.Capture.Agreement
import Pipework.Proofs.Capture.Attended
import Pipework.Proofs.Capture.Blindness
import Pipework.Proofs.Capture.Cleanup
import Pipework.Proofs.Capture.Encodings
import Pipework.Proofs.Capture.Ending
import Pipework.Proofs.Capture.Finishing
import Pipework.Proofs.Capture.Input
import Pipework.Proofs.Capture.Lines
import Pipework.Proofs.Capture.Pieces
import Pipework.Proofs.Capture.Script
import Pipework.Proofs.Capture.Settling
import Pipework.Proofs.Capture.Streaming
import Pipework.Proofs.Custody.Calls
import Pipework.Proofs.Custody.Crews
import Pipework.Proofs.Custody.Ends
import Pipework.Proofs.Custody.Handover
import Pipework.Proofs.Custody.Life
import Pipework.Proofs.Custody.Proceeding
import Pipework.Proofs.Custody.Pumps
import Pipework.Proofs.Custody.Steps
import Pipework.Proofs.Engine.Accepting
import Pipework.Proofs.Engine.Acyclic
import Pipework.Proofs.Engine.Associativity
import Pipework.Proofs.Engine.CallerEnds
import Pipework.Proofs.Engine.Communication
import Pipework.Proofs.Engine.Dangling
import Pipework.Proofs.Engine.Distributing
import Pipework.Proofs.Engine.Failure
import Pipework.Proofs.Engine.Flattening
import Pipework.Proofs.Engine.Handover
import Pipework.Proofs.Engine.Merging
import Pipework.Proofs.Engine.Ownership
import Pipework.Proofs.Engine.Phases
import Pipework.Proofs.Engine.Plan
import Pipework.Proofs.Engine.Provision
import Pipework.Proofs.Engine.Requests
import Pipework.Proofs.Engine.Streams
import Pipework.Proofs.Engine.Suppliers
import Pipework.Proofs.Engine.Takers
import Pipework.Proofs.Engine.Watching
import Pipework.Proofs.Exchange.Calling
import Pipework.Proofs.Exchange.Communicating
import Pipework.Proofs.Exchange.Draining
import Pipework.Proofs.Exchange.Feeding
import Pipework.Proofs.Exchange.Lossless
import Pipework.Proofs.Exchange.Reaching
import Pipework.Proofs.Exchange.Soundness
import Pipework.Proofs.Exchange.Steps
import Pipework.Proofs.Expansion.Once
import Pipework.Proofs.Expansion.Product
import Pipework.Proofs.Expansion.Texts
import Pipework.Proofs.Graph.Bracketing
import Pipework.Proofs.Graph.Builders
import Pipework.Proofs.Graph.Building
import Pipework.Proofs.Graph.Chaining
import Pipework.Proofs.Graph.Growth
import Pipework.Proofs.Graph.Joined
import Pipework.Proofs.Graph.Nodes
import Pipework.Proofs.Graph.Plain
import Pipework.Proofs.Graph.Redirected
import Pipework.Proofs.Graph.Regrouping
import Pipework.Proofs.Graph.Trees
import Pipework.Proofs.Handle.Abandoning
import Pipework.Proofs.Handle.Brisk
import Pipework.Proofs.Handle.Deadline
import Pipework.Proofs.Handle.Endings
import Pipework.Proofs.Handle.Escalating
import Pipework.Proofs.Handle.Looking
import Pipework.Proofs.Handle.Reapers
import Pipework.Proofs.Handle.Undelivered
import Pipework.Proofs.Handle.Unwatched
import Pipework.Proofs.Handle.Verdicts
import Pipework.Proofs.Handle.Waiting
import Pipework.Proofs.Pump.Collecting
import Pipework.Proofs.Pump.Drainage
import Pipework.Proofs.Pump.Failing
import Pipework.Proofs.Pump.Ignoring
import Pipework.Proofs.Pump.Kinds
import Pipework.Proofs.Pump.Launching
import Pipework.Proofs.Pump.Offering
import Pipework.Proofs.Pump.Sources
import Pipework.Proofs.Pump.Starting
import Pipework.Proofs.Pump.Writes
import Pipework.Proofs.Supply.Reaching
import Pipework.Proofs.Supply.Steps
import Pipework.Proofs.System.Accounts
import Pipework.Proofs.System.Acts
import Pipework.Proofs.System.Ahead
import Pipework.Proofs.System.Deadlines
import Pipework.Proofs.System.Descriptors
import Pipework.Proofs.System.Execution
import Pipework.Proofs.System.Passing
import Pipework.Proofs.System.Pipes
import Pipework.Proofs.System.Processes
import Pipework.Proofs.System.Stillness
import Pipework.Proofs.System.Unseen
import Pipework.Proofs.Template.Acceptance
import Pipework.Proofs.Template.Braces
import Pipework.Proofs.Template.Faults
import Pipework.Proofs.Template.Following
import Pipework.Proofs.Template.Grammar
import Pipework.Proofs.Template.Markers
import Pipework.Proofs.Template.Moving
import Pipework.Proofs.Template.Outline
import Pipework.Proofs.Template.Places
import Pipework.Proofs.Template.Quoting
import Pipework.Proofs.Template.Reading
import Pipework.Proofs.Template.Separation
import Pipework.Proofs.Template.ShellLine
import Pipework.Proofs.Template.Signs
import Pipework.Proofs.Template.Verbatim
import Pipework.Proofs.Text.Decoding
import Pipework.Proofs.Text.LineEnds
import Pipework.Proofs.Text.Lines
import Pipework.Proofs.Text.Pieces
import Pipework.Proofs.Text.Sequences
import Pipework.Proofs.Text.Units
import Pipework.Proofs.Vigil.Sharing
import Pipework.Proofs.Vigil.Soundness
import Pipework.Proofs.Vigil.Steps
import Pipework.Proofs.Vigil.Strands
import Pipework.Proofs.Vigil.Threads
import Pipework.Proofs.Vigil.Waiting
import Pipework.Proofs.Wiring.Abort
import Pipework.Proofs.Wiring.Abreast
import Pipework.Proofs.Wiring.Carrying
import Pipework.Proofs.Wiring.Channels
import Pipework.Proofs.Wiring.Chores
import Pipework.Proofs.Wiring.Dissolving
import Pipework.Proofs.Wiring.Distinct
import Pipework.Proofs.Wiring.Distributing
import Pipework.Proofs.Wiring.Doable
import Pipework.Proofs.Wiring.Endpoints
import Pipework.Proofs.Wiring.Flow
import Pipework.Proofs.Wiring.Gaining
import Pipework.Proofs.Wiring.Groupings
import Pipework.Proofs.Wiring.Holders
import Pipework.Proofs.Wiring.Kept
import Pipework.Proofs.Wiring.Ledger
import Pipework.Proofs.Wiring.Nodes
import Pipework.Proofs.Wiring.Occurrences
import Pipework.Proofs.Wiring.Progress
import Pipework.Proofs.Wiring.Pushing
import Pipework.Proofs.Wiring.Readiness
import Pipework.Proofs.Wiring.Reaping
import Pipework.Proofs.Wiring.Regrouping
import Pipework.Proofs.Wiring.Release
import Pipework.Proofs.Wiring.Renaming
import Pipework.Proofs.Wiring.Roster
import Pipework.Proofs.Wiring.Served
import Pipework.Proofs.Wiring.Spines
import Pipework.Proofs.Wiring.Steps
import Pipework.Proofs.Wiring.Verdicts
import Pipework.Proofs.Wiring.Walk
import Pipework.Pump
import Pipework.Pump.Trial
import Pipework.Registry
import Pipework.Status
import Pipework.Stream
import Pipework.System.Calls
import Pipework.System.Ends
import Pipework.System.Schedule
import Pipework.System.World
import Pipework.Template.Lexer
import Pipework.Template.Shown
import Pipework.Template.Token
import Pipework.Text.Basic
import Pipework.Text.Coding
import Pipework.Text.Escape
import Pipework.Text.Letter
import Pipework.Text.Lines
import Pipework.Text.Literal
import Pipework.Text.RangeTables
import Pipework.Time
import Pipework.Value.Basic
import Pipework.Value.Equality
import Pipework.Value.Join
import Pipework.Value.Sequence
import Pipework.Value.Text
import Pipework.Value.View
import Pipework.Wiring
import Pipework.Wording
import Pipework.Proofs.Template.Markers
import Pipework.Proofs.Template.Braces
