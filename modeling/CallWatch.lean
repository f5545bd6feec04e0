import CallWatch.Call
import CallWatch.CommandLine.Arguments
import CallWatch.CommandLine.Disk
import CallWatch.CommandLine.Program
import CallWatch.Debounce
import CallWatch.Decision
import CallWatch.Engine.Answering
import CallWatch.Engine.Basic
import CallWatch.Engine.Calls
import CallWatch.Engine.Decisions
import CallWatch.Engine.Lookup
import CallWatch.Engine.Pipeline
import CallWatch.Failure
import CallWatch.Identifier
import CallWatch.Json.Basic
import CallWatch.Json.Printer
import CallWatch.Json.Reader
import CallWatch.Keyed
import CallWatch.Log.Event
import CallWatch.Log.Filter
import CallWatch.Log.Kept
import CallWatch.Log.Level
import CallWatch.Log.Setup
import CallWatch.Log.Sink
import CallWatch.Main
import CallWatch.Proofs.Debounce
import CallWatch.Proofs.Debounce.Faithful
import CallWatch.Proofs.Debounce.Timeline
import CallWatch.Proofs.Engine.Answers
import CallWatch.Proofs.Engine.Attempts
import CallWatch.Proofs.Engine.Burst
import CallWatch.Proofs.Engine.Control
import CallWatch.Proofs.Engine.Convergence
import CallWatch.Proofs.Engine.Delivery
import CallWatch.Proofs.Engine.Following
import CallWatch.Proofs.Engine.Notes
import CallWatch.Proofs.Engine.Order
import CallWatch.Proofs.Engine.Origins
import CallWatch.Proofs.Engine.Patience
import CallWatch.Proofs.Engine.Pipelines
import CallWatch.Proofs.Engine.Provenance
import CallWatch.Proofs.Engine.Publishing
import CallWatch.Proofs.Engine.Slot
import CallWatch.Proofs.Engine.Sources
import CallWatch.Proofs.Engine.Subscribers
import CallWatch.Proofs.Engine.Succession
import CallWatch.Proofs.Engine.Ties
import CallWatch.Proofs.Engine.Verdict
import CallWatch.Proofs.History
import CallWatch.Proofs.Identifier
import CallWatch.Proofs.Json.Compact
import CallWatch.Proofs.Json.Grammar
import CallWatch.Proofs.Json.Members
import CallWatch.Proofs.Json.Pretty
import CallWatch.Proofs.Json.Tidy
import CallWatch.Proofs.Json.Tokens
import CallWatch.Proofs.Keyed
import CallWatch.Proofs.Log.Inheritance
import CallWatch.Proofs.Log.KeptAnswers
import CallWatch.Proofs.Moves
import CallWatch.Proofs.Queue.Wakeups
import CallWatch.Proofs.Queue.Window
import CallWatch.Proofs.Service.Duty
import CallWatch.Proofs.Service.Mirroring
import CallWatch.Proofs.Service.Timeline
import CallWatch.Proofs.Settings.Defaults
import CallWatch.Proofs.Settings.Effective
import CallWatch.Proofs.Settings.Layers
import CallWatch.Proofs.Settings.Merge
import CallWatch.Proofs.Settings.Nulls
import CallWatch.Proofs.Store.Conservation
import CallWatch.Proofs.Stream.Latest
import CallWatch.Proofs.Wire.Fields
import CallWatch.Proofs.Wire.Forwarding
import CallWatch.Proofs.Wire.Ids
import CallWatch.Proofs.Wire.RoundTrip
import CallWatch.Proofs.World
import CallWatch.Queue.Buffer
import CallWatch.Queue.Waiting
import CallWatch.Scenario
import CallWatch.Service.Basic
import CallWatch.Service.Inquiry
import CallWatch.Service.Machine
import CallWatch.Session
import CallWatch.Settings.Basic
import CallWatch.Settings.Load
import CallWatch.Settings.Merge
import CallWatch.Store.Account
import CallWatch.Store.Basic
import CallWatch.Store.Conduct
import CallWatch.Stream.Combine
import CallWatch.Stream.Inbox
import CallWatch.Stream.Live
import CallWatch.Text.Blank
import CallWatch.Text.Double
import CallWatch.Text.Letters
import CallWatch.Text.Numeral
import CallWatch.Text.Quoted
import CallWatch.Text.Visible
import CallWatch.Wire.Call
import CallWatch.Wire.Decision
import CallWatch.Wire.Session
import CallWatch.Wire.Shape
