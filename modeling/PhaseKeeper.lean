import PhaseKeeper.Bus.Endpoint
import PhaseKeeper.Bus.Recording
import PhaseKeeper.Bus.SocketDirectory
import PhaseKeeper.Deployment
import PhaseKeeper.Event.Registry
import PhaseKeeper.Event.Schema
import PhaseKeeper.Handling.Delivery
import PhaseKeeper.Handling.Notice
import PhaseKeeper.Handling.Request
import PhaseKeeper.Handling.Transition
import PhaseKeeper.Identity.Sha1
import PhaseKeeper.Identity.Uuid
import PhaseKeeper.Json.Record
import PhaseKeeper.Json.Shape
import PhaseKeeper.Json.Value
import PhaseKeeper.Message.Envelope
import PhaseKeeper.Message.Payload
import PhaseKeeper.MessagePack.Head
import PhaseKeeper.MessagePack.Marker
import PhaseKeeper.MessagePack.Record
import PhaseKeeper.MessagePack.Value
import PhaseKeeper.MessagePack.Writer
import PhaseKeeper.Number.Binary64
import PhaseKeeper.Number.Decimal
import PhaseKeeper.Pipeline.Job
import PhaseKeeper.Pipeline.Phase
import PhaseKeeper.Program
import PhaseKeeper.Proofs.Bus.Endpoint
import PhaseKeeper.Proofs.Event.Validation
import PhaseKeeper.Proofs.Handling.Acceptance
import PhaseKeeper.Proofs.Handling.Course
import PhaseKeeper.Proofs.Handling.Footprint
import PhaseKeeper.Proofs.Handling.Itinerary
import PhaseKeeper.Proofs.Handling.Landing
import PhaseKeeper.Proofs.Handling.Overtaking
import PhaseKeeper.Proofs.Handling.Plan
import PhaseKeeper.Proofs.Handling.Timeliness
import PhaseKeeper.Proofs.Handling.Trail
import PhaseKeeper.Proofs.Handling.Wire
import PhaseKeeper.Proofs.Interleaving.Announcement
import PhaseKeeper.Proofs.Interleaving.Arrival
import PhaseKeeper.Proofs.Interleaving.Ascent
import PhaseKeeper.Proofs.Interleaving.Attention
import PhaseKeeper.Proofs.Interleaving.Bookkeeping
import PhaseKeeper.Proofs.Interleaving.Crew
import PhaseKeeper.Proofs.Interleaving.Dispatch
import PhaseKeeper.Proofs.Interleaving.Filing
import PhaseKeeper.Proofs.Interleaving.Justification
import PhaseKeeper.Proofs.Interleaving.Orders
import PhaseKeeper.Proofs.Interleaving.Pact
import PhaseKeeper.Proofs.Interleaving.Serial
import PhaseKeeper.Proofs.Interleaving.Solicitation
import PhaseKeeper.Proofs.Interleaving.Succession
import PhaseKeeper.Proofs.Interleaving.Tally
import PhaseKeeper.Proofs.Interleaving.Terms
import PhaseKeeper.Proofs.Json.Fit
import PhaseKeeper.Proofs.Json.Record
import PhaseKeeper.Proofs.Json.RoundTrip
import PhaseKeeper.Proofs.Message.Drafts
import PhaseKeeper.Proofs.Message.Envelope
import PhaseKeeper.Proofs.Message.Forms
import PhaseKeeper.Proofs.Message.Notices
import PhaseKeeper.Proofs.Message.Payload
import PhaseKeeper.Proofs.MessagePack.Head
import PhaseKeeper.Proofs.MessagePack.Reading
import PhaseKeeper.Proofs.MessagePack.Record
import PhaseKeeper.Proofs.MessagePack.Skipping
import PhaseKeeper.Proofs.MessagePack.Value
import PhaseKeeper.Proofs.Sequence.Account
import PhaseKeeper.Proofs.Sequence.Alone
import PhaseKeeper.Proofs.Sequence.Capacity
import PhaseKeeper.Proofs.Sequence.Completion
import PhaseKeeper.Proofs.Sequence.Deeds
import PhaseKeeper.Proofs.Sequence.Delay
import PhaseKeeper.Proofs.Sequence.Erasure
import PhaseKeeper.Proofs.Sequence.Intake
import PhaseKeeper.Proofs.Sequence.Isolation
import PhaseKeeper.Proofs.Sequence.Journey
import PhaseKeeper.Proofs.Sequence.Likeness
import PhaseKeeper.Proofs.Sequence.Recency
import PhaseKeeper.Proofs.Sequence.Redelivery
import PhaseKeeper.Proofs.Sequence.Script
import PhaseKeeper.Proofs.Settings.Connection
import PhaseKeeper.Proofs.Settings.Resolution
import PhaseKeeper.Proofs.Store.Contract
import PhaseKeeper.Proofs.Store.Derivation
import PhaseKeeper.Proofs.Store.Extract
import PhaseKeeper.Proofs.Store.Growth
import PhaseKeeper.Proofs.Store.Tables
import PhaseKeeper.Proofs.Store.Upkeep
import PhaseKeeper.Proofs.Text.Order
import PhaseKeeper.Proofs.Text.Utf8
import PhaseKeeper.Proofs.Time.Calendar
import PhaseKeeper.Proofs.Time.Text
import PhaseKeeper.Proofs.Worker.Intake
import PhaseKeeper.Proofs.Worker.Lifecycle
import PhaseKeeper.Rehearsal.Cue
import PhaseKeeper.Rehearsal.Database
import PhaseKeeper.Rehearsal.Rig
import PhaseKeeper.Rehearsal.Schedule
import PhaseKeeper.Rehearsal.Session
import PhaseKeeper.Rehearsal.Shift
import PhaseKeeper.Settings.EnvFile
import PhaseKeeper.Settings.Resolved
import PhaseKeeper.Store.Call
import PhaseKeeper.Store.Memory
import PhaseKeeper.Store.Recent
import PhaseKeeper.Store.Relational
import PhaseKeeper.Store.Statement
import PhaseKeeper.Text.Character
import PhaseKeeper.Text.Upper
import PhaseKeeper.Text.Utf8
import PhaseKeeper.Text.Word
import PhaseKeeper.Time.Date
import PhaseKeeper.Time.Instant
import PhaseKeeper.Time.Reading
import PhaseKeeper.Worker.Intake
import PhaseKeeper.Worker.Permits
import PhaseKeeper.Worker.Runner
