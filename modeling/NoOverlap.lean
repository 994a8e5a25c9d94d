import NoOverlap.Concurrency.Program
import NoOverlap.Concurrency.Machine
import NoOverlap.Concurrency.Footprint
import NoOverlap.Concurrency.RelyGuarantee
import NoOverlap.Concurrency.Transcript
import NoOverlap.Concurrency.Guarded
import NoOverlap.Concurrency.Projection
import NoOverlap.Data.Table
import NoOverlap.Data.JobQueue
import NoOverlap.Data.Json
import NoOverlap.Data.Calendar
import NoOverlap.Model.Schema
import NoOverlap.Model.Database
import NoOverlap.Model.Wire
import NoOverlap.Model.Statement
import NoOverlap.Model.Async
import NoOverlap.Model.Booking
import NoOverlap.Model.Payment
import NoOverlap.Model.System
import NoOverlap.Lifecycle.Footprint
import NoOverlap.Lifecycle.Rules
import NoOverlap.Lifecycle.Effect
import NoOverlap.Lifecycle.Answers
import NoOverlap.Lifecycle.Apart
import NoOverlap.Lifecycle.Overlap
import NoOverlap.Lifecycle.Transitions
import NoOverlap.Lifecycle.History
import NoOverlap.Seam.Growth
import NoOverlap.Seam.Invariant
import NoOverlap.Seam.Programs
import NoOverlap.Payments.Ledger
import NoOverlap.Payments.MockProvider
import NoOverlap.Payments.Gateway
import NoOverlap.Seam.Confirmation
import NoOverlap.Seam.Outbox
import NoOverlap.Seam.Agreement
import NoOverlap.Seam.Messages
import NoOverlap.Saga.Discipline
import NoOverlap.Saga.Redelivery
import NoOverlap.Saga.Cancellation
import NoOverlap.Saga.Faults
import NoOverlap.Saga.Conservation
import NoOverlap.Data.Retries
import NoOverlap.Payments.Replay
import NoOverlap.Payments.DeadLetters
import NoOverlap.Identity.SingleUse
import NoOverlap.Identity.Revocation
import NoOverlap.Identity.Failures
import NoOverlap.Identity.Earned
import NoOverlap.Browser.Presenting
import NoOverlap.Browser.SharedRefresh
import NoOverlap.Platform.Archive
import NoOverlap.Platform.Reviews
import NoOverlap.Platform.Guests
import NoOverlap.Platform.Hosts
import NoOverlap.Platform.Pausing
import NoOverlap.Platform.Summary
import NoOverlap.Holds.Race
import NoOverlap.Holds.Total
import NoOverlap.Stays.Shown
import NoOverlap.Stays.Offered
import NoOverlap.Realtime.Screen
import NoOverlap.Realtime.Announced
import NoOverlap.Realtime.Rooms
import NoOverlap.Realtime.Sequence
import NoOverlap.Concurrency.Chronicle
import NoOverlap.Data.Roster
import NoOverlap.Lifecycle.Desk
import NoOverlap.Lifecycle.Atomic
import NoOverlap.Lifecycle.Bookings
import NoOverlap.Concurrency.Progress
import NoOverlap.Data.Backlog
import NoOverlap.Recovery.Turns
import NoOverlap.Recovery.Waiting
import NoOverlap.Recovery.Relay
import NoOverlap.Recovery.Rest
import NoOverlap.Http.Bodies
import NoOverlap.Http.Routes
import NoOverlap.Http.Kept
import NoOverlap.Http.Api
import NoOverlap.Recovery.Calls
import NoOverlap.Recovery.Bookable
import NoOverlap.Data.Document
import NoOverlap.Problems.Server
import NoOverlap.Problems.Client
import NoOverlap.Problems.RoundTrip
import NoOverlap.Data.Binary64
import NoOverlap.Stays.Money
