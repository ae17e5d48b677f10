import FramedCall.CallError
import FramedCall.Client
import FramedCall.Client.Operation
import FramedCall.Conventions
import FramedCall.Decimal.Digits
import FramedCall.Decimal.Shortest
import FramedCall.FailureLog
import FramedCall.Framing
import FramedCall.Framing.Deframer
import FramedCall.Framing.Length
import FramedCall.Framing.Operation
import FramedCall.Framing.Routine
import FramedCall.Handler
import FramedCall.Handler.Stock
import FramedCall.Json.Mismatch
import FramedCall.Json.Normalize
import FramedCall.Json.Number
import FramedCall.Json.Printer
import FramedCall.Json.Reader
import FramedCall.Json.Real
import FramedCall.Json.Record
import FramedCall.Json.SafeInteger
import FramedCall.Json.Typed
import FramedCall.Json.Value
import FramedCall.Keyed
import FramedCall.Outbox
import FramedCall.Outbox.Batch
import FramedCall.Outbox.Sender
import FramedCall.Outbox.Sequencer
import FramedCall.Payload
import FramedCall.Proofs.Client
import FramedCall.Proofs.Client.Pairing
import FramedCall.Proofs.Client.Receiving
import FramedCall.Proofs.Exchange
import FramedCall.Proofs.FailureLog
import FramedCall.Proofs.Framing.Delivery
import FramedCall.Proofs.Framing.Held
import FramedCall.Proofs.Framing.History
import FramedCall.Proofs.Framing.Length
import FramedCall.Proofs.Framing.RoundTrip
import FramedCall.Proofs.Framing.Search
import FramedCall.Proofs.Framing.Violations
import FramedCall.Proofs.Handler.Echo
import FramedCall.Proofs.Json.Acceptance
import FramedCall.Proofs.Json.Blank
import FramedCall.Proofs.Json.Number
import FramedCall.Proofs.Json.Position
import FramedCall.Proofs.Json.Reading
import FramedCall.Proofs.Json.Record
import FramedCall.Proofs.Json.Rereading
import FramedCall.Proofs.Json.SafeInteger
import FramedCall.Proofs.Json.Wire
import FramedCall.Proofs.Keyed
import FramedCall.Proofs.Outbox.Batch
import FramedCall.Proofs.Outbox.Sequencing
import FramedCall.Proofs.Outbox.Writing
import FramedCall.Proofs.Payload
import FramedCall.Proofs.Payload.Typed
import FramedCall.Proofs.Routing
import FramedCall.Proofs.Server.Accounting
import FramedCall.Proofs.Server.Feed
import FramedCall.Proofs.Server.LineEnds
import FramedCall.Proofs.Server.Logging
import FramedCall.Proofs.Server.Output
import FramedCall.Proofs.Server.Places
import FramedCall.Proofs.Settings
import FramedCall.Proofs.Settlement
import FramedCall.Proofs.Stream.Recording
import FramedCall.Proofs.Stream.Sink
import FramedCall.Proofs.Tagging
import FramedCall.Proofs.Text.Numeral
import FramedCall.Proofs.Text.Utf8
import FramedCall.Routing
import FramedCall.Server
import FramedCall.Server.Backlog
import FramedCall.Server.Pipe
import FramedCall.Server.Schedule
import FramedCall.Server.Serving
import FramedCall.Server.Session
import FramedCall.Settings
import FramedCall.Settlement
import FramedCall.Stream.Channel
import FramedCall.Stream.Device
import FramedCall.Stream.Sink
import FramedCall.Stream.Source
import FramedCall.Tagging
import FramedCall.Text.Invisible
import FramedCall.Text.Numeral
import FramedCall.Text.Quoted
import FramedCall.Text.Utf8
import FramedCall.Worker
import FramedCall.Proofs.Json.Record
