import RemoteCall.Calendar.Date
import RemoteCall.Calendar.DateTime
import RemoteCall.Calendar.Duration
import RemoteCall.Calendar.Time
import RemoteCall.CallError
import RemoteCall.Client.Basic
import RemoteCall.Client.Connector
import RemoteCall.Client.RemoteMethod
import RemoteCall.Client.Scheduler
import RemoteCall.Client.Session
import RemoteCall.Client.Settings
import RemoteCall.Client.TimedSession
import RemoteCall.Client.TimerQueue
import RemoteCall.Codec.ClassId
import RemoteCall.Codec.Decode
import RemoteCall.Codec.Encode
import RemoteCall.Codec.Registry
import RemoteCall.Codec.Scalar
import RemoteCall.Codec.Settings
import RemoteCall.CodecError
import RemoteCall.Comparator
import RemoteCall.Envelope.Request
import RemoteCall.Envelope.Response
import RemoteCall.Frame
import RemoteCall.Number.BigDecimal
import RemoteCall.Number.BigInteger
import RemoteCall.Number.Ieee
import RemoteCall.Number.Shortest
import RemoteCall.Proofs.Client.Accounts
import RemoteCall.Proofs.Client.ClosedClients
import RemoteCall.Proofs.Client.Closing
import RemoteCall.Proofs.Client.Connecting
import RemoteCall.Proofs.Client.Deadlines
import RemoteCall.Proofs.Client.Downstream
import RemoteCall.Proofs.Client.ExactlyOnce
import RemoteCall.Proofs.Client.Expiry
import RemoteCall.Proofs.Client.Lining
import RemoteCall.Proofs.Client.OneConnection
import RemoteCall.Proofs.Client.Retrying
import RemoteCall.Proofs.Client.Scheduling
import RemoteCall.Proofs.Client.StayingClosed
import RemoteCall.Proofs.Client.Streaming
import RemoteCall.Proofs.Client.Teardown
import RemoteCall.Proofs.Client.Timeouts
import RemoteCall.Proofs.Client.TimerOrder
import RemoteCall.Proofs.Client.Transmission
import RemoteCall.Proofs.Codec.Accepting
import RemoteCall.Proofs.Codec.AllowList
import RemoteCall.Proofs.Codec.Amplification
import RemoteCall.Proofs.Codec.Classes
import RemoteCall.Proofs.Codec.Composing
import RemoteCall.Proofs.Codec.Consumption
import RemoteCall.Proofs.Codec.Declared
import RemoteCall.Proofs.Codec.DepthBound
import RemoteCall.Proofs.Codec.Everywhere
import RemoteCall.Proofs.Codec.Following
import RemoteCall.Proofs.Codec.InstanceOrder
import RemoteCall.Proofs.Codec.Leaving
import RemoteCall.Proofs.Codec.Marking
import RemoteCall.Proofs.Codec.Normalising
import RemoteCall.Proofs.Codec.PrefixFree
import RemoteCall.Proofs.Codec.ReadBack
import RemoteCall.Proofs.Codec.Renaming
import RemoteCall.Proofs.Codec.Restating
import RemoteCall.Proofs.Codec.RoundTrip
import RemoteCall.Proofs.Codec.Scalars
import RemoteCall.Proofs.Codec.Signatures
import RemoteCall.Proofs.Codec.SortedMaps
import RemoteCall.Proofs.Codec.Spelling
import RemoteCall.Proofs.Codec.Taking
import RemoteCall.Proofs.Codec.Tracing
import RemoteCall.Proofs.Codec.Transcript
import RemoteCall.Proofs.Codec.Unmarking
import RemoteCall.Proofs.Codec.UserClasses
import RemoteCall.Proofs.Codec.VoidArrays
import RemoteCall.Proofs.Codec.Widening
import RemoteCall.Proofs.Codec.Writing
import RemoteCall.Proofs.Exchange.Agreement
import RemoteCall.Proofs.Exchange.AtConnection
import RemoteCall.Proofs.Exchange.AtSession
import RemoteCall.Proofs.Exchange.Basic
import RemoteCall.Proofs.Exchange.Rest
import RemoteCall.Proofs.Exchange.Runs
import RemoteCall.Proofs.Exchange.Stages
import RemoteCall.Proofs.Exchange.Steps
import RemoteCall.Proofs.Exchange.Verdict
import RemoteCall.Proofs.Keyed
import RemoteCall.Proofs.Number.TwosComplement
import RemoteCall.Proofs.Server.AnsweredOnce
import RemoteCall.Proofs.Server.Dispatching
import RemoteCall.Proofs.Server.Fatal
import RemoteCall.Proofs.Server.Idleness
import RemoteCall.Proofs.Server.InFlight
import RemoteCall.Proofs.Server.InPlace
import RemoteCall.Proofs.Server.Isolation
import RemoteCall.Proofs.Server.Lifecycle
import RemoteCall.Proofs.Server.Lives
import RemoteCall.Proofs.Server.Reaping
import RemoteCall.Proofs.Server.Refusals
import RemoteCall.Proofs.Server.Registrations
import RemoteCall.Proofs.Server.Replies
import RemoteCall.Proofs.Server.Sending
import RemoteCall.Proofs.Server.Steps
import RemoteCall.Proofs.Server.Table
import RemoteCall.Proofs.Server.Upstream
import RemoteCall.Proofs.StreamEnds
import RemoteCall.Proofs.Typing.Conversions
import RemoteCall.Proofs.Value.Acceptance
import RemoteCall.Proofs.Value.Arrange
import RemoteCall.Proofs.Value.Built
import RemoteCall.Proofs.Value.Collapsing
import RemoteCall.Proofs.Value.Comparison
import RemoteCall.Proofs.Value.Depth
import RemoteCall.Proofs.Value.Distinct
import RemoteCall.Proofs.Value.Equality
import RemoteCall.Proofs.Value.Finding
import RemoteCall.Proofs.Value.Graph
import RemoteCall.Proofs.Value.Insertion
import RemoteCall.Proofs.Value.Instances
import RemoteCall.Proofs.Value.Listing
import RemoteCall.Proofs.Value.Order
import RemoteCall.Proofs.Value.Rebuilt
import RemoteCall.Proofs.Value.SortOrder
import RemoteCall.Proofs.Value.SortedContainers
import RemoteCall.Proofs.Value.Turning
import RemoteCall.Proofs.Wire.Accepted
import RemoteCall.Proofs.Wire.Carrying
import RemoteCall.Proofs.Wire.Filling
import RemoteCall.Proofs.Wire.Framing
import RemoteCall.Proofs.Wire.Groups
import RemoteCall.Proofs.Wire.Lengths
import RemoteCall.Proofs.Wire.Reading
import RemoteCall.Proofs.Wire.StreamEnd
import RemoteCall.Proofs.Wire.WholeFrames
import RemoteCall.Proofs.Wire.Words
import RemoteCall.Server.Activity
import RemoteCall.Server.Basic
import RemoteCall.Server.Connection
import RemoteCall.Server.Dispatch
import RemoteCall.Server.Service
import RemoteCall.Server.Settings
import RemoteCall.Text.CaseTable
import RemoteCall.Text.Lowercase
import RemoteCall.Text.Padded
import RemoteCall.Text.Printable
import RemoteCall.Text.Quoted
import RemoteCall.Timespan
import RemoteCall.Tree.Basic
import RemoteCall.Tree.Envelope
import RemoteCall.Tree.Failure
import RemoteCall.Tree.Native
import RemoteCall.Tree.Service
import RemoteCall.Tree.Settings
import RemoteCall.Tree.Types
import RemoteCall.Tree.Value
import RemoteCall.Typing.Assignable
import RemoteCall.Typing.Native
import RemoteCall.Typing.Signature
import RemoteCall.Typing.TypeRef
import RemoteCall.Value.Basic
import RemoteCall.Value.Container
import RemoteCall.Value.Identity
import RemoteCall.Value.Order
import RemoteCall.Value.Scalar
import RemoteCall.Wire.Reader
import RemoteCall.Wire.Sized
import RemoteCall.Wire.Varint
