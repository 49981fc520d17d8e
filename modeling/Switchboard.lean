import Switchboard.Bytes
import Switchboard.Checksum
import Switchboard.Client.CommandHandler
import Switchboard.Client.Connection
import Switchboard.Client.Error
import Switchboard.Client.Handler
import Switchboard.Client.Opening
import Switchboard.Client.Options
import Switchboard.Client.Pending
import Switchboard.Client.Rehearsal
import Switchboard.Client.RequestIds
import Switchboard.Client.WriteQueue
import Switchboard.Digits
import Switchboard.Duration
import Switchboard.Envelope
import Switchboard.ErrorCode
import Switchboard.Frame
import Switchboard.Json.Basic
import Switchboard.Json.Lexer
import Switchboard.Json.Parser
import Switchboard.Json.Printer
import Switchboard.Message
import Switchboard.Net.Address
import Switchboard.Net.AddressReader
import Switchboard.Net.Host
import Switchboard.Network.Basic
import Switchboard.Network.Conversation
import Switchboard.ProtocolError
import Switchboard.Relay.Basic
import Switchboard.Relay.Config
import Switchboard.Relay.Error
import Switchboard.Relay.Link
import Switchboard.Relay.Options
import Switchboard.Relay.Outbox
import Switchboard.Relay.Rehearsal
import Switchboard.Relay.Router
import Switchboard.Relay.Session
import Switchboard.Relay.Settings
import Switchboard.Text.Blank
import Switchboard.Text.Lossy
import Switchboard.TransportFault
import Switchboard.Yaml.Basic
import Switchboard.Yaml.Cursor
import Switchboard.Yaml.Lexer
import Switchboard.Yaml.Parser
import Switchboard.Yaml.Scalar
import Switchboard.Proofs.Lookup
import Switchboard.Proofs.Digits
import Switchboard.Proofs.Router.Outboxes
import Switchboard.Proofs.Connection.Answers
import Switchboard.Proofs.Connection.FirstAnswers
import Switchboard.Proofs.Connection.Loss
import Switchboard.Proofs.Decoding
import Switchboard.Proofs.Relay.Fitting
import Switchboard.Proofs.Network.Channels
import Switchboard.Proofs.Network.Clients
import Switchboard.Proofs.Network.Correlation
import Switchboard.Proofs.Resynchronisation
import Switchboard.Proofs.Router.Registry
import Switchboard.Proofs.Relay.Halves
import Switchboard.Proofs.Relay.Interleaving
import Switchboard.Proofs.Relay.Tally
import Switchboard.Proofs.Relay.Sessions
import Switchboard.Proofs.Relay.Mirror
import Switchboard.Proofs.Relay.Transcript
import Switchboard.Proofs.Router.Balance
import Switchboard.Proofs.Router.Reach
import Switchboard.Proofs.Router.Departure
import Switchboard.Proofs.Router.Forwarding
import Switchboard.Proofs.Relay.Lifetime
import Switchboard.Proofs.Connection.Admission
import Switchboard.Proofs.Connection.Placement
import Switchboard.Proofs.Connection.Output
import Switchboard.Proofs.Connection.Deliveries
import Switchboard.Proofs.Connection.Neighbours
import Switchboard.Proofs.Connection.Deadlines
import Switchboard.Proofs.Connection.Entries
import Switchboard.Proofs.Connection.Lifecycle
import Switchboard.Proofs.Network.Speech
import Switchboard.Proofs.Network.Account
import Switchboard.Proofs.Relay.Shutdown
import Switchboard.Proofs.Acceptance
import Switchboard.Proofs.Router.Rotation
import Switchboard.Proofs.Router.Closing
import Switchboard.Proofs.Connection.Unbroken
import Switchboard.Proofs.Connection.Parting
import Switchboard.Proofs.Draining
import Switchboard.Proofs.Corruption
import Switchboard.Proofs.EnvelopeLayout
import Switchboard.Proofs.Relay.Layers
import Switchboard.Proofs.Net.AddressText
import Switchboard.Proofs.Yaml.JsonText
import Switchboard.Proofs.Yaml.JsonNodes
import Switchboard.Proofs.Relay.WrittenConfig
import Switchboard.Proofs.RequestNumbers
