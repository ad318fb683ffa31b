import BinaryLog.Attributes
import BinaryLog.Attributes.Script
import BinaryLog.Bytes
import BinaryLog.Call.Client
import BinaryLog.Call.Operation
import BinaryLog.Call.Server
import BinaryLog.Call.Surroundings
import BinaryLog.CallId
import BinaryLog.Config.Clause
import BinaryLog.Config.Count
import BinaryLog.Config.Diagnostic
import BinaryLog.Config.RuleTable
import BinaryLog.Config.Selector
import BinaryLog.Entry
import BinaryLog.Error
import BinaryLog.Event
import BinaryLog.Limits
import BinaryLog.Message
import BinaryLog.Metadata
import BinaryLog.Peer.Address
import BinaryLog.Peer.Record
import BinaryLog.Peer.SocketAddress
import BinaryLog.Session.Run
import BinaryLog.Session.Script
import BinaryLog.Sink.Basic
import BinaryLog.Sink.Writer
import BinaryLog.Status
import BinaryLog.Tap
import BinaryLog.Text.Combining
import BinaryLog.Text.Quoted
import BinaryLog.Text.Ranges
import BinaryLog.Text.Unprintable
import BinaryLog.Text.Utf8
import BinaryLog.Wire.Entry
import BinaryLog.Wire.Field
import BinaryLog.Wire.Frame
import BinaryLog.Wire.Record
import BinaryLog.Wire.Varint
import BinaryLog.Proofs.Attributes.Groups
import BinaryLog.Proofs.Attributes.Offers
import BinaryLog.Proofs.Attributes.RecordedOnce
import BinaryLog.Proofs.CallIdForms
import BinaryLog.Proofs.Config.Accounts
import BinaryLog.Proofs.Config.Counts
import BinaryLog.Proofs.Config.CountsDecide
import BinaryLog.Proofs.Config.Dropped
import BinaryLog.Proofs.Config.FirstMatch
import BinaryLog.Proofs.Config.Grammar
import BinaryLog.Proofs.Config.LimitsText
import BinaryLog.Proofs.Config.LiveRules
import BinaryLog.Proofs.Config.Reordered
import BinaryLog.Proofs.Config.Reproduction
import BinaryLog.Proofs.Config.RoundTrip
import BinaryLog.Proofs.Config.WrittenLimits
import BinaryLog.Proofs.Interception.Capture
import BinaryLog.Proofs.Interception.HeaderScan
import BinaryLog.Proofs.Interception.HeaderTurns
import BinaryLog.Proofs.Interception.LogBeforeForward
import BinaryLog.Proofs.Interception.Pass
import BinaryLog.Proofs.Interception.PassEnd
import BinaryLog.Proofs.Interception.Recapture
import BinaryLog.Proofs.Interception.Stack
import BinaryLog.Proofs.Interception.Transparency
import BinaryLog.Proofs.Interception.Unbounded
import BinaryLog.Proofs.Interception.WellFormed
import BinaryLog.Proofs.PeerIdentity
import BinaryLog.Proofs.Session.AlikePlans
import BinaryLog.Proofs.Session.Budgets
import BinaryLog.Proofs.Session.Entries
import BinaryLog.Proofs.Session.FailedLog
import BinaryLog.Proofs.Session.InStep
import BinaryLog.Proofs.Session.Opening
import BinaryLog.Proofs.Session.Paired
import BinaryLog.Proofs.Session.Plan
import BinaryLog.Proofs.Session.Received
import BinaryLog.Proofs.Session.RecordedPeer
import BinaryLog.Proofs.Session.ResponseHeaders
import BinaryLog.Proofs.Session.Separation
import BinaryLog.Proofs.Session.SinksAgree
import BinaryLog.Proofs.Session.Uncaptured
import BinaryLog.Proofs.Sink.AnyWriter
import BinaryLog.Proofs.Sink.Steady
import BinaryLog.Proofs.Sink.Torn
import BinaryLog.Proofs.Wire.Fields
import BinaryLog.Proofs.Wire.Framing
import BinaryLog.Proofs.Wire.Unambiguous
import BinaryLog.Proofs.Attributes.Store
import BinaryLog.Proofs.Session.Handles
