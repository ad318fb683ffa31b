import BinaryLog.Entry
import BinaryLog.Limits

/-!
# Recording events

`CallEvent` is an event of a call with all that could be recorded of it, and `Limits.record` the log
entry that is kept of it within given limits. A peer is noted with received headers alone.
-/

namespace BinaryLog

/-- An event of a call, with its content. -/
inductive CallEvent where
  | sentHeaders (headers : Metadata)
  | receivedHeaders (headers : Metadata) (peer : PeerAddress)
  | sentTrailers (trailers : Metadata)
  | receivedTrailers (trailers : Metadata)
  | sentMessage (compressed : Bool) (data : Bytes)
  | receivedMessage (compressed : Bool) (data : Bytes)
  deriving DecidableEq, Repr

namespace CallEvent

/-- The passing of trailers as a side sees it: servers send them and clients receive them. -/
def passedTrailers (side : Side) (trailers : Metadata) : CallEvent :=
  match side with
  | .client => receivedTrailers trailers
  | .server => sentTrailers trailers

/-- A message that a call sent; calls do not show compression, so none is assumed. -/
def sent (data : Bytes) : CallEvent := sentMessage false data

/-- A message that a call received; calls do not show compression, so none is assumed. -/
def received (data : Bytes) : CallEvent := receivedMessage false data

/-- Which of the six events it is. -/
def kind : CallEvent → EventKind
  | sentHeaders _ => .sendInitialMetadata
  | receivedHeaders _ _ => .recvInitialMetadata
  | sentTrailers _ => .sendTrailingMetadata
  | receivedTrailers _ => .recvTrailingMetadata
  | sentMessage _ _ => .sendMessage
  | receivedMessage _ _ => .recvMessage

/-- The peer noted with the event. -/
def peer : CallEvent → Option PeerAddress
  | receivedHeaders _ peer => some peer
  | _ => none

end CallEvent

namespace Limits

/-- What is captured of an event's content within the limits. -/
def capture (l : Limits) : CallEvent → Payload
  | .sentHeaders md | .receivedHeaders md _ | .sentTrailers md | .receivedTrailers md =>
    .metadata (md.capture l.headerBytes)
  | .sentMessage compressed data | .receivedMessage compressed data =>
    .message (.capture l.messageBytes compressed data)

/-- The entry for an event that a side of the call `id` sees. -/
def record (l : Limits) (side : Side) (id : CallId) (event : CallEvent) : Entry where
  kind := event.kind
  side := side
  callId := id
  peer := event.peer.map PeerAddress.record
  payload := l.capture event

end Limits

end BinaryLog
