import BinaryLog.CallId
import BinaryLog.Message
import BinaryLog.Metadata
import BinaryLog.Peer.Record

/-!
# Log entries

An `Entry` is the finished record of one lifecycle event of a call: which event, the side of the
call that saw it, the call's id, the peer where it is noted, and the captured headers or message.
-/

namespace BinaryLog

/-- The side of a call. -/
inductive Side where
  | client
  | server
  deriving DecidableEq, Repr

/-- The six lifecycle events of a call. -/
inductive EventKind where
  | sendInitialMetadata
  | recvInitialMetadata
  | sendTrailingMetadata
  | recvTrailingMetadata
  | sendMessage
  | recvMessage
  deriving DecidableEq, Repr

/-- What was captured of an event. -/
inductive Payload where
  | metadata (captured : Metadata)
  | message (captured : CapturedMessage)
  deriving DecidableEq, Repr

/-- The record of one event of a call. -/
structure Entry where
  kind : EventKind
  side : Side
  callId : CallId
  peer : Option PeerRecord
  payload : Payload
  deriving DecidableEq, Repr

end BinaryLog
