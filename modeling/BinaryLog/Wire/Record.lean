import BinaryLog.CallId
import BinaryLog.Metadata
import BinaryLog.Wire.Field

/-!
# Wire records

The records in which log entries are exchanged, field by field, and their octets. They admit any
combination of fields, and any code where an enumeration is meant, so that more can be written than
log entries need.
-/

namespace BinaryLog.Wire

/-- A message: its flags, its length as far as 32 bits can tell it, and captured octets. -/
structure Message where
  flags : UInt32
  length : UInt32
  data : Bytes
  deriving DecidableEq, Repr

/-- A peer: the code of how it was reached and its address. -/
structure Peer where
  type : Int32
  address : Bytes
  deriving DecidableEq, Repr

/-- The content of an entry. -/
inductive Payload where
  | metadata (headers : Metadata)
  | message (message : Message)
  deriving DecidableEq, Repr

/-- A whole entry. -/
structure Record where
  type : Int32
  logger : Int32
  callId : Option CallId
  payload : Option Payload
  peer : Option Peer
  deriving DecidableEq, Repr

/-- The octets of a call id: its high half, then its low half. -/
def encodeCallId (id : CallId) : Bytes := wordField 1 id.high ++ wordField 2 id.low

/-- The octets of one header. -/
def encodeHeader (h : Header) : Bytes := bytesField 1 h.key ++ bytesField 2 h.value

/-- The octets of a list of headers, each a record in a field of the same number. -/
def encodeMetadata (md : Metadata) : Bytes := md.flatMap fun h => recordField 1 (encodeHeader h)

/-- The octets of a message. -/
def Message.encode (m : Message) : Bytes :=
  numberField 1 m.flags.toNat ++ numberField 2 m.length.toNat ++ bytesField 3 m.data

/-- The octets of a peer. -/
def Peer.encode (p : Peer) : Bytes := codeField 1 p.type ++ bytesField 2 p.address

/-- The field of an entry's content; its number tells headers from a message. -/
def Payload.field : Payload → Bytes
  | metadata headers => recordField 4 (encodeMetadata headers)
  | message m => recordField 5 m.encode

/-- A field that may be absent. -/
def optionalField {α : Type} (field : α → Bytes) : Option α → Bytes
  | none => []
  | some a => field a

/-- The octets of an entry. -/
def Record.encode (r : Record) : Bytes :=
  codeField 1 r.type ++
  codeField 2 r.logger ++
  optionalField (fun id => recordField 3 (encodeCallId id)) r.callId ++
  optionalField Payload.field r.payload ++
  optionalField (fun p => recordField 6 p.encode) r.peer

end BinaryLog.Wire
