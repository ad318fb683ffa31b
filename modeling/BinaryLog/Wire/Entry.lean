import BinaryLog.Entry
import BinaryLog.Wire.Frame
import BinaryLog.Wire.Record

/-!
# Log entries on the wire

How the parts of a log entry become the fields of a wire record. The record's length of a message
has 32 bits; a longer message is given the greatest length that fits.
-/

namespace BinaryLog

/-- The code of an event; zero is kept for an unknown one. -/
def EventKind.code : EventKind → Int32
  | sendInitialMetadata => 1
  | sendTrailingMetadata => 2
  | sendMessage => 3
  | recvInitialMetadata => 4
  | recvTrailingMetadata => 5
  | recvMessage => 6

/-- The code of a side; zero is kept for an unknown one. -/
def Side.code : Side → Int32
  | client => 1
  | server => 2

/-- The code of how a peer was reached. -/
def PeerType.code : PeerType → Int32
  | unknown => 0
  | ipv4 => 1
  | ipv6 => 2
  | unix => 3

/-- The wire record of a peer. -/
def PeerRecord.toWire (p : PeerRecord) : Wire.Peer := ⟨p.type.code, p.address⟩

/-- A length in 32 bits, the greatest such number standing for all that are greater. -/
def Wire.clampLength (n : Nat) : UInt32 := UInt32.ofNat (min n (UInt32.size - 1))

/-- The wire record of a captured message. -/
def CapturedMessage.toWire (m : CapturedMessage) : Wire.Message :=
  ⟨m.flags, Wire.clampLength m.length, m.data⟩

/-- The wire form of captured content. -/
def Payload.toWire : Payload → Wire.Payload
  | metadata captured => .metadata captured
  | message captured => .message captured.toWire

namespace Entry

/-- The wire record of an entry. -/
def toWire (e : Entry) : Wire.Record where
  type := e.kind.code
  logger := e.side.code
  callId := some e.callId
  payload := some e.payload.toWire
  peer := e.peer.map PeerRecord.toWire

/-- The octets of an entry. -/
def encode (e : Entry) : Bytes := e.toWire.encode

/-- The octets of an entry with their length before them. -/
def frame (e : Entry) : Bytes := Wire.frame e.encode

end Entry

end BinaryLog
