import BinaryLog.Peer.SocketAddress
import BinaryLog.Text.Utf8

/-!
# Peer addresses

The remote end of a call as its transport shows it: an internet socket, a local socket with or
without its raw address, anything else by its text, or a stand-in for a peer never shown.
-/

namespace BinaryLog

/-- The remote end of a call. -/
inductive PeerAddress where
  | inet (socket : SocketAddress)
  /-- A local socket, with its raw address if the transport supplies one. -/
  | localSocket (raw : Option Bytes)
  /-- Any other kind of peer, by its text. -/
  | other (text : String)
  /-- Stands in for a peer that the transport never showed. -/
  | dummy
  deriving DecidableEq, Repr

namespace PeerAddress

/-- The text shown for an address. -/
def text : PeerAddress → String
  | inet socket => socket.text
  | localSocket (some raw) => "unix:" ++ Text.decodeLossy raw
  | localSocket none => "unix:"
  | other text => text
  | dummy => "dummy-peer"

end PeerAddress

end BinaryLog
