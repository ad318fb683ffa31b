import BinaryLog.Peer.Address

/-!
# Peer records

What a log entry keeps of a peer address: how the peer was reached, and an address in octets. For
an internet peer these are the octets of the address and then the port, high octet first; for a
local one the raw address, empty if unknown; for any other the text of the address.
-/

namespace BinaryLog

/-- How a peer was reached. -/
inductive PeerType where
  | unknown
  | ipv4
  | ipv6
  | unix
  deriving DecidableEq, Repr

/-- The remote end of a call as a log entry keeps it. -/
structure PeerRecord where
  type : PeerType
  address : Bytes
  deriving DecidableEq, Repr

/-- The record of an address. -/
def PeerAddress.record : PeerAddress → PeerRecord
  | inet (.v4 ip port) => ⟨.ipv4, ip.octets ++ Bytes.ofWord16 port⟩
  | inet (.v6 ip port _ _) => ⟨.ipv6, ip.octets ++ Bytes.ofWord16 port⟩
  | localSocket raw => ⟨.unix, raw.getD []⟩
  | other text => ⟨.unknown, Bytes.ofText text⟩
  | dummy => ⟨.unknown, Bytes.ofText PeerAddress.dummy.text⟩

end BinaryLog
