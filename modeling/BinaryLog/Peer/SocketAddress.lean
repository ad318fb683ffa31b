import BinaryLog.Bytes

/-!
# Internet socket addresses

Addresses of both versions of the Internet Protocol with a port, and their usual text: dotted
octets for version 4; for version 6 lower-case groups without leading zeros, the first of the
longest runs of two or more zero groups shortened to `::`, and dotted octets at the end of an
address that stands for one of version 4.
-/

namespace BinaryLog

/-- An address of version 4, its octets in network order. -/
structure IPv4 where
  a : UInt8
  b : UInt8
  c : UInt8
  d : UInt8
  deriving DecidableEq, Repr

namespace IPv4

/-- The four octets. -/
def octets (ip : IPv4) : Bytes := [ip.a, ip.b, ip.c, ip.d]

/-- Four decimal numbers with points between. -/
def text (ip : IPv4) : String :=
  ".".intercalate (ip.octets.map fun octet => toString octet.toNat)

end IPv4

/-- An address of version 6, its eight groups in network order. -/
structure IPv6 where
  groups : Vector UInt16 8
  deriving DecidableEq, Repr

namespace IPv6

/-- The sixteen octets, each group with its high octet first. -/
def octets (ip : IPv6) : Bytes := ip.groups.toList.flatMap Bytes.ofWord16

/-- The address of version 4 that `::ffff:a.b.c.d` stands for. -/
def mappedIPv4? (ip : IPv6) : Option IPv4 :=
  match ip.octets with
  | [0, 0, 0, 0, 0, 0, 0, 0, 0, 0, 0xff, 0xff, a, b, c, d] => some ⟨a, b, c, d⟩
  | _ => none

/-- Where the first of the longest runs of zero groups starts, and its length. -/
def longestZeros (groups : List UInt16) : Nat × Nat :=
  (List.range groups.length).foldl
    (fun best start =>
      let run := ((groups.drop start).takeWhile (· == 0)).length
      if best.2 < run then (start, run) else best)
    (0, 0)

/-- Groups in hexadecimal without leading zeros, colons between. -/
def groupsText (groups : List UInt16) : String :=
  ":".intercalate (groups.map fun g => String.ofList (Nat.toDigits 16 g.toNat))

/-- The address in its usual text. -/
def text (ip : IPv6) : String :=
  match ip.mappedIPv4? with
  | some v4 => "::ffff:" ++ v4.text
  | none =>
    let groups := ip.groups.toList
    let (start, run) := longestZeros groups
    if run ≤ 1 then groupsText groups
    else groupsText (groups.take start) ++ "::" ++ groupsText (groups.drop (start + run))

end IPv6

/-- An internet address with a port. -/
inductive SocketAddress where
  | v4 (ip : IPv4) (port : UInt16)
  | v6 (ip : IPv6) (port : UInt16) (flowInfo scope : UInt32)
  deriving DecidableEq, Repr

namespace SocketAddress

/-- Address and port; of the other fields only a scope other than zero is shown. -/
def text : SocketAddress → String
  | v4 ip port => ip.text ++ ":" ++ toString port.toNat
  | v6 ip port _ scope =>
    let zone := if scope = 0 then "" else "%" ++ toString scope.toNat
    "[" ++ ip.text ++ zone ++ "]:" ++ toString port.toNat

end SocketAddress

end BinaryLog
