import BinaryLog.Proofs.Wire.Unambiguous

/-!
# What a peer record identifies

Which addresses have the same record (`PeerAddress.Alike`), and what can be read back from the
record of an internet peer: its address and port (`PeerRecord.endpoint?`), but nothing else of its
socket.

* `words_flatMap`: the words of octets are read back.
* `endpoint_record`: so are the address and the port of an internet peer.
* `record_eq_iff`: records are the same just for addresses that are alike.
* `peer_identified_by_record`: both, with the wire form of records.
-/

namespace BinaryLog

/-! ## Texts and words -/

namespace Bytes

theorem ofText_injective : Function.Injective ofText := by
  intro s t h
  exact String.toByteArray_inj.1 (ByteArray.ext (Array.toList_inj.1 h))

/-- The word of a high and a low octet. -/
def word16 (high low : UInt8) : UInt16 := UInt16.ofNat (high.toNat * 256 + low.toNat)

/-- The words of octets, the high octet first in each; an odd octet at the end is left out. -/
def words : Bytes → List UInt16
  | high :: low :: rest => word16 high low :: words rest
  | _ => []

/-- The octets of a word: the high one, then the low one. -/
theorem ofWord16_eq (w : UInt16) :
    ∃ high low : UInt8, ofWord16 w = [high, low] ∧ high.toNat * 256 + low.toNat = w.toNat := by
  have hw : w.toNat < 256 * 256 := w.toNat_lt
  refine ⟨_, _, rfl, ?_⟩
  rw [UInt8.toNat_ofNat', UInt8.toNat_ofNat', Nat.mod_eq_of_lt (by omega)]
  omega

theorem words_ofWord16 (w : UInt16) (rest : Bytes) :
    words (ofWord16 w ++ rest) = w :: words rest := by
  obtain ⟨high, low, hoctets, hw⟩ := ofWord16_eq w
  rw [hoctets, List.cons_append, List.cons_append, List.nil_append, words, word16, hw,
    UInt16.ofNat_toNat]

/-- Words are read back from their octets. -/
theorem words_flatMap (ws : List UInt16) : words (ws.flatMap ofWord16) = ws := by
  induction ws with
  | nil => rfl
  | cons w ws ih => rw [List.flatMap_cons, words_ofWord16, ih]

end Bytes

/-! ## Address and port -/

/-- What a record tells of an internet socket: its address and port. -/
inductive Endpoint where
  | v4 (ip : IPv4) (port : UInt16)
  | v6 (ip : IPv6) (port : UInt16)
  deriving DecidableEq, Repr

/-- The address and port of a socket. -/
def SocketAddress.endpoint : SocketAddress → Endpoint
  | v4 ip port => .v4 ip port
  | v6 ip port _ _ => .v6 ip port

/-- Reads the address and port of an internet peer from its record. -/
def PeerRecord.endpoint? (r : PeerRecord) : Option Endpoint :=
  match r.type, r.address with
  | .ipv4, [a, b, c, d, high, low] => some (.v4 ⟨a, b, c, d⟩ (Bytes.word16 high low))
  | .ipv6, octets =>
    match Bytes.words octets with
    | [g₁, g₂, g₃, g₄, g₅, g₆, g₇, g₈, port] =>
      some (.v6 ⟨#v[g₁, g₂, g₃, g₄, g₅, g₆, g₇, g₈]⟩ port)
    | _ => none
  | _, _ => none

theorem IPv6.exists_groups (ip : IPv6) :
    ∃ g₁ g₂ g₃ g₄ g₅ g₆ g₇ g₈, ip = ⟨#v[g₁, g₂, g₃, g₄, g₅, g₆, g₇, g₈]⟩ := by
  obtain ⟨⟨⟨groups⟩, hlength⟩⟩ := ip
  match groups, hlength with
  | [g₁, g₂, g₃, g₄, g₅, g₆, g₇, g₈], _ => exact ⟨g₁, g₂, g₃, g₄, g₅, g₆, g₇, g₈, rfl⟩

theorem IPv6.length_octets (ip : IPv6) : ip.octets.length = 16 := by
  obtain ⟨g₁, g₂, g₃, g₄, g₅, g₆, g₇, g₈, rfl⟩ := ip.exists_groups
  rfl

/-- **Address and port are read back** from the record of an internet peer. -/
theorem endpoint_record (socket : SocketAddress) :
    (PeerAddress.inet socket).record.endpoint? = some socket.endpoint := by
  cases socket with
  | v4 ip port =>
    obtain ⟨high, low, hoctets, hport⟩ := Bytes.ofWord16_eq port
    simp [PeerAddress.record, PeerRecord.endpoint?, SocketAddress.endpoint, IPv4.octets, hoctets,
      Bytes.word16, hport]
  | v6 ip port flowInfo scope =>
    obtain ⟨g₁, g₂, g₃, g₄, g₅, g₆, g₇, g₈, rfl⟩ := ip.exists_groups
    -- the port is one more word behind the groups of the address
    have hwords : Bytes.words (IPv6.octets ⟨#v[g₁, g₂, g₃, g₄, g₅, g₆, g₇, g₈]⟩ ++
        Bytes.ofWord16 port) = [g₁, g₂, g₃, g₄, g₅, g₆, g₇, g₈, port] :=
      Bytes.words_flatMap [g₁, g₂, g₃, g₄, g₅, g₆, g₇, g₈, port]
    simp only [PeerAddress.record, PeerRecord.endpoint?, hwords, SocketAddress.endpoint]

/-! ## Addresses with the same record -/

namespace PeerAddress

/-- Addresses that a record does not tell apart. -/
inductive Alike : PeerAddress → PeerAddress → Prop
  | refl (a : PeerAddress) : Alike a a
  /-- The same address and port of version 6. -/
  | v6 (ip : IPv6) (port : UInt16) (flowInfo scope flowInfo' scope' : UInt32) :
      Alike (inet (.v6 ip port flowInfo scope)) (inet (.v6 ip port flowInfo' scope'))
  /-- Two local sockets without a raw address, or with an empty one. -/
  | noRaw {raw raw' : Option Bytes} : raw ∈ [none, some []] → raw' ∈ [none, some []] →
      Alike (localSocket raw) (localSocket raw')
  /-- The stand-in, or another peer with its text. -/
  | standIn {a b : PeerAddress} : a ∈ [dummy, other "dummy-peer"] →
      b ∈ [dummy, other "dummy-peer"] → Alike a b

theorem Alike.record_eq {a b : PeerAddress} (h : a.Alike b) : a.record = b.record := by
  cases h with
  | refl | v6 => rfl
  | noRaw hraw hraw' =>
    simp only [List.mem_cons, List.not_mem_nil, or_false] at hraw hraw'
    rcases hraw with rfl | rfl <;> rcases hraw' with rfl | rfl <;> rfl
  | standIn ha hb =>
    simp only [List.mem_cons, List.not_mem_nil, or_false] at ha hb
    rcases ha with rfl | rfl <;> rcases hb with rfl | rfl <;> rfl

/-- Internet sockets with the same address and port. -/
theorem alike_of_endpoint_eq {socket socket' : SocketAddress}
    (h : socket.endpoint = socket'.endpoint) : (inet socket).Alike (inet socket') := by
  cases socket with
  | v4 ip port =>
    cases socket' with
    | v4 ip' port' =>
      cases h
      exact .refl _
    | v6 => cases h
  | v6 ip port flowInfo scope =>
    cases socket' with
    | v4 => cases h
    | v6 ip' port' flowInfo' scope' =>
      cases h
      exact .v6 ip port flowInfo scope flowInfo' scope'

theorem alike_of_raw_eq {raw raw' : Option Bytes} (h : raw.getD [] = raw'.getD []) :
    (localSocket raw).Alike (localSocket raw') := by
  cases raw with
  | none =>
    cases raw' with
    | none => exact .refl _
    | some octets =>
      obtain rfl : [] = octets := h
      exact .noRaw (by simp) (by simp)
  | some octets =>
    cases raw' with
    | none =>
      obtain rfl : octets = [] := h
      exact .noRaw (by simp) (by simp)
    | some octets' =>
      obtain rfl : octets = octets' := h
      exact .refl _

/-- **Records are the same just for addresses that are alike.** -/
theorem record_eq_iff {a b : PeerAddress} : a.record = b.record ↔ a.Alike b := by
  refine ⟨fun h => ?_, Alike.record_eq⟩
  have htype := congrArg PeerRecord.type h
  have haddress := congrArg PeerRecord.address h
  cases a with
  | inet socket =>
    cases b with
    | inet socket' =>
      have hread := congrArg PeerRecord.endpoint? h
      rw [endpoint_record, endpoint_record, Option.some.injEq] at hread
      exact alike_of_endpoint_eq hread
    | localSocket | other | dummy => cases socket <;> cases htype
  | localSocket raw =>
    cases b with
    | inet socket' => cases socket' <;> cases htype
    | localSocket raw' => exact alike_of_raw_eq haddress
    | other | dummy => cases htype
  | other text =>
    cases b with
    | inet socket' => cases socket' <;> cases htype
    | localSocket => cases htype
    | other text' =>
      obtain rfl := Bytes.ofText_injective haddress
      exact .refl _
    | dummy =>
      obtain rfl := Bytes.ofText_injective haddress
      exact .standIn (by simp [text]) (by simp)
  | dummy =>
    cases b with
    | inet socket' => cases socket' <;> cases htype
    | localSocket => cases htype
    | other text' =>
      obtain rfl := Bytes.ofText_injective haddress
      exact .standIn (by simp) (by simp [text])
    | dummy => exact .refl _

end PeerAddress

/-! ## What a record identifies -/

/-- **A record identifies its peer** up to what it leaves out. Two addresses have the same record
just if they are the same, or have the same address and port of version 6, or are local sockets
without a raw address, or are both the stand-in or the peer that has its text. The record of an
internet peer holds the 4 or 16 octets of the address and then the port, high octet first, and both
are read back from it. And the wire form of a record identifies the record. -/
theorem peer_identified_by_record :
    (∀ a b : PeerAddress, a.record = b.record ↔ a.Alike b) ∧
    (∀ ip port, ∃ high low : UInt8,
      (PeerAddress.inet (.v4 ip port)).record = ⟨.ipv4, [ip.a, ip.b, ip.c, ip.d, high, low]⟩ ∧
      high.toNat * 256 + low.toNat = port.toNat) ∧
    (∀ ip port flowInfo scope, ∃ high low : UInt8,
      (PeerAddress.inet (.v6 ip port flowInfo scope)).record = ⟨.ipv6, ip.octets ++ [high, low]⟩ ∧
      ip.octets.length = 16 ∧ high.toNat * 256 + low.toNat = port.toNat) ∧
    (∀ socket, (PeerAddress.inet socket).record.endpoint? = some socket.endpoint) ∧
    ∀ r r' : PeerRecord,
      (r.toWire = r'.toWire ↔ r = r') ∧ (r.toWire.encode = r'.toWire.encode ↔ r = r') := by
  refine ⟨fun _ _ => PeerAddress.record_eq_iff, fun ip port => ?_, fun ip port flowInfo scope => ?_,
    endpoint_record, fun r r' => ⟨PeerRecord.toWire_injective.eq_iff, ?_⟩⟩
  · obtain ⟨high, low, hoctets, hport⟩ := Bytes.ofWord16_eq port
    exact ⟨high, low, by rw [PeerAddress.record, hoctets, IPv4.octets]; rfl, hport⟩
  · obtain ⟨high, low, hoctets, hport⟩ := Bytes.ofWord16_eq port
    exact ⟨high, low, by rw [PeerAddress.record, hoctets], ip.length_octets, hport⟩
  · rw [Wire.Peer.encode_injective.eq_iff, PeerRecord.toWire_injective.eq_iff]

end BinaryLog
