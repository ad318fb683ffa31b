import BinaryLog.Proofs.Wire.Fields
import Mathlib.Data.List.Basic

/-!
# The wire form is unambiguous

No two records have the same octets (`Record.encode_injective`), and two log entries have the same
octets just if they agree in everything but message lengths that 32 bits cannot tell apart
(`encode_eq_iff`). Each record is written as a list of fields, and what it holds under each number
is known from the octets; the nested records go first, then those that contain them.
-/

namespace BinaryLog.Wire

/-! ## Nested records -/

def callIdFields (id : CallId) : List Field :=
  unlessDefault 1 (.eight id.high) ++ unlessDefault 2 (.eight id.low)

theorem encodeCallId_eq (id : CallId) : encodeCallId id = encodeFields (callIdFields id) := by
  rw [encodeCallId, wordField_eq, wordField_eq, encodeFields_append, callIdFields]

theorem encodeCallId_injective : Function.Injective encodeCallId := by
  intro id id' h
  rw [encodeCallId_eq, encodeCallId_eq] at h
  have hhigh : id.high = id'.high := by simpa [callIdFields] using held_eq_of_encode_eq h 1
  have hlow : id.low = id'.low := by simpa [callIdFields] using held_eq_of_encode_eq h 2
  cases id
  cases id'
  rw [CallId.mk.injEq]
  exact ⟨hhigh, hlow⟩

def headerFields (h : Header) : List Field :=
  unlessDefault 1 (.delimited h.key) ++ unlessDefault 2 (.delimited h.value)

theorem encodeHeader_eq (h : Header) : encodeHeader h = encodeFields (headerFields h) := by
  rw [encodeHeader, bytesField_eq, bytesField_eq, encodeFields_append, headerFields]

theorem encodeHeader_injective : Function.Injective encodeHeader := by
  intro x y h
  rw [encodeHeader_eq, encodeHeader_eq] at h
  have hkey : x.key = y.key := by simpa [headerFields] using held_eq_of_encode_eq h 1
  have hvalue : x.value = y.value := by simpa [headerFields] using held_eq_of_encode_eq h 2
  cases x
  cases y
  rw [Header.mk.injEq]
  exact ⟨hkey, hvalue⟩

/-- The field of one header among headers. -/
def headerField (h : Header) : Field := ⟨1, .delimited (encodeHeader h)⟩

theorem encodeMetadata_eq (md : Metadata) :
    encodeMetadata md = encodeFields (md.map headerField) := by
  rw [encodeFields, List.flatMap_map, encodeMetadata]
  congr 1
  funext h
  simp [recordField_eq, encodeFields, headerField]

theorem encodeMetadata_injective : Function.Injective encodeMetadata := by
  intro md md' h
  rw [encodeMetadata_eq, encodeMetadata_eq] at h
  have hfield : Function.Injective headerField := by
    intro x y hxy
    exact encodeHeader_injective (by simpa [headerField] using hxy)
  exact List.map_injective_iff.2 hfield (encodeFields_injective h)

def Message.fields (m : Message) : List Field :=
  unlessDefault 1 (.number m.flags.toNat) ++ unlessDefault 2 (.number m.length.toNat) ++
    unlessDefault 3 (.delimited m.data)

theorem Message.encode_eq (m : Message) : m.encode = encodeFields m.fields := by
  rw [encode, numberField_eq, numberField_eq, bytesField_eq, encodeFields_append,
    encodeFields_append, fields]

theorem Message.encode_injective : Function.Injective Message.encode := by
  intro m m' h
  rw [encode_eq, encode_eq] at h
  have hflags : m.flags.toNat = m'.flags.toNat := by
    simpa [fields] using held_eq_of_encode_eq h 1
  have hlength : m.length.toNat = m'.length.toNat := by
    simpa [fields] using held_eq_of_encode_eq h 2
  have hdata : m.data = m'.data := by simpa [fields] using held_eq_of_encode_eq h 3
  cases m
  cases m'
  rw [Message.mk.injEq]
  exact ⟨UInt32.toNat_inj.1 hflags, UInt32.toNat_inj.1 hlength, hdata⟩

def Peer.fields (p : Peer) : List Field :=
  unlessDefault 1 (.number (codeNumber p.type)) ++ unlessDefault 2 (.delimited p.address)

theorem Peer.encode_eq (p : Peer) : p.encode = encodeFields p.fields := by
  rw [encode, codeField_eq, bytesField_eq, encodeFields_append, fields]

theorem Peer.encode_injective : Function.Injective Peer.encode := by
  intro p p' h
  rw [encode_eq, encode_eq] at h
  have htype : codeNumber p.type = codeNumber p'.type := by
    simpa [fields] using held_eq_of_encode_eq h 1
  have haddress : p.address = p'.address := by simpa [fields] using held_eq_of_encode_eq h 2
  cases p
  cases p'
  rw [Peer.mk.injEq]
  exact ⟨codeNumber_injective htype, haddress⟩

/-! ## Whole records -/

/-- The field of an entry's content: headers have one number and a message another. -/
def Payload.toField : Payload → Field
  | metadata headers => ⟨4, .delimited (encodeMetadata headers)⟩
  | message m => ⟨5, .delimited m.encode⟩

theorem Payload.field_eq (p : Payload) : p.field = encodeFields [p.toField] := by
  cases p <;> exact recordField_eq _ _

/-- The content is under one of two numbers. -/
theorem held_payload_of_ne {number : Nat} (h4 : number ≠ 4) (h5 : number ≠ 5)
    (o : Option Payload) : held number (o.toList.map Payload.toField) = [] := by
  rcases o with _ | headers | m
  · rfl
  · simp [held, Payload.toField, h4.symm]
  · simp [held, Payload.toField, h5.symm]

theorem payload_eq_of_held_eq {o o' : Option Payload}
    (h4 : held 4 (o.toList.map Payload.toField) = held 4 (o'.toList.map Payload.toField))
    (h5 : held 5 (o.toList.map Payload.toField) = held 5 (o'.toList.map Payload.toField)) :
    o = o' := by
  rcases o with _ | headers | m <;> rcases o' with _ | headers' | m' <;>
    simp_all [held, Payload.toField, encodeMetadata_injective.eq_iff,
      Message.encode_injective.eq_iff]

theorem optionalField_eq {α : Type} {field : α → Bytes} {toField : α → Field}
    (h : ∀ a, field a = encodeFields [toField a]) (o : Option α) :
    optionalField field o = encodeFields (o.toList.map toField) := by
  cases o with
  | none => rfl
  | some a => exact h a

def Record.fields (r : Record) : List Field :=
  unlessDefault 1 (.number (codeNumber r.type)) ++
  unlessDefault 2 (.number (codeNumber r.logger)) ++
  r.callId.toList.map (fun id => ⟨3, .delimited (encodeCallId id)⟩) ++
  r.payload.toList.map Payload.toField ++
  r.peer.toList.map (fun p => ⟨6, .delimited p.encode⟩)

theorem Record.encode_eq (r : Record) : r.encode = encodeFields r.fields := by
  rw [encode, codeField_eq, codeField_eq, optionalField_eq fun _ => recordField_eq 3 _,
    optionalField_eq Payload.field_eq, optionalField_eq fun _ => recordField_eq 6 _]
  simp only [encodeFields_append, fields]

/-- A part that may be absent is known from what is held of it. -/
theorem eq_of_map_toList_eq {α : Type} {f : α → Value} (hf : Function.Injective f)
    {o o' : Option α} (h : o.toList.map f = o'.toList.map f) : o = o' := by
  cases o <;> cases o' <;> simp_all [hf.eq_iff]

theorem Record.encode_injective : Function.Injective Record.encode := by
  intro r r' h
  rw [encode_eq, encode_eq] at h
  have htype : codeNumber r.type = codeNumber r'.type := by
    simpa [fields, held_payload_of_ne] using held_eq_of_encode_eq h 1
  have hlogger : codeNumber r.logger = codeNumber r'.logger := by
    simpa [fields, held_payload_of_ne] using held_eq_of_encode_eq h 2
  have hcallId : r.callId = r'.callId :=
    eq_of_map_toList_eq (f := fun id => .delimited (encodeCallId id))
      (fun _ _ heq => encodeCallId_injective (Value.delimited.inj heq))
      (by simpa [fields, held_payload_of_ne] using held_eq_of_encode_eq h 3)
  have hpeer : r.peer = r'.peer :=
    eq_of_map_toList_eq (f := fun p => .delimited p.encode)
      (fun _ _ heq => Peer.encode_injective (Value.delimited.inj heq))
      (by simpa [fields, held_payload_of_ne] using held_eq_of_encode_eq h 6)
  have hpayload : r.payload = r'.payload :=
    payload_eq_of_held_eq (by simpa [fields] using held_eq_of_encode_eq h 4)
      (by simpa [fields] using held_eq_of_encode_eq h 5)
  cases r
  cases r'
  rw [Record.mk.injEq]
  exact ⟨codeNumber_injective htype, codeNumber_injective hlogger, hcallId, hpayload, hpeer⟩

end BinaryLog.Wire

namespace BinaryLog

open Wire

/-! ## Log entries -/

/-- Lengths that 32 bits do not tell apart. -/
def SameLength (n m : Nat) : Prop := n = m ∨ 2 ^ 32 - 1 ≤ n ∧ 2 ^ 32 - 1 ≤ m

/-- Captured content that is the same, but for lengths that 32 bits do not tell apart. -/
inductive Payload.Same : Payload → Payload → Prop
  | metadata (captured : Metadata) : Same (.metadata captured) (.metadata captured)
  | message {m m' : CapturedMessage} : m.flags = m'.flags → SameLength m.length m'.length →
      m.data = m'.data → Same (.message m) (.message m')

theorem clampLength_eq_iff {n m : Nat} : clampLength n = clampLength m ↔ SameLength n m := by
  have hn : min n (UInt32.size - 1) < UInt32.size := by unfold UInt32.size; omega
  have hm : min m (UInt32.size - 1) < UInt32.size := by unfold UInt32.size; omega
  rw [clampLength, clampLength, ← UInt32.toNat_inj, UInt32.toNat_ofNat_of_lt' hn,
    UInt32.toNat_ofNat_of_lt' hm]
  unfold SameLength UInt32.size
  omega

theorem EventKind.code_injective : Function.Injective EventKind.code := by
  intro kind kind' h
  cases kind <;> cases kind' <;> first | rfl | exact absurd h (by decide)

theorem Side.code_injective : Function.Injective Side.code := by
  intro side side' h
  cases side <;> cases side' <;> first | rfl | exact absurd h (by decide)

theorem PeerType.code_injective : Function.Injective PeerType.code := by
  intro type type' h
  cases type <;> cases type' <;> first | rfl | exact absurd h (by decide)

theorem PeerRecord.toWire_injective : Function.Injective PeerRecord.toWire := by
  intro p p' h
  rw [toWire, toWire, Wire.Peer.mk.injEq] at h
  cases p
  cases p'
  rw [PeerRecord.mk.injEq]
  exact ⟨PeerType.code_injective h.1, h.2⟩

theorem Payload.toWire_eq_iff {p p' : Payload} : p.toWire = p'.toWire ↔ p.Same p' := by
  refine ⟨fun h => ?_, fun h => ?_⟩
  · cases p with
    | metadata captured =>
      cases p' with
      | metadata captured' =>
        obtain rfl := Wire.Payload.metadata.inj h
        exact .metadata captured
      | message m' => cases h
    | message m =>
      cases p' with
      | metadata captured' => cases h
      | message m' =>
        have hm := Wire.Payload.message.inj h
        rw [CapturedMessage.toWire, CapturedMessage.toWire, Wire.Message.mk.injEq] at hm
        exact .message hm.1 (clampLength_eq_iff.1 hm.2.1) hm.2.2
  · cases h with
    | metadata captured => rfl
    | message hflags hlength hdata =>
      simp only [toWire, CapturedMessage.toWire, hflags, hdata, clampLength_eq_iff.2 hlength]

/-- **The wire form is unambiguous.** No two records have the same octets. Two log entries have the
same octets just if they have the same event, side, call id and peer and the same content, where
message lengths that both are at least `2 ^ 32 - 1` count as the same. -/
theorem encode_eq_iff :
    Function.Injective Wire.Record.encode ∧
    ∀ a b : Entry, a.encode = b.encode ↔
      a.kind = b.kind ∧ a.side = b.side ∧ a.callId = b.callId ∧ a.peer = b.peer ∧
        a.payload.Same b.payload := by
  refine ⟨Record.encode_injective, fun a b => ?_⟩
  rw [Entry.encode, Entry.encode, Record.encode_injective.eq_iff, Entry.toWire, Entry.toWire,
    Wire.Record.mk.injEq, EventKind.code_injective.eq_iff, Side.code_injective.eq_iff,
    Option.some.injEq, Option.some.injEq, Payload.toWire_eq_iff,
    (Option.map_injective PeerRecord.toWire_injective).eq_iff]
  refine and_congr_right fun _ => and_congr_right fun _ => and_congr_right fun _ => and_comm

end BinaryLog
