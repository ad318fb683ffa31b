import BinaryLog.Event

/-!
# Well-formed entries

`Entry.WellFormed limits content e`: what `e` holds goes with its kind and its side, and it captures
no more of the content of its event than the limits allow.

* `Metadata.capture_sublist`, `Metadata.size_capture_le`: captured headers are whole headers in
  order, and fit in the budget.
* `Limits.record_wellFormed`: the record of an event, if its side can see it.
-/

namespace BinaryLog

/-! ## Captured headers -/

namespace Metadata

theorem captureFrom_sublist (budget used : Nat) (md : Metadata) :
    (captureFrom budget used md).Sublist md := by
  fun_induction captureFrom budget used md with
  | case1 => exact .slnil
  | case2 => exact List.nil_sublist _
  | case3 used h md _ _ ih => exact ih.cons_cons h
  | case4 used h md _ _ ih => exact ih.cons h

theorem size_captureFrom_le {budget used : Nat} (hused : used ≤ budget) (md : Metadata) :
    used + (captureFrom budget used md).size ≤ budget := by
  fun_induction captureFrom budget used md with
  | case1 | case2 => exact hused
  | case3 used h md _ hfits ih =>
    have := ih hfits
    rw [size]
    omega
  | case4 used h md _ _ ih => exact ih hused

/-- Captured headers are some of the headers, each one whole, in order. -/
theorem capture_sublist (budget : Nat) (md : Metadata) : (capture budget md).Sublist md :=
  captureFrom_sublist budget 0 md

theorem size_capture_le (budget : Nat) (md : Metadata) : (capture budget md).size ≤ budget := by
  have := size_captureFrom_le (Nat.zero_le budget) md
  rwa [Nat.zero_add] at this

end Metadata

/-! ## Events and their content -/

/-- The content of an event: headers or trailers, or a message. -/
inductive Content where
  | headers (md : Metadata)
  | message (data : Bytes)
  deriving DecidableEq, Repr

namespace CallEvent

def content : CallEvent → Content
  | sentHeaders md | receivedHeaders md _ | sentTrailers md | receivedTrailers md => .headers md
  | sentMessage _ data | receivedMessage _ data => .message data

/-- Whether an event is one that a side sees: servers send trailers and clients receive them. Of no
message does a call show that it is compressed. -/
def SeenBy (side : Side) : CallEvent → Prop
  | sentHeaders _ | receivedHeaders _ _ => True
  | sentTrailers _ => side = .server
  | receivedTrailers _ => side = .client
  | sentMessage compressed _ | receivedMessage compressed _ => compressed = false

end CallEvent

/-! ## Well-formed entries -/

/-- An entry holds what goes with its kind and its side, and of the content of its event what the
limits allow. -/
structure Entry.WellFormed (limits : Limits) (content : Content) (e : Entry) : Prop where
  peer : e.peer.isSome ↔ e.kind = .recvInitialMetadata
  message : (∃ m, e.payload = .message m) ↔ e.kind = .sendMessage ∨ e.kind = .recvMessage
  client : e.side = .client → e.kind ≠ .sendTrailingMetadata
  server : e.side = .server → e.kind ≠ .recvTrailingMetadata
  /-- A captured message is the beginning of the message, with its true length and no flags. -/
  ofMessage : ∀ m, e.payload = .message m → ∃ data, content = .message data ∧
    m.flags = 0 ∧ m.length = data.length ∧ m.data = data.take (min limits.messageBytes data.length)
  /-- Captured headers or trailers are some of them, whole and in order, within the limit. -/
  ofHeaders : ∀ md, e.payload = .metadata md → ∃ headers, content = .headers headers ∧
    md.Sublist headers ∧ md.size ≤ limits.headerBytes

/-- **What is recorded of an event is well formed**, whatever the limits and the id. -/
theorem Limits.record_wellFormed (limits : Limits) (id : CallId) {side : Side} {event : CallEvent}
    (h : event.SeenBy side) : (limits.record side id event).WellFormed limits event.content where
  peer := by cases event <;> simp [record, CallEvent.peer, CallEvent.kind]
  message := by cases event <;> simp [record, capture, CallEvent.kind]
  client := by
    rintro rfl
    cases event <;> simp [record, CallEvent.kind, CallEvent.SeenBy] at h ⊢
  server := by
    rintro rfl
    cases event <;> simp [record, CallEvent.kind, CallEvent.SeenBy] at h ⊢
  ofMessage m hm := by
    cases event <;> cases hm
    all_goals
      cases (h : _ = false)
      exact ⟨_, rfl, rfl, rfl, List.take_eq_take_min⟩
  ofHeaders md hmd := by
    cases event <;> cases hmd
    all_goals exact ⟨_, rfl, Metadata.capture_sublist _ _, Metadata.size_capture_le _ _⟩

end BinaryLog
