import BinaryLog.Config.Clause
import BinaryLog.Event
import BinaryLog.Proofs.Interception.HeaderScan
import Mathlib.Algebra.Group.Nat.Defs
import Mathlib.Data.List.TakeDrop

/-!
# Capturing without limits

Having no limit is itself a limit, of `2 ^ 31 - 1` octets, and content is captured under it as under
any other. So captured without limits does not mean captured whole.

* `Metadata.capture_eq_filter`: headers greater than the whole budget play no part in a capture.
* `Limits.capture_eq_wholePayload_iff`: when an event is captured with all its content.
* `unbounded_captures_all_iff`: when it is if there are no limits.
* `unbounded_not_all`: headers and a message that are not.
-/

namespace BinaryLog

/-! ## Headers greater than the budget -/

namespace Metadata

theorem captureFrom_spent {budget used : Nat} (h : budget ≤ used) (md : Metadata) :
    captureFrom budget used md = [] := by
  cases md with
  | nil => rfl
  | cons => rw [captureFrom, if_pos h]

theorem captureFrom_eq_filter (budget used : Nat) (md : Metadata) :
    captureFrom budget used md = captureFrom budget used (md.filter (·.size ≤ budget)) := by
  induction md generalizing used with
  | nil => rfl
  | cons h md ih =>
    by_cases hspent : budget ≤ used
    · rw [captureFrom_spent hspent, captureFrom_spent hspent]
    · by_cases hsize : h.size ≤ budget
      · rw [List.filter_cons_of_pos (by simpa using hsize), captureFrom, captureFrom, ← ih, ← ih]
      · have hgreat : ¬ used + h.size ≤ budget := by omega
        rw [List.filter_cons_of_neg (by simpa using hsize), captureFrom, if_neg hspent,
          if_neg hgreat, ih]

/-- **Headers greater than the whole budget play no part**: they are neither captured nor
counted. -/
theorem capture_eq_filter (budget : Nat) (md : Metadata) :
    capture budget md = capture budget (md.filter (·.size ≤ budget)) :=
  captureFrom_eq_filter budget 0 md

theorem capture_singleton_of_lt {budget : Nat} {h : Header} (hsize : budget < h.size) :
    capture budget [h] = [] := by
  have hnone : [h].filter (·.size ≤ budget) = [] := by simpa using hsize
  rw [capture_eq_filter, hnone]
  rfl

theorem capture_eq_self_iff {budget : Nat} {md : Metadata} :
    capture budget md = md ↔ md.size ≤ budget ∧ ∀ i < md.length, size (md.take i) < budget := by
  simpa [capture] using captureFrom_eq_self_iff (Nat.zero_le budget) md

end Metadata

/-! ## All the content of an event -/

namespace CallEvent

/-- The payload that holds all the content of an event. -/
def wholePayload : CallEvent → Payload
  | sentHeaders md | receivedHeaders md _ | sentTrailers md | receivedTrailers md => .metadata md
  | sentMessage compressed data | receivedMessage compressed data =>
    .message ⟨CapturedMessage.flagsFor compressed, data.length, data⟩

/-- The content fits in the limit for its kind, and each header is met with some of it left. -/
def FitsIn (l : Limits) : CallEvent → Prop
  | sentHeaders md | receivedHeaders md _ | sentTrailers md | receivedTrailers md =>
    md.size ≤ l.headerBytes ∧ ∀ i < md.length, Metadata.size (md.take i) < l.headerBytes
  | sentMessage _ data | receivedMessage _ data => data.length ≤ l.messageBytes

end CallEvent

theorem CapturedMessage.capture_eq_whole_iff {budget : Nat} {compressed : Bool} {data : Bytes} :
    capture budget compressed data = ⟨flagsFor compressed, data.length, data⟩ ↔
      data.length ≤ budget := by
  simp only [capture, mk.injEq, true_and, List.take_eq_self_iff]

/-- **An event is captured with all its content just if this fits in the limits.** -/
theorem Limits.capture_eq_wholePayload_iff {l : Limits} {event : CallEvent} :
    l.capture event = event.wholePayload ↔ event.FitsIn l := by
  cases event with
  | sentHeaders md | receivedHeaders md _ | sentTrailers md | receivedTrailers md =>
    rw [show l.capture _ = .metadata (md.capture l.headerBytes) from rfl, CallEvent.wholePayload,
      Payload.metadata.injEq]
    exact Metadata.capture_eq_self_iff
  | sentMessage compressed data | receivedMessage compressed data =>
    rw [show l.capture _ = .message (.capture l.messageBytes compressed data) from rfl,
      CallEvent.wholePayload, Payload.message.injEq]
    exact CapturedMessage.capture_eq_whole_iff

/-! ## No limits -/

/-- **No limits are limits of `2 ^ 31 - 1`.** They are what a clause without a block asks for, and
the entry for an event holds all its content just if this fits in them. -/
theorem unbounded_captures_all_iff (selector : Config.Selector) (side : Side) (id : CallId)
    (event : CallEvent) :
    (⟨selector, none⟩ : Config.Clause).limits = .ok .unbounded ∧
      ((Limits.unbounded.record side id event).payload = event.wholePayload ↔
        event.FitsIn ⟨2 ^ 31 - 1, 2 ^ 31 - 1⟩) :=
  ⟨rfl, Limits.capture_eq_wholePayload_iff⟩

/-- Of `2 ^ 31` octets in a single header nothing is captured, and of as many in a message not all
of them. -/
theorem unbounded_not_all :
    let octets (n : Nat) : Bytes := List.replicate n 0
    let headers : CallEvent := .sentHeaders [⟨octets (2 ^ 30), octets (2 ^ 30)⟩]
    let message : CallEvent := .sent (octets (2 ^ 31))
    ((Limits.unbounded.record .client ⟨0, 1⟩ headers).payload = .metadata [] ∧
      (Limits.unbounded.record .client ⟨0, 1⟩ headers).payload ≠ headers.wholePayload) ∧
    (Limits.unbounded.record .client ⟨0, 1⟩ message).payload ≠ message.wholePayload := by
  intro octets headers message
  have hnone : (Limits.unbounded.record .client ⟨0, 1⟩ headers).payload = .metadata [] := by
    have hsize : Limits.noLimit < Header.size ⟨octets (2 ^ 30), octets (2 ^ 30)⟩ := by
      rw [Header.size, List.length_replicate]
      decide
    exact congrArg Payload.metadata (Metadata.capture_singleton_of_lt hsize)
  refine ⟨⟨hnone, ?_⟩, fun hall => ?_⟩
  · rw [hnone, CallEvent.wholePayload, ne_eq, Payload.metadata.injEq]
    exact List.cons_ne_nil _ _ ∘ Eq.symm
  · have hfits : message.FitsIn .unbounded := Limits.capture_eq_wholePayload_iff.1 hall
    change (octets (2 ^ 31)).length ≤ 2 ^ 31 - 1 at hfits
    rw [List.length_replicate] at hfits
    exact absurd hfits (by decide)

end BinaryLog
