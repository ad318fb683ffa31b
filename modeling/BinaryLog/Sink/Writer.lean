import BinaryLog.Bytes

/-!
# Octet writers

A `Writer` takes octets as it pleases: all of them, only some, or none, and it may be interrupted or
fail. What it will answer to the writes and flushes to come is part of its state, so that every
course of events is some writer. `Writer.writeAll` offers octets until all are taken: it offers the
rest after a partial write, tries again after an interruption, and gives up when a write fails or
takes nothing.
-/

namespace BinaryLog

/-- The answer to one write. -/
inductive WriteAnswer where
  /-- Takes what is offered, up to so many octets. -/
  | take (limit : Nat)
  /-- Takes all that is offered. -/
  | takeAll
  /-- Takes nothing, but may be tried again. -/
  | interrupted
  /-- Takes nothing. -/
  | fail (reason : String)
  deriving DecidableEq, Repr

/-- What a writer is seen to do. -/
inductive WriterEvent where
  | write (taken : Bytes)
  | interrupted
  | failed
  | flush
  deriving DecidableEq, Repr

/-- The octets taken in an event. -/
def WriterEvent.taken : WriterEvent → Bytes
  | write taken => taken
  | interrupted | failed | flush => []

/-- A writer: the octets it has taken, and its answers to the writes and the flushes to come. When
the answers run out it takes everything and flushes without failing. -/
structure Writer where
  taken : Bytes
  answers : List WriteAnswer
  /-- The reason for failing, for each flush that fails. -/
  flushes : List (Option String)
  deriving DecidableEq, Repr

namespace Writer

/-- A writer that has taken nothing and never fails. -/
def reliable : Writer := ⟨[], [], []⟩

/-- The reason given when a write takes nothing. -/
def tookNothing : String := "failed to write whole buffer"

/-- What comes of offering octets until all are taken. -/
structure Offer where
  /-- The reason for giving up, if it came to that. -/
  failure : Option String
  /-- What the writer did. -/
  events : List WriterEvent
  /-- The answers that are left. -/
  answers : List WriteAnswer
  deriving DecidableEq, Repr

/-- The same, with an event before. -/
def Offer.after (event : WriterEvent) (o : Offer) : Offer :=
  { o with events := event :: o.events }

/-- Offers octets until all are taken. -/
def offer : List WriteAnswer → Bytes → Offer
  | answers, [] => ⟨none, [], answers⟩
  | [], bytes => ⟨none, [.write bytes], []⟩
  | .takeAll :: answers, bytes => ⟨none, [.write bytes], answers⟩
  | .interrupted :: answers, bytes => (offer answers bytes).after .interrupted
  | .fail reason :: answers, _ => ⟨some reason, [.failed], answers⟩
  | .take 0 :: answers, _ => ⟨some tookNothing, [.write []], answers⟩
  | .take (limit + 1) :: answers, bytes =>
    (offer answers (bytes.drop (limit + 1))).after (.write (bytes.take (limit + 1)))

/-- Writes octets until the writer has taken them all. -/
def writeAll (w : Writer) (bytes : Bytes) : Except String Unit × List WriterEvent × Writer :=
  let o := offer w.answers bytes
  let w := { w with taken := w.taken ++ o.events.flatMap WriterEvent.taken, answers := o.answers }
  match o.failure with
  | some reason => (.error reason, o.events, w)
  | none => (.ok (), o.events, w)

/-- Flushes once. -/
def flush (w : Writer) : Except String Unit × List WriterEvent × Writer :=
  match w.flushes with
  | [] => (.ok (), [.flush], w)
  | some reason :: flushes => (.error reason, [.flush], { w with flushes })
  | none :: flushes => (.ok (), [.flush], { w with flushes })

/-- Writes a whole record and then flushes, unless writing fails. -/
def put (w : Writer) (record : Bytes) : Except String Unit × List WriterEvent × Writer :=
  match w.writeAll record with
  | (.error reason, events, w) => (.error reason, events, w)
  | (.ok (), events, w) =>
    let (result, flushed, w) := w.flush
    (result, events ++ flushed, w)

end Writer

end BinaryLog
