import BinaryLog.Call.Operation
import BinaryLog.Sink.Basic
import BinaryLog.Tap

/-!
# What lies around the taps

Taps sit between a sink and the parties of a call. `Surroundings` holds the sink, the failures that
lie ahead, and the trace of what has happened so far. `log` hands an entry to the sink, `reach`
passes an operation to the party beyond all taps, and `relay` does what every tap does with most
operations: each tap logs in turn, if the operation is an event to be logged, and only when all have
done so is the operation passed on.
-/

namespace BinaryLog

/-- Something that happened, in order of time. -/
inductive Happening where
  /-- The writer behind the sink did something. -/
  | wrote (event : WriterEvent)
  /-- The sink took an entry. -/
  | logged (entry : Entry)
  /-- The sink did not take an entry. -/
  | refused (entry : Entry)
  /-- The party beyond all taps was reached. -/
  | reached (what : Reached)
  deriving DecidableEq, Repr

/-- The sink, the failures ahead, and the trace so far. -/
structure Surroundings where
  sink : Sink
  /-- Why the next entry is refused before the sink sees it. -/
  sinkFault : Option String
  /-- Why the next operation fails that reaches the party beyond all taps. -/
  callFault : Option String
  trace : List Happening
  deriving DecidableEq, Repr

namespace Surroundings

/-- Hands an entry to the sink. -/
def log (w : Surroundings) (e : Entry) : Except Error Unit × Surroundings :=
  match w.sinkFault with
  | some reason =>
    (.error (.sinkFailure reason), { w with sinkFault := none, trace := w.trace ++ [.refused e] })
  | none =>
    match w.sink.write e with
    | (.ok (), events, sink) =>
      (.ok (), { w with sink, trace := w.trace ++ events.map .wrote ++ [.logged e] })
    | (.error err, events, sink) =>
      (.error err, { w with sink, trace := w.trace ++ events.map .wrote ++ [.refused e] })

/-- Notes that a party was reached which does not fail. -/
def note (w : Surroundings) (what : Reached) : Surroundings :=
  { w with trace := w.trace ++ [.reached what] }

/-- Passes something to the party beyond all taps. -/
def reach (w : Surroundings) (what : Reached) : Except Error Unit × Surroundings :=
  match w.callFault with
  | some reason => (.error (.callFailure reason), { w.note what with callFault := none })
  | none => (.ok (), w.note what)

/-- Hands an entry to the sink, if there is one. -/
def logAny (w : Surroundings) : Option Entry → Except Error Unit × Surroundings
  | some e => w.log e
  | none => (.ok (), w)

/-- An operation passes taps, the first of the list first: each logs the event that the operation is
for it, if it is any, and passes it on; the first failure ends it. -/
def relay (side : Side) (event : Option CallEvent) (op : Operation) :
    List Tap → Surroundings → Except Error Unit × Surroundings
  | [], w => w.reach (.operation op)
  | tap :: taps, w =>
    match w.logAny (event.map (tap.entry side)) with
    | (.ok (), w) => relay side event op taps w
    | (.error e, w) => (.error e, w)

end Surroundings

end BinaryLog
