import BinaryLog.Error
import BinaryLog.Sink.Writer
import BinaryLog.Wire.Entry

/-!
# Sinks

Where log entries go: into memory, or as frames into a writer that is flushed after each. An entry
is logged when the sink answers without an error.
-/

namespace BinaryLog

/-- Where entries go. -/
inductive Sink where
  /-- Keeps the entries, in order. -/
  | memory (entries : List Entry)
  /-- Writes the frame of each entry. -/
  | writer (writer : Writer)
  deriving DecidableEq, Repr

namespace Sink

/-- Hands an entry to a sink: whether it was taken, and what a writer behind it did. -/
def write (s : Sink) (e : Entry) : Except Error Unit × List WriterEvent × Sink :=
  match s with
  | memory entries => (.ok (), [], memory (entries ++ [e]))
  | writer w =>
    let (result, events, w) := w.put e.frame
    (result.mapError Error.sinkFailure, events, writer w)

/-- The entries kept in memory. -/
def entries : Sink → List Entry
  | memory entries => entries
  | writer _ => []

/-- Removes the entries kept in memory and returns them. -/
def drain : Sink → List Entry × Sink
  | memory entries => (entries, memory [])
  | writer w => ([], writer w)

end Sink

end BinaryLog
