import BinaryLog.Bytes

/-!
# Messages and their capture

A message is recorded by its flags, its true length and as much of its beginning as a byte budget
allows, so that a budget of zero still tells that a message of a given length went by.
-/

namespace BinaryLog

/-- What is kept of a message. -/
structure CapturedMessage where
  /-- One for a compressed message, else zero. -/
  flags : UInt32
  /-- The length of the whole message. -/
  length : Nat
  /-- The captured beginning. -/
  data : Bytes
  deriving DecidableEq, Repr

namespace CapturedMessage

/-- The flags field: only compression is noted. -/
def flagsFor (compressed : Bool) : UInt32 := if compressed then 1 else 0

/-- The record of a message under a budget. -/
def capture (budget : Nat) (compressed : Bool) (message : Bytes) : CapturedMessage where
  flags := flagsFor compressed
  length := message.length
  data := message.take budget

end CapturedMessage

end BinaryLog
