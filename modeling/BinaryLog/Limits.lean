/-!
# Capture limits

How many header octets and how many octets of each message of a call are captured. The limit
`2 ^ 31 - 1` means that everything is. `Limits.text` writes limits as the option block of a
configuration clause.
-/

namespace BinaryLog

/-- How much of a call to capture. -/
structure Limits where
  headerBytes : Nat
  messageBytes : Nat
  deriving DecidableEq, Repr

namespace Limits

/-- The limit that stands for having none. -/
def noLimit : Nat := 0x7fffffff

/-- Captures everything. -/
def unbounded : Limits := ⟨noLimit, noLimit⟩

/-- Captures headers up to a limit and, of messages, no content. -/
def headersOnly (limit : Nat) : Limits := ⟨limit, 0⟩

/-- Captures messages up to a limit and no headers. -/
def messagesOnly (limit : Nat) : Limits := ⟨0, limit⟩

/-- A letter with its limit, which is left out when there is none. -/
def limitText (letter : String) (limit : Nat) : String :=
  if limit = noLimit then letter else letter ++ ":" ++ toString limit

/-- The option block that stands for the limits, such as `{h:256;m}`. -/
def text (l : Limits) : String :=
  "\x7b" ++ limitText "h" l.headerBytes ++ ";" ++ limitText "m" l.messageBytes ++ "\x7d"

end Limits

end BinaryLog
