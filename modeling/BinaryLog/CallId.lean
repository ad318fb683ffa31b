import BinaryLog.Bytes

/-!
# Call ids

A `CallId` is a 128-bit number that names one call within a process; every entry the call produces
carries it. It is kept as two 64-bit halves. `CallId.toNat` and `CallId.ofNat` convert to and from
the number itself, and `CallId.text` writes it as 32 hexadecimal digits.
-/

namespace BinaryLog

/-- The 128-bit number that names a call. -/
structure CallId where
  high : UInt64
  low : UInt64
  deriving DecidableEq, Repr

namespace CallId

/-- The id with all bits clear. -/
def empty : CallId := ⟨0, 0⟩

/-- The number, the high half weighing `2 ^ 64`. -/
def toNat (id : CallId) : Nat := id.high.toNat * UInt64.size + id.low.toNat

/-- The id of a number below `2 ^ 128`; higher bits are dropped. -/
def ofNat (n : Nat) : CallId := ⟨UInt64.ofNat (n / UInt64.size), UInt64.ofNat n⟩

/-- The number in 32 lower-case hexadecimal digits, leading zeros included. -/
def text (id : CallId) : String :=
  String.ofList (hexDigits 16 id.high.toNat ++ hexDigits 16 id.low.toNat)

end CallId

end BinaryLog
