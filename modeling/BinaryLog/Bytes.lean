/-!
# Octet strings

`Bytes` is a list of octets, the currency of the whole library: header keys and values, messages,
addresses, wire records. `hexDigits` writes a number in a fixed count of hexadecimal digits.
-/

namespace BinaryLog

/-- A string of octets. -/
abbrev Bytes := List UInt8

/-- The last `width` hexadecimal digits of `n`, most significant first, in lower case. -/
def hexDigits : Nat → Nat → List Char
  | 0, _ => []
  | width + 1, n => hexDigits width (n / 16) ++ [Nat.digitChar (n % 16)]

@[simp] theorem length_hexDigits (width n : Nat) : (hexDigits width n).length = width := by
  induction width generalizing n with
  | zero => rfl
  | succ width ih => simp [hexDigits, ih]

namespace Bytes

/-- The octets of a text in UTF-8. -/
def ofText (text : String) : Bytes := text.toUTF8.data.toList

/-- A sixteen-bit word, its high octet first. -/
def ofWord16 (w : UInt16) : Bytes := [UInt8.ofNat (w.toNat / 256), UInt8.ofNat w.toNat]

end Bytes

end BinaryLog
