import BinaryLog.Proofs.Wire.Unambiguous
import Mathlib.Data.Nat.Digits.Defs

/-!
# The forms of a call id

A call id is two halves, a number, a text and the octets of a wire record, and each of these is
known from any other (`forms_of_callId`). The text is read as a number by `hexValue`, which undoes
writing digits up to the width that was written (`hexValue_hexDigits`).
-/

namespace BinaryLog

/-! ## Hexadecimal digits -/

/-- The hexadecimal digits in lower case. -/
def isHexDigit (c : Char) : Bool := c.isDigit || ('a' ≤ c && c ≤ 'f')

/-- The value of a hexadecimal digit. -/
def hexDigitValue (c : Char) : Nat :=
  if c.isDigit then c.toNat - '0'.toNat else c.toNat - 'a'.toNat + 10

/-- The value of digits in base 16, most significant first. -/
def hexValue (digits : List Char) : Nat :=
  Nat.ofDigits 16 (digits.reverse.map hexDigitValue)

theorem isHexDigit_digitChar : ∀ d < 16, isHexDigit (Nat.digitChar d) := by decide

theorem hexDigitValue_digitChar : ∀ d < 16, hexDigitValue (Nat.digitChar d) = d := by decide

theorem hexValue_append (high low : List Char) :
    hexValue (high ++ low) = hexValue high * 16 ^ low.length + hexValue low := by
  simp only [hexValue, List.reverse_append, List.map_append, Nat.ofDigits_append, List.length_map,
    List.length_reverse]
  rw [Nat.add_comm, Nat.mul_comm]

/-- So many digits tell a number modulo the power of 16. -/
theorem hexValue_hexDigits (width n : Nat) : hexValue (hexDigits width n) = n % 16 ^ width := by
  induction width generalizing n with
  | zero => simp [hexDigits, hexValue, Nat.mod_one]
  | succ width ih =>
    have hlast : hexValue [Nat.digitChar (n % 16)] = n % 16 := by
      simp [hexValue, hexDigitValue_digitChar _ (Nat.mod_lt n (by decide))]
    rw [hexDigits, hexValue_append, ih, hlast, List.length_singleton, Nat.pow_succ' (n := width),
      Nat.mod_mul]
    omega

theorem all_hexDigits (width n : Nat) : (hexDigits width n).all isHexDigit := by
  induction width generalizing n with
  | zero => rfl
  | succ width ih =>
    rw [hexDigits, List.all_append, ih, Bool.true_and, List.all_cons, List.all_nil, Bool.and_true]
    exact isHexDigit_digitChar _ (Nat.mod_lt n (by decide))

/-! ## Number and text -/

namespace CallId

theorem toNat_lt (id : CallId) : id.toNat < 2 ^ 128 := by
  have hhigh := id.high.toNat_lt
  have hlow := id.low.toNat_lt
  unfold toNat UInt64.size
  omega

theorem ofNat_toNat (id : CallId) : ofNat id.toNat = id := by
  obtain ⟨high, low⟩ := id
  have hlow : low.toNat < UInt64.size := low.toNat_lt
  have hdiv : (high.toNat * UInt64.size + low.toNat) / UInt64.size = high.toNat := by
    rw [Nat.mul_comm, Nat.mul_add_div (by decide), Nat.div_eq_of_lt hlow, Nat.add_zero]
  rw [ofNat, toNat, mk.injEq]
  refine ⟨by rw [hdiv, UInt64.ofNat_toNat], UInt64.toNat_inj.1 ?_⟩
  rw [UInt64.toNat_ofNat', Nat.mul_add_mod_self_right]
  exact Nat.mod_eq_of_lt hlow

theorem toNat_ofNat {n : Nat} (h : n < 2 ^ 128) : (ofNat n).toNat = n := by
  rw [ofNat, toNat, UInt64.toNat_ofNat', UInt64.toNat_ofNat']
  unfold UInt64.size
  omega

theorem toNat_injective : Function.Injective toNat := by
  intro a b h
  rw [← ofNat_toNat a, h, ofNat_toNat]

theorem toList_text (id : CallId) :
    id.text.toList = hexDigits 16 id.high.toNat ++ hexDigits 16 id.low.toNat := String.toList_ofList

/-- The text of an id is its number in base 16. -/
theorem hexValue_text (id : CallId) : hexValue id.text.toList = id.toNat := by
  have hhigh : id.high.toNat < 16 ^ 16 := id.high.toNat_lt
  have hlow : id.low.toNat < 16 ^ 16 := id.low.toNat_lt
  rw [toList_text, hexValue_append, hexValue_hexDigits, hexValue_hexDigits, length_hexDigits,
    Nat.mod_eq_of_lt hhigh, Nat.mod_eq_of_lt hlow]
  rfl

theorem text_injective : Function.Injective text := by
  intro a b h
  exact toNat_injective (by rw [← hexValue_text, h, hexValue_text])

end CallId

/-! ## All forms -/

/-- **The forms of a call id agree.** The number of an id gives back the id, and the id of a number
of 128 bits the number. The text is 32 hexadecimal digits in lower case whose value is the number,
so no two ids have the same text. Nor have two the same octets, and only the id with all bits clear
has none. -/
theorem forms_of_callId :
    (∀ id : CallId, id.toNat < 2 ^ 128 ∧ CallId.ofNat id.toNat = id) ∧
    (∀ x : BitVec 128, (CallId.ofNat x.toNat).toNat = x.toNat) ∧
    (∀ id : CallId, id.text.toList.length = 32 ∧ id.text.toList.all isHexDigit ∧
      hexValue id.text.toList = id.toNat) ∧
    (∀ a b : CallId, a.text = b.text ↔ a = b) ∧
    (∀ a b : CallId, Wire.encodeCallId a = Wire.encodeCallId b ↔ a = b) ∧
    ∀ id : CallId, Wire.encodeCallId id = [] ↔ id = .empty := by
  refine ⟨fun id => ⟨id.toNat_lt, id.ofNat_toNat⟩, fun x => CallId.toNat_ofNat x.isLt,
    fun id => ⟨?_, ?_, id.hexValue_text⟩, fun _ _ => CallId.text_injective.eq_iff,
    fun _ _ => Wire.encodeCallId_injective.eq_iff, fun id => ?_⟩
  · rw [CallId.toList_text, List.length_append, length_hexDigits, length_hexDigits]
  · rw [CallId.toList_text, List.all_append, all_hexDigits, all_hexDigits, Bool.and_true]
  · -- the octets of the id with all bits clear are none
    exact Wire.encodeCallId_injective.eq_iff' rfl

/-- A half of zeros is written out. -/
example : (CallId.ofNat 0xa0).text = "000000000000000000000000000000a0" := by decide +kernel

end BinaryLog
