import BinaryLog.Bytes

/-!
# Variable-length numbers

A number is written in base 128, least digit first, one digit per octet; every octet but the last
has its high bit set, so that the end of a number shows. `readVarint` reads one back.
-/

namespace BinaryLog.Wire

/-- The octets of a number. -/
def varint (n : Nat) : Bytes :=
  if n < 128 then [UInt8.ofNat n] else UInt8.ofNat (n % 128 + 128) :: varint (n / 128)
termination_by n

/-- The number at the front and the octets after it; `none` when they end inside a number. -/
def readVarint : Bytes → Option (Nat × Bytes)
  | [] => none
  | b :: rest =>
    if b.toNat < 128 then some (b.toNat, rest)
    else (readVarint rest).map fun (n, left) => (n * 128 + (b.toNat - 128), left)

/-- Reading a number takes at least one octet. -/
theorem length_lt_of_readVarint {bytes left : Bytes} {n : Nat}
    (h : readVarint bytes = some (n, left)) : left.length < bytes.length := by
  induction bytes generalizing n left with
  | nil => simp [readVarint] at h
  | cons b rest ih =>
    simp only [readVarint] at h
    split at h
    · simp only [Option.some.injEq, Prod.mk.injEq] at h
      simp [← h.2]
    · obtain ⟨⟨m, l⟩, hm, he⟩ := Option.map_eq_some_iff.1 h
      simp only [Prod.mk.injEq] at he
      have := ih hm
      simp only [List.length_cons, ← he.2]
      omega

end BinaryLog.Wire
