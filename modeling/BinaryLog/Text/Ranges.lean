/-!
# Sets of characters as ranges

A character property is kept as the ascending list of its ranges of code points, both ends
included.
-/

namespace BinaryLog.Text

/-- A set of code points, as ranges with both ends included. -/
abbrev Ranges := List (Nat × Nat)

/-- Whether some range holds the character. -/
def Ranges.contains (rs : Ranges) (c : Char) : Bool :=
  rs.any fun r => r.1 ≤ c.toNat && c.toNat ≤ r.2

end BinaryLog.Text
