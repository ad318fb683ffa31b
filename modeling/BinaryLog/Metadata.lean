import BinaryLog.Bytes

/-!
# Headers and their capture

`Metadata` is an ordered list of headers; a key may occur more than once. `Metadata.capture` keeps
what fits in a byte budget: it goes through the headers in order, keeps each one whole if key and
value fit in what is left, passes over each one that does not, and stops once nothing is left.
-/

namespace BinaryLog

/-- One header, in serialized form. -/
structure Header where
  key : Bytes
  value : Bytes
  deriving DecidableEq, Repr

/-- The octets of key and value together. -/
def Header.size (h : Header) : Nat := h.key.length + h.value.length

/-- Headers or trailers, in order. -/
abbrev Metadata := List Header

namespace Metadata

/-- Adds a header at the end, whether or not its key occurs before. -/
def insert (md : Metadata) (key value : Bytes) : Metadata := md ++ [⟨key, value⟩]

/-- The headers of key and value pairs, in order. -/
def ofPairs (pairs : List (Bytes × Bytes)) : Metadata := pairs.map fun p => ⟨p.1, p.2⟩

/-- The octets of all keys and values. -/
def size : Metadata → Nat
  | [] => 0
  | h :: hs => h.size + size hs

/-- Captures under `budget` when `used` octets of it are already spent. -/
def captureFrom (budget : Nat) : Nat → Metadata → Metadata
  | _, [] => []
  | used, h :: hs =>
    if budget ≤ used then []
    else if used + h.size ≤ budget then h :: captureFrom budget (used + h.size) hs
    else captureFrom budget used hs

/-- The headers captured under a budget: whole headers only, in order. -/
def capture (budget : Nat) (md : Metadata) : Metadata := captureFrom budget 0 md

end Metadata

end BinaryLog
