import BinaryLog.Wire.Varint

/-!
# Frames

A stream of records is the concatenation of their frames: the length of a record, then the record.
`readFrames` takes whole frames off the front of a stream and leaves what is not a whole frame.
-/

namespace BinaryLog.Wire

/-- A record with its length before it. -/
def frame (record : Bytes) : Bytes := varint record.length ++ record

/-- The record of the frame at the front and the octets after it; `none` when there is no whole
frame. -/
def readFrame (stream : Bytes) : Option (Bytes × Bytes) :=
  match readVarint stream with
  | some (n, rest) => if n ≤ rest.length then some (rest.take n, rest.drop n) else none
  | none => none

/-- Reading a frame takes at least one octet. -/
theorem length_lt_of_readFrame {stream record left : Bytes}
    (h : readFrame stream = some (record, left)) : left.length < stream.length := by
  unfold readFrame at h
  split at h
  · rename_i n rest hr
    split at h
    · simp only [Option.some.injEq, Prod.mk.injEq] at h
      have := length_lt_of_readVarint hr
      rw [← h.2, List.length_drop]
      omega
    · cases h
  · cases h

/-- The records of all whole frames at the front, in order, and what is left after them. -/
def readFrames (stream : Bytes) : List Bytes × Bytes :=
  match _h : readFrame stream with
  | some (record, rest) =>
    let (records, left) := readFrames rest
    (record :: records, left)
  | none => ([], stream)
termination_by stream.length
decreasing_by exact length_lt_of_readFrame _h

end BinaryLog.Wire
