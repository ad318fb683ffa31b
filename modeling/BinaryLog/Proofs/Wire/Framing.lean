import BinaryLog.Wire.Entry

/-!
# Reading frames back

A number and a frame show where they end: read from the front of any octets they are read whole and
the rest is left (`readVarint_varint`, `readFrame_frame`), and cut short they are not read at all
(`readVarint_of_cut`, `readFrame_of_cut`). So the reader of frames undoes writing them, whatever
part of a frame follows (`readFrames_frames`).

`readFrames_take_stream`: the reader of the first octets of a stream of entries, as many as there
may be, finds exactly the entries whose frames are among them.
-/

namespace BinaryLog.Wire

/-! ## Numbers -/

theorem varint_of_lt {n : Nat} (h : n < 128) : varint n = [UInt8.ofNat n] := by
  rw [varint, if_pos h]

theorem varint_of_ge {n : Nat} (h : 128 ≤ n) :
    varint n = UInt8.ofNat (n % 128 + 128) :: varint (n / 128) := by
  rw [varint, if_neg (by omega)]

theorem varint_ne_nil (n : Nat) : varint n ≠ [] := by
  rw [varint]
  split <;> simp

theorem toNat_ofNat_of_lt {n : Nat} (h : n < 256) : (UInt8.ofNat n).toNat = n := by
  rw [UInt8.toNat_ofNat']
  exact Nat.mod_eq_of_lt h

/-- A number is read back from in front of any octets. -/
theorem readVarint_varint (n : Nat) (rest : Bytes) :
    readVarint (varint n ++ rest) = some (n, rest) := by
  induction n using Nat.strongRecOn with
  | ind n ih =>
    by_cases h : n < 128
    · rw [varint_of_lt h, List.singleton_append, readVarint, toNat_ofNat_of_lt (by omega),
        if_pos h]
    · rw [varint_of_ge (by omega), List.cons_append, readVarint, toNat_ofNat_of_lt (by omega),
        if_neg (by omega), ih (n / 128) (by omega)]
      simp only [Option.map_some, Option.some.injEq, Prod.mk.injEq, and_true]
      omega

/-- A number that is cut short is not read. -/
theorem readVarint_of_cut {n : Nat} {part rest : Bytes} (h : varint n = part ++ rest)
    (hrest : rest ≠ []) : readVarint part = none := by
  induction n using Nat.strongRecOn generalizing part with
  | ind n ih =>
    cases part with
    | nil => rfl
    | cons b part =>
      by_cases hn : n < 128
      · rw [varint_of_lt hn] at h
        simp [hrest] at h
      · rw [varint_of_ge (by omega), List.cons_append, List.cons.injEq] at h
        obtain ⟨rfl, htail⟩ := h
        rw [readVarint, toNat_ofNat_of_lt (by omega), if_neg (by omega),
          ih (n / 128) (by omega) htail]
        rfl

/-! ## Frames -/

theorem frame_ne_nil (record : Bytes) : frame record ≠ [] := by
  simp [frame, varint_ne_nil]

/-- A frame is read back from in front of any octets. -/
theorem readFrame_frame (record rest : Bytes) :
    readFrame (frame record ++ rest) = some (record, rest) := by
  rw [readFrame, frame, List.append_assoc, readVarint_varint]
  simp

/-- A frame that is cut short is not read. -/
theorem readFrame_of_cut {record part rest : Bytes} (h : frame record = part ++ rest)
    (hrest : rest ≠ []) : readFrame part = none := by
  rw [frame] at h
  rcases List.append_eq_append_iff.1 h with ⟨mid, rfl, hrecord⟩ | ⟨mid, hlength, hmid⟩
  · -- the cut is in the record
    have hpos := List.length_pos_iff.2 hrest
    have hlen := congrArg List.length hrecord
    rw [List.length_append] at hlen
    rw [readFrame, readVarint_varint]
    exact if_neg (by omega)
  · rw [readFrame]
    by_cases hnil : mid = []
    · -- the cut is right behind the length
      rw [hmid, hnil, List.nil_append, ← List.length_pos_iff] at hrest
      rw [hnil, List.append_nil] at hlength
      rw [← hlength, ← List.append_nil (varint record.length), readVarint_varint]
      exact if_neg (by rw [List.length_nil]; omega)
    · rw [readVarint_of_cut hlength hnil]

theorem readFrames_of_eq_none {stream : Bytes} (h : readFrame stream = none) :
    readFrames stream = ([], stream) := by
  rw [readFrames]
  split
  · rename_i hsome
    rw [h] at hsome
    cases hsome
  · rfl

theorem readFrames_of_eq_some {stream record rest : Bytes}
    (h : readFrame stream = some (record, rest)) :
    readFrames stream = (record :: (readFrames rest).1, (readFrames rest).2) := by
  rw [readFrames]
  split
  · rename_i hsome
    rw [h] at hsome
    cases hsome
    rfl
  · rename_i hnone
    rw [h] at hnone
    cases hnone

/-- Frames are read back from in front of any octets. -/
theorem readFrames_append (records : List Bytes) (rest : Bytes) :
    readFrames (records.flatMap frame ++ rest) =
      (records ++ (readFrames rest).1, (readFrames rest).2) := by
  induction records with
  | nil => rfl
  | cons record records ih =>
    rw [List.flatMap_cons, List.append_assoc, readFrames_of_eq_some (readFrame_frame record _), ih,
      List.cons_append]

/-- Frames are read back, up to something that is not a whole frame. -/
theorem readFrames_frames (records : List Bytes) {left : Bytes} (h : readFrame left = none) :
    readFrames (records.flatMap frame ++ left) = (records, left) := by
  rw [readFrames_append, readFrames_of_eq_none h, List.append_nil]

/-- The first `k` octets of some frames are the first `n` frames and a part of the next one; the
part is empty if the cut is between two frames. -/
theorem exists_cut (records : List Bytes) (k : Nat) :
    ∃ n left, (records.flatMap frame).take k = (records.take n).flatMap frame ++ left ∧
      readFrame left = none ∧
      (∀ i < records.length, i < n ↔ ((records.take (i + 1)).flatMap frame).length ≤ k) ∧
      ∀ j, k = ((records.take j).flatMap frame).length → left = [] := by
  induction records generalizing k with
  | nil => exact ⟨0, [], by simp, rfl, by simp, fun _ _ => rfl⟩
  | cons record records ih =>
    by_cases hk : (frame record).length ≤ k
    · -- the first frame is whole
      obtain ⟨n, left, htake, hleft, hn, hend⟩ := ih (k - (frame record).length)
      refine ⟨n + 1, left, ?_, hleft, fun i hi => ?_, fun j hj => ?_⟩
      · rw [List.flatMap_cons, List.take_append, List.take_of_length_le hk, htake,
          List.take_succ_cons, List.flatMap_cons, List.append_assoc]
      · rw [List.take_succ_cons, List.flatMap_cons, List.length_append]
        cases i with
        | zero => simpa using hk
        | succ i =>
          have := hn i (by simpa using hi)
          omega
      · cases j with
        | zero => exact hend 0 (by simp at hj ⊢; omega)
        | succ j =>
          rw [List.take_succ_cons, List.flatMap_cons, List.length_append] at hj
          exact hend j (by omega)
    · -- the cut is in the first frame
      have hcut : frame record = (frame record).take k ++ (frame record).drop k :=
        (List.take_append_drop k _).symm
      have hlate : ∀ i, k < ((record :: records).take (i + 1) |>.flatMap frame).length := by
        intro i
        rw [List.take_succ_cons, List.flatMap_cons, List.length_append]
        omega
      refine ⟨0, (frame record).take k, ?_, readFrame_of_cut hcut (by simp; omega),
        fun i _ => ?_, fun j hj => ?_⟩
      · rw [List.flatMap_cons, List.take_append_of_le_length (by omega)]
        rfl
      · have := hlate i
        omega
      · cases j with
        | zero =>
          have hk0 : k = 0 := by simpa using hj
          rw [hk0, List.take_zero]
        | succ j =>
          have := hlate j
          omega

end BinaryLog.Wire

namespace BinaryLog

open Wire

/-! ## Streams of entries -/

/-- The frames of entries, one after another. -/
def stream (entries : List Entry) : Bytes := entries.flatMap Entry.frame

theorem stream_eq_flatMap (entries : List Entry) :
    stream entries = (entries.map Entry.encode).flatMap frame := by
  rw [List.flatMap_map]
  rfl

theorem readFrames_stream (entries : List Entry) :
    readFrames (stream entries) = (entries.map Entry.encode, []) := by
  rw [stream_eq_flatMap, ← List.append_nil (List.flatMap _ _), readFrames_frames _ rfl]

/-- **A stream can always be read back.** From the first `k` octets of a stream the reader takes
the records of those entries whose frames end there, in order, and leaves what is not a whole frame:
nothing, if one ends right there. So streams are equal just if the records in them are. -/
theorem readFrames_take_stream :
    (∀ (entries : List Entry) (k : Nat), ∃ n left,
      readFrames ((stream entries).take k) = ((entries.take n).map Entry.encode, left) ∧
      (∀ i < entries.length, i < n ↔ (stream (entries.take (i + 1))).length ≤ k) ∧
      (stream entries).take k = stream (entries.take n) ++ left ∧ readFrame left = none ∧
      ∀ j, k = (stream (entries.take j)).length → left = []) ∧
    ∀ entries entries' : List Entry,
      stream entries = stream entries' ↔ entries.map Entry.encode = entries'.map Entry.encode := by
  refine ⟨fun entries k => ?_, fun entries entries' => ⟨fun h => ?_, fun h => ?_⟩⟩
  · obtain ⟨n, left, htake, hleft, hn, hend⟩ := exists_cut (entries.map Entry.encode) k
    simp only [← List.map_take, ← stream_eq_flatMap, List.length_map] at htake hn hend
    refine ⟨n, left, ?_, hn, htake, hleft, hend⟩
    rw [htake, stream_eq_flatMap, readFrames_frames _ hleft]
  · have hread := congrArg readFrames h
    rw [readFrames_stream, readFrames_stream] at hread
    exact congrArg Prod.fst hread
  · rw [stream_eq_flatMap, stream_eq_flatMap, h]

end BinaryLog
