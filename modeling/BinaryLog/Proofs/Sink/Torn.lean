import BinaryLog.Proofs.Wire.Framing
import BinaryLog.Sink.Basic

/-!
# Torn frames

A writer may take a part of a frame and then fail. Nothing marks the place, so that a reader counts
what is written next as the rest of the torn frame.

* `Sink.attempts_taken`: of each frame a writer takes a part from its front, all of it if the write
  returns ok; it has taken these parts, one after another.
* `readable_unless_torn`: as long as nothing is taken after a torn frame, the entries whose writes
  returned ok can be read back, and stay so whatever is taken later (`Readable.sublist_readFrames`).
* `not_readable_after_torn`: entries that are written after a torn frame may be lost.
-/

namespace BinaryLog

open Wire

/-! ## What a writer takes -/

namespace Writer

/-- Of what a writer is offered it takes a part from the front: all of it, unless it fails. -/
theorem exists_offer_taken (answers : List WriteAnswer) (bytes : Bytes) :
    ∃ rest, bytes = (offer answers bytes).events.flatMap WriterEvent.taken ++ rest ∧
      ((offer answers bytes).failure = none ↔ rest = []) := by
  fun_induction offer answers bytes with
  | case1 answers => exact ⟨[], rfl, iff_of_true rfl rfl⟩
  | case2 bytes => exact ⟨[], by simp [WriterEvent.taken], iff_of_true rfl rfl⟩
  | case3 answers bytes => exact ⟨[], by simp [WriterEvent.taken], iff_of_true rfl rfl⟩
  | case4 answers bytes _ ih =>
    obtain ⟨rest, hbytes, hrest⟩ := ih
    exact ⟨rest, hbytes, hrest⟩
  | case5 reason answers bytes hbytes => exact ⟨bytes, rfl, iff_of_false nofun hbytes⟩
  | case6 answers bytes hbytes => exact ⟨bytes, rfl, iff_of_false nofun hbytes⟩
  | case7 limit answers bytes _ ih =>
    obtain ⟨rest, hbytes, hrest⟩ := ih
    refine ⟨rest, ?_, hrest⟩
    rw [Offer.after, List.flatMap_cons, WriterEvent.taken, List.append_assoc, ← hbytes,
      List.take_append_drop]

theorem writeAll_taken (w : Writer) (bytes : Bytes) :
    (w.writeAll bytes).2.2.taken = w.taken ++ (w.writeAll bytes).2.1.flatMap WriterEvent.taken ∧
    ∃ rest, bytes = (w.writeAll bytes).2.1.flatMap WriterEvent.taken ++ rest ∧
      ((w.writeAll bytes).1.isOk → rest = []) := by
  obtain ⟨rest, hbytes, hrest⟩ := exists_offer_taken w.answers bytes
  cases hfailure : (offer w.answers bytes).failure with
  | some reason =>
    simp only [writeAll, hfailure]
    exact ⟨trivial, rest, hbytes, nofun⟩
  | none =>
    simp only [writeAll, hfailure]
    exact ⟨trivial, rest, hbytes, fun _ => hrest.1 hfailure⟩

theorem flush_taken (w : Writer) :
    w.flush.2.2.taken = w.taken ∧ w.flush.2.1.flatMap WriterEvent.taken = [] := by
  unfold flush
  split <;> exact ⟨rfl, rfl⟩

/-- What writing and flushing a record adds to what a writer has taken. -/
theorem put_taken (w : Writer) (record : Bytes) :
    (w.put record).2.2.taken = w.taken ++ (w.put record).2.1.flatMap WriterEvent.taken ∧
    ∃ rest, record = (w.put record).2.1.flatMap WriterEvent.taken ++ rest ∧
      ((w.put record).1.isOk → rest = []) := by
  obtain ⟨htaken, rest, hrecord, hrest⟩ := writeAll_taken w record
  unfold put
  rcases hall : w.writeAll record with ⟨_ | _, events, written⟩ <;>
    rw [hall] at htaken hrecord hrest
  · exact ⟨htaken, rest, hrecord, nofun⟩
  · obtain ⟨hkept, hnothing⟩ := flush_taken written
    simp only [List.flatMap_append, hkept, hnothing, List.append_nil]
    exact ⟨htaken, rest, hrecord, fun _ => hrest rfl⟩

end Writer

/-! ## Writes one after another -/

/-- One write of an entry: what came of it, and the octets of its frame that a writer behind the
sink took. -/
structure Attempt where
  entry : Entry
  result : Except Error Unit
  taken : Bytes
  deriving Repr

namespace Attempt

/-- Whether the write returned ok. -/
def isOk (a : Attempt) : Bool := a.result.isOk

/-- The writer took some of the frame, but not all of it. -/
def Torn (a : Attempt) : Prop := a.taken ≠ [] ∧ a.taken ≠ a.entry.frame

instance (a : Attempt) : Decidable a.Torn := inferInstanceAs (Decidable (_ ∧ _))

/-- The writer took a part of the frame from its front, all of it if the write returned ok. -/
def IsPart (a : Attempt) : Prop := ∃ rest, a.entry.frame = a.taken ++ rest ∧ (a.isOk → rest = [])

theorem IsPart.taken_of_ok {a : Attempt} (h : a.IsPart) (hok : a.isOk) :
    a.taken = a.entry.frame := by
  obtain ⟨rest, hframe, hrest⟩ := h
  rw [hframe, hrest hok, List.append_nil]

/-- A write of which nothing was taken has not returned ok: there is no empty frame. -/
theorem IsPart.not_ok_of_nil {a : Attempt} (h : a.IsPart) (hnil : a.taken = []) : ¬a.isOk := by
  intro hok
  have hframe := h.taken_of_ok hok
  rw [hnil] at hframe
  exact frame_ne_nil _ hframe.symm

end Attempt

namespace Sink

/-- Writes entries to a sink one after another, whatever comes of each. -/
def attempts : Sink → List Entry → List Attempt × Sink
  | s, [] => ([], s)
  | s, e :: entries =>
    let (result, events, s) := s.write e
    let (attempts, s) := s.attempts entries
    (⟨e, result, events.flatMap WriterEvent.taken⟩ :: attempts, s)

/-- The octets taken by the writer behind a sink. -/
def taken : Sink → Bytes
  | memory _ => []
  | writer w => w.taken

theorem attempts_taken (w : Writer) (entries : List Entry) :
    ((writer w).attempts entries).2.taken =
      w.taken ++ ((writer w).attempts entries).1.flatMap Attempt.taken ∧
    ∀ a ∈ ((writer w).attempts entries).1, a.IsPart := by
  induction entries generalizing w with
  | nil => simp [attempts, taken]
  | cons e entries ih =>
    obtain ⟨htaken, rest, hframe, hrest⟩ := w.put_taken e.frame
    obtain ⟨hall, hparts⟩ := ih (w.put e.frame).2.2
    rw [htaken, List.append_assoc] at hall
    have hok : ((w.put e.frame).1.mapError Error.sinkFailure).isOk → (w.put e.frame).1.isOk := by
      cases (w.put e.frame).1 <;> exact id
    exact ⟨hall, List.forall_mem_cons.2 ⟨⟨rest, hframe, fun h => hrest (hok h)⟩, hparts⟩⟩

end Sink

/-! ## Reading back what was written -/

/-- A part of some frame from its front, but not all of it; nothing at all is such a part. -/
def Incomplete (left : Bytes) : Prop := ∃ record rest, rest ≠ [] ∧ frame record = left ++ rest

/-- What was taken splits into whole frames and at most a part of one behind them, and the entries
whose writes returned ok are among the whole frames, in order. -/
def Readable (taken : Bytes) (attempts : List Attempt) : Prop :=
  ∃ records left, taken = records.flatMap frame ++ left ∧ Incomplete left ∧
    ((attempts.filter Attempt.isOk).map (·.entry.encode)).Sublist records

theorem Incomplete.nil : Incomplete [] := ⟨[], frame [], frame_ne_nil _, rfl⟩

/-- What is readable the reader finds, whatever is written later. -/
theorem Readable.sublist_readFrames {taken : Bytes} {attempts : List Attempt}
    (h : Readable taken attempts) (later : Bytes) :
    ((attempts.filter Attempt.isOk).map (·.entry.encode)).Sublist
      (readFrames (taken ++ later)).1 := by
  obtain ⟨records, left, rfl, -, hsub⟩ := h
  rw [List.append_assoc, readFrames_append]
  exact hsub.trans (List.sublist_append_left _ _)

/-- Parts of frames are readable if all of them behind a torn one are empty. -/
theorem readable_of_isPart {attempts : List Attempt} (hparts : ∀ a ∈ attempts, a.IsPart)
    (h : attempts.Pairwise fun a b => a.Torn → b.taken = []) :
    Readable (attempts.flatMap Attempt.taken) attempts := by
  induction attempts with
  | nil => exact ⟨[], [], rfl, .nil, List.nil_sublist _⟩
  | cons a attempts ih =>
    obtain ⟨ha, hparts⟩ := List.forall_mem_cons.1 hparts
    obtain ⟨hlater, h⟩ := List.pairwise_cons.1 h
    by_cases hwhole : a.taken = a.entry.frame
    · -- one more whole frame, whether or not the write returned ok
      obtain ⟨records, left, htaken, hleft, hsub⟩ := ih hparts h
      refine ⟨a.entry.encode :: records, left, ?_, hleft, ?_⟩
      · rw [List.flatMap_cons, List.flatMap_cons, hwhole, htaken, List.append_assoc]
        rfl
      · rw [List.filter_cons]
        split
        · exact hsub.cons_cons _
        · exact hsub.cons _
    have hfailed : ¬a.isOk := fun hok => hwhole (ha.taken_of_ok hok)
    rw [Readable, List.flatMap_cons, List.filter_cons_of_neg hfailed]
    by_cases hnil : a.taken = []
    · rw [hnil, List.nil_append]
      exact ih hparts h
    · -- a torn frame: nothing is taken after it, so that no later write returned ok
      have hnothing : ∀ b ∈ attempts, b.taken = [] := fun b hb => hlater b hb ⟨hnil, hwhole⟩
      have hnone : attempts.filter Attempt.isOk = [] :=
        List.filter_eq_nil_iff.2 fun b hb => (hparts b hb).not_ok_of_nil (hnothing b hb)
      obtain ⟨rest, hframe, -⟩ := ha
      refine ⟨[], a.taken, ?_, ⟨a.entry.encode, rest, ?_, hframe⟩, ?_⟩
      · rw [List.flatMap_eq_nil_iff.2 hnothing]
        exact List.append_nil _
      · rintro rfl
        exact hwhole (by rw [hframe, List.append_nil])
      · rw [hnone]
        exact List.nil_sublist _

/-- **A failed write does no harm while its frame is the last.** Whatever a writer answers, what it
has taken is readable if it takes nothing after a frame of which it has taken only a part. -/
theorem readable_unless_torn (answers : List WriteAnswer) (flushes : List (Option String))
    (entries : List Entry)
    (h : ((Sink.writer ⟨[], answers, flushes⟩).attempts entries).1.Pairwise
      fun a b => a.Torn → b.taken = []) :
    Readable ((Sink.writer ⟨[], answers, flushes⟩).attempts entries).2.taken
      ((Sink.writer ⟨[], answers, flushes⟩).attempts entries).1 := by
  obtain ⟨htaken, hparts⟩ := Sink.attempts_taken ⟨[], answers, flushes⟩ entries
  rw [htaken]
  exact readable_of_isPart hparts h

/-- A message of one octet, as a client logs it. -/
def sentOctet (b : UInt8) : Entry := ⟨.sendMessage, .client, ⟨0, 1⟩, none, .message ⟨0, 1, [b]⟩⟩

/-- The first frame is taken whole, of the second a part, of the third nothing. -/
theorem readable_unless_torn_of_last :
    let answers : List WriteAnswer := [.takeAll, .take 3, .fail "disk full", .fail "disk full"]
    let run := (Sink.writer ⟨[], answers, []⟩).attempts [sentOctet 1, sentOctet 2, sentOctet 3]
    run.1.map Attempt.taken = [(sentOctet 1).frame, [22, 8, 3], []] ∧
      run.1.Pairwise (fun a b => a.Torn → b.taken = []) ∧ Readable run.2.taken run.1 := by
  intro answers run
  have hlast : run.1.Pairwise fun a b => a.Torn → b.taken = [] := by decide +kernel
  exact ⟨by decide +kernel, hlast, readable_unless_torn answers [] _ hlast⟩

/-- **A torn frame can hide an entry.** After three octets of a frame the writer fails, then it
takes the next frame whole: the reader finds one record, made of parts of both. -/
theorem not_readable_after_torn :
    let run := (Sink.writer ⟨[], [.take 3, .fail "disk full"], []⟩).attempts
      [sentOctet 1, sentOctet 2]
    run.1.map Attempt.isOk = [false, true] ∧ ¬Readable run.2.taken run.1 := by
  intro run
  refine ⟨by decide +kernel, fun h => ?_⟩
  have hok : (run.1.filter Attempt.isOk).map (·.entry.encode) = [(sentOctet 2).encode] := by
    decide +kernel
  have hread : (readFrames run.2.taken).1 = [[8, 3] ++ (sentOctet 2).frame.take 20] := by
    decide +kernel
  have hsub := h.sublist_readFrames []
  rw [List.append_nil, hok, hread, List.singleton_sublist, List.mem_singleton] at hsub
  exact absurd hsub (by decide +kernel)

end BinaryLog
