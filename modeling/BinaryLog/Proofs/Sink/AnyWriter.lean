import BinaryLog.Proofs.Sink.Torn

/-!
# One write, whatever the writer answers

A record is offered to a writer until it is taken whole or a write is refused. Which octets are
offered, what is taken, whether the writer is flushed and how it all ends depends on its answers
alone:

* `Offered`: how offering octets goes, one write after another; `offer_offered` says that it goes
  like this.
* `Offered.offered_left`, `Offered.of_refusal`, `Offered.exists_refusal`: each write is offered what
  the ones before it have left, and a refusal, but nothing else, ends the writing early.
* `Writer.Writes`: how a record is written, the flush at its end included.
* `entry_written_over_any_writer`: so an entry is written over every writer.
-/

namespace BinaryLog

/-! ## One answer -/

namespace WriteAnswer

/-- What a writer that gives this answer is seen to do when it is offered octets. -/
def event (offered : Bytes) : WriteAnswer → WriterEvent
  | take limit => .write (offered.take limit)
  | takeAll => .write offered
  | interrupted => .interrupted
  | fail _ => .failed

/-- The reason for giving up after this answer: the writer fails, or it takes nothing and is not
interrupted. -/
def refusal : WriteAnswer → Option String
  | take 0 => some "failed to write whole buffer"
  | fail reason => some reason
  | take (_ + 1) | takeAll | interrupted => none

theorem event_ne_flush (a : WriteAnswer) (offered : Bytes) : a.event offered ≠ .flush := by
  cases a <;> exact nofun

end WriteAnswer

/-- The octets taken in a course of events. -/
def takenIn (events : List WriterEvent) : Bytes := events.flatMap WriterEvent.taken

theorem takenIn_cons (event : WriterEvent) (events : List WriterEvent) :
    takenIn (event :: events) = event.taken ++ takenIn events := List.flatMap_cons

theorem takenIn_flushed (events : List WriterEvent) :
    takenIn (events ++ [.flush]) = takenIn events := by
  simp [takenIn, WriterEvent.taken]

/-! ## Offering octets -/

/-- How it goes to offer octets until they are all taken: what the writer does, and the reason for
giving up, if it comes to that. When the answers run out the writer takes everything. -/
inductive Offered : List WriteAnswer → Bytes → List WriterEvent → Option String → Prop
  | done {answers : List WriteAnswer} : Offered answers [] [] none
  | refused {answers : List WriteAnswer} {bytes : Bytes} {reason : String} : bytes ≠ [] →
      (answers.headD .takeAll).refusal = some reason →
      Offered answers bytes [(answers.headD .takeAll).event bytes] (some reason)
  | goesOn {answers : List WriteAnswer} {bytes : Bytes} {event : WriterEvent}
      {events : List WriterEvent} {failure : Option String} : bytes ≠ [] →
      (answers.headD .takeAll).refusal = none → (answers.headD .takeAll).event bytes = event →
      Offered answers.tail (bytes.drop event.taken.length) events failure →
      Offered answers bytes (event :: events) failure

namespace Offered

variable {answers : List WriteAnswer} {bytes : Bytes} {events : List WriterEvent}
  {failure : Option String} {event : WriterEvent} {k : Nat} {reason : String}

/-- A write that takes everything leaves nothing to offer. -/
theorem done_of_all (answers : List WriteAnswer) (bytes : Bytes) :
    Offered answers (bytes.drop (WriterEvent.write bytes).taken.length) [] none := by
  rw [WriterEvent.taken, List.drop_length]
  exact .done

theorem getD_succ (answers : List WriteAnswer) (k : Nat) :
    answers.getD (k + 1) .takeAll = answers.tail.getD k .takeAll := by
  cases answers <;> simp

theorem getD_zero (answers : List WriteAnswer) :
    answers.getD 0 .takeAll = answers.headD .takeAll := by
  cases answers <;> rfl

/-- **Each write is offered what the ones before it have left**, and there is something left. -/
theorem offered_left (h : Offered answers bytes events failure) (hk : events[k]? = some event) :
    bytes.drop (takenIn (events.take k)).length ≠ [] ∧
      event = (answers.getD k .takeAll).event (bytes.drop (takenIn (events.take k)).length) := by
  induction h generalizing k with
  | done => cases hk
  | refused hne =>
    cases k with
    | zero =>
      cases hk
      rw [getD_zero]
      exact ⟨hne, rfl⟩
    | succ k => cases hk
  | @goesOn answers bytes first events failure hne _ hfirst _ ih =>
    cases k with
    | zero =>
      cases hk
      rw [getD_zero, ← hfirst]
      exact ⟨hne, rfl⟩
    | succ k =>
      rw [List.getElem?_cons_succ] at hk
      have hlater := ih hk
      rw [List.drop_drop, ← List.length_append, ← takenIn_cons] at hlater
      rw [getD_succ, List.take_succ_cons]
      exact hlater

theorem flush_notMem (h : Offered answers bytes events failure) : .flush ∉ events := by
  intro hflush
  obtain ⟨k, hk⟩ := List.mem_iff_getElem?.1 hflush
  exact WriteAnswer.event_ne_flush _ _ (h.offered_left hk).2.symm

/-- **A refusal ends the writing**, for the reason of the refusal. -/
theorem of_refusal (h : Offered answers bytes events failure) (hk : k < events.length)
    (hrefusal : (answers.getD k .takeAll).refusal = some reason) :
    events.length = k + 1 ∧ failure = some reason := by
  induction h generalizing k with
  | done => cases hk
  | refused _ hfirst =>
    obtain rfl : k = 0 := by simpa using hk
    rw [getD_zero, hfirst] at hrefusal
    exact ⟨rfl, hrefusal⟩
  | @goesOn answers bytes first events failure _ hfirst _ _ ih =>
    cases k with
    | zero =>
      rw [getD_zero, hfirst] at hrefusal
      cases hrefusal
    | succ k =>
      rw [getD_succ] at hrefusal
      obtain ⟨hlength, hfailure⟩ := ih (Nat.lt_of_succ_lt_succ hk) hrefusal
      exact ⟨congrArg Nat.succ hlength, hfailure⟩

/-- **Nothing but a refusal ends the writing early.** -/
theorem exists_refusal (h : Offered answers bytes events failure)
    (hfailure : failure = some reason) :
    ∃ k, events.length = k + 1 ∧ (answers.getD k .takeAll).refusal = some reason := by
  induction h with
  | done => cases hfailure
  | @refused answers _ _ _ hfirst =>
    refine ⟨0, rfl, ?_⟩
    rw [getD_zero, hfirst, hfailure]
  | @goesOn answers _ _ events _ _ _ _ _ ih =>
    obtain ⟨k, hlength, hrefusal⟩ := ih hfailure
    refine ⟨k + 1, congrArg Nat.succ hlength, ?_⟩
    rw [getD_succ, hrefusal]

end Offered

namespace Writer

/-- Offering octets goes as `Offered` says. -/
theorem offer_offered (answers : List WriteAnswer) (bytes : Bytes) :
    Offered answers bytes (offer answers bytes).events (offer answers bytes).failure := by
  fun_induction offer answers bytes with
  | case1 answers => exact .done
  | case2 bytes hne => exact .goesOn hne rfl rfl (.done_of_all [] bytes)
  | case3 answers bytes hne => exact .goesOn hne rfl rfl (.done_of_all answers bytes)
  | case4 answers bytes hne ih => exact .goesOn hne rfl rfl ih
  | case5 reason answers bytes hne => exact .refused hne rfl
  | case6 answers bytes hne => exact .refused hne rfl
  | case7 limit answers bytes hne ih =>
    refine .goesOn hne rfl rfl ?_
    -- the octets taken may be fewer than the limit, but then nothing is left either way
    have hleft : bytes.drop (bytes.take (limit + 1)).length = bytes.drop (limit + 1) := by simp
    rw [WriterEvent.taken, List.tail_cons, hleft]
    exact ih

/-! ## Writing a record -/

/-- The answer to a write, by its place among the writes to come. -/
def answer (w : Writer) (k : Nat) : WriteAnswer := w.answers.getD k .takeAll

/-- The reason for which the next flush fails, if it does. -/
def flushFailure (w : Writer) : Option String := w.flushes.head?.join

/-- How a record is written: what comes of it, what the writer is seen to do, and the writer
afterwards. -/
structure Writes (w : Writer) (record : Bytes) (result : Except Error Unit)
    (events : List WriterEvent) (w' : Writer) : Prop where
  /-- The octets taken are those of the record, from its front, each once and in order. -/
  taken : w'.taken = w.taken ++ takenIn events
  part : takenIn events <+: record
  /-- As long as something is left of the record, that is what a write is offered; after an
  interruption it is the same as before. -/
  offered : ∀ k event, events[k]? = some event → event ≠ .flush →
    record.drop (takenIn (events.take k)).length ≠ [] ∧
      event = (w.answer k).event (record.drop (takenIn (events.take k)).length)
  /-- Writing succeeds if the record is taken whole and the flush succeeds. -/
  ok : result = .ok () ↔ takenIn events = record ∧ w.flushFailure = none
  /-- The writer is flushed once if it has taken the record whole, else not at all. -/
  flushes : events.count .flush = if takenIn events = record then 1 else 0
  /-- After a refusal nothing more is done, and its reason is the reason for failing. -/
  refused : ∀ k event reason, events[k]? = some event → event ≠ .flush →
    (w.answer k).refusal = some reason →
    events.length = k + 1 ∧ result = .error (.sinkFailure reason)
  /-- Nothing but a refusal keeps the record from being taken whole. -/
  stopped : takenIn events ≠ record →
    ∃ k reason, events.length = k + 1 ∧ (w.answer k).refusal = some reason
  /-- A flush that fails makes writing fail, though the record is taken whole. -/
  unflushed : ∀ reason, takenIn events = record → w.flushFailure = some reason →
    result = .error (.sinkFailure reason)

theorem flush_eq (w : Writer) :
    w.flush.1 = w.flushFailure.elim (.ok ()) .error ∧ w.flush.2.1 = [.flush] := by
  obtain ⟨taken, answers, flushes⟩ := w
  cases flushes with
  | nil => exact ⟨rfl, rfl⟩
  | cons flush flushes => cases flush <;> exact ⟨rfl, rfl⟩

section
variable {w : Writer} {record : Bytes}

/-- If the record is not taken whole, the writer is not flushed. -/
theorem put_of_refused {reason : String} (h : (offer w.answers record).failure = some reason) :
    (w.put record).1 = .error reason ∧ (w.put record).2.1 = (offer w.answers record).events := by
  simp only [put, writeAll, h, and_self]

/-- If it is, the flush decides. -/
theorem put_of_taken (h : (offer w.answers record).failure = none) :
    (w.put record).1 = w.flushFailure.elim (.ok ()) .error ∧
      (w.put record).2.1 = (offer w.answers record).events ++ [.flush] := by
  simp only [put, writeAll, h]
  rw [(flush_eq _).1, (flush_eq _).2]
  exact ⟨rfl, rfl⟩

/-- The record is taken whole just if offering it does not fail. -/
theorem takenIn_put_iff :
    takenIn (w.put record).2.1 = record ↔ (offer w.answers record).failure = none := by
  obtain ⟨rest, hrecord, hrest⟩ := exists_offer_taken w.answers record
  have htaken : takenIn (w.put record).2.1 = takenIn (offer w.answers record).events := by
    cases hfailure : (offer w.answers record).failure with
    | some reason => rw [(put_of_refused hfailure).2]
    | none => rw [(put_of_taken hfailure).2, takenIn_flushed]
  rw [htaken, hrest]
  constructor
  · intro hwhole
    change record = takenIn _ ++ rest at hrecord
    rw [hwhole] at hrecord
    exact List.self_eq_append_right.1 hrecord
  · rintro rfl
    rw [List.append_nil] at hrecord
    exact hrecord.symm

/-- What the writer does besides being flushed, it does when the record is offered. -/
theorem getElem?_put_events {k : Nat} {event : WriterEvent}
    (hk : (w.put record).2.1[k]? = some event) (hne : event ≠ .flush) :
    (offer w.answers record).events[k]? = some event ∧
      (w.put record).2.1.take k = (offer w.answers record).events.take k := by
  cases hfailure : (offer w.answers record).failure with
  | some reason =>
    rw [(put_of_refused hfailure).2] at hk ⊢
    exact ⟨hk, rfl⟩
  | none =>
    rw [(put_of_taken hfailure).2] at hk ⊢
    rcases Nat.lt_or_ge k (offer w.answers record).events.length with hlt | hge
    · rw [List.getElem?_append_left hlt] at hk
      exact ⟨hk, List.take_append_of_le_length (Nat.le_of_lt hlt)⟩
    · -- behind the writes there is only the flush
      rw [List.getElem?_append_right hge] at hk
      exact absurd (List.mem_singleton.1 (List.mem_of_getElem? hk)) hne

theorem put_ok_iff :
    (w.put record).1 = .ok () ↔ takenIn (w.put record).2.1 = record ∧ w.flushFailure = none := by
  rw [takenIn_put_iff]
  cases hfailure : (offer w.answers record).failure with
  | some reason =>
    rw [(put_of_refused hfailure).1]
    exact iff_of_false nofun nofun
  | none =>
    rw [(put_of_taken hfailure).1]
    cases w.flushFailure with
    | none => exact iff_of_true rfl ⟨rfl, rfl⟩
    | some reason => exact iff_of_false nofun nofun

theorem count_flush_put :
    (w.put record).2.1.count .flush = if takenIn (w.put record).2.1 = record then 1 else 0 := by
  have hnone : (offer w.answers record).events.count .flush = 0 :=
    List.count_eq_zero.2 (offer_offered w.answers record).flush_notMem
  simp only [takenIn_put_iff]
  cases hfailure : (offer w.answers record).failure with
  | some reason => rw [(put_of_refused hfailure).2, hnone, if_neg nofun]
  | none =>
    rw [(put_of_taken hfailure).2, List.count_append, hnone, if_pos rfl]
    rfl

theorem put_refused {k : Nat} {event : WriterEvent} {reason : String}
    (hk : (w.put record).2.1[k]? = some event) (hne : event ≠ .flush)
    (hrefusal : (w.answer k).refusal = some reason) :
    (w.put record).2.1.length = k + 1 ∧ (w.put record).1 = .error reason := by
  obtain ⟨hk, -⟩ := getElem?_put_events hk hne
  obtain ⟨hlt, -⟩ := List.getElem?_eq_some_iff.1 hk
  obtain ⟨hlength, hfailure⟩ := (offer_offered w.answers record).of_refusal hlt hrefusal
  obtain ⟨hresult, hevents⟩ := put_of_refused hfailure
  rw [hresult, hevents]
  exact ⟨hlength, rfl⟩

theorem exists_refusal_of_put (h : takenIn (w.put record).2.1 ≠ record) :
    ∃ k reason, (w.put record).2.1.length = k + 1 ∧ (w.answer k).refusal = some reason := by
  rw [Ne, takenIn_put_iff] at h
  obtain ⟨reason, hfailure⟩ := Option.ne_none_iff_exists'.1 h
  obtain ⟨k, hlength, hrefusal⟩ := (offer_offered w.answers record).exists_refusal hfailure
  refine ⟨k, reason, ?_, hrefusal⟩
  rw [(put_of_refused hfailure).2, hlength]

theorem put_unflushed {reason : String} (hwhole : takenIn (w.put record).2.1 = record)
    (hflush : w.flushFailure = some reason) : (w.put record).1 = .error reason := by
  rw [(put_of_taken (takenIn_put_iff.1 hwhole)).1, hflush]
  rfl

end

end Writer

theorem mapError_eq_ok_iff {ε ε' α : Type} {f : ε → ε'} {x : Except ε α} {a : α} :
    x.mapError f = .ok a ↔ x = .ok a := by
  cases x with
  | error e => exact iff_of_false nofun nofun
  | ok b =>
    constructor
    · intro h
      cases h
      rfl
    · intro h
      cases h
      rfl

/-- **Writing an entry, whatever the writer answers.** The writer is offered the frame of the entry,
each time what is left of it, until it is taken whole or a write is refused. If it is taken whole
the writer is flushed, and the entry is written if that succeeds; else the refusal is the reason for
failing. -/
theorem entry_written_over_any_writer (w : Writer) (e : Entry) :
    ∃ w', ((Sink.writer w).write e).2.2 = .writer w' ∧
      w.Writes e.frame ((Sink.writer w).write e).1 ((Sink.writer w).write e).2.1 w' := by
  obtain ⟨htaken, rest, hpart, -⟩ := w.put_taken e.frame
  refine ⟨(w.put e.frame).2.2, rfl, htaken, ⟨rest, hpart.symm⟩, fun k event hk hne => ?_,
    mapError_eq_ok_iff.trans Writer.put_ok_iff, Writer.count_flush_put,
    fun k event reason hk hne hrefusal => ?_, Writer.exists_refusal_of_put,
    fun reason hwhole hflush => ?_⟩
  · obtain ⟨hoffered, hbefore⟩ := Writer.getElem?_put_events hk hne
    have hbefore : ((Sink.writer w).write e).2.1.take k = _ := hbefore
    rw [hbefore]
    exact (Writer.offer_offered w.answers e.frame).offered_left hoffered
  · obtain ⟨hlength, hresult⟩ := Writer.put_refused hk hne hrefusal
    exact ⟨hlength, congrArg (Except.mapError Error.sinkFailure) hresult⟩
  · exact congrArg (Except.mapError Error.sinkFailure) (Writer.put_unflushed hwhole hflush)

/-- A part of a frame, an interruption and the rest of it; then the flush fails. -/
example : ((Sink.writer ⟨[], [.take 3, .interrupted, .take 20], [some "disk full"]⟩).write
      (sentOctet 1)).2 =
    ([.write [22, 8, 3], .interrupted, .write ((sentOctet 1).frame.drop 3), .flush],
      .writer ⟨(sentOctet 1).frame, [], []⟩) := by decide +kernel

end BinaryLog
