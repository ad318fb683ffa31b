import BinaryLog.Proofs.Interception.PassEnd
import BinaryLog.Proofs.Sink.Torn

/-!
# Steady sinks

A writer is steady if each write takes at least one octet or is interrupted, and no flush fails.
Such a writer takes every record whole, whatever parts it takes it in. A sink is steady if it is in
memory, or if the writer behind it is steady; then it refuses nothing.

* `Writer.Steady.put`: a steady writer takes a record whole and stays steady.
* `Pass.agree_of_steady`: passes over the same entries go alike over all steady sinks.
* `Pass.taken_of_steady`: a steady writer takes the frames of the entries that were logged.
-/

namespace BinaryLog

/-- Takes something, or may be tried again. -/
def WriteAnswer.Advances : WriteAnswer → Prop
  | take limit => 0 < limit
  | takeAll | interrupted => True
  | fail _ => False

/-- Each write takes something or may be tried again, and no flush fails. -/
structure Writer.Steady (w : Writer) : Prop where
  answers : ∀ a ∈ w.answers, a.Advances
  flushes : ∀ f ∈ w.flushes, f = none

/-- In memory, or with a steady writer behind it. -/
def Sink.Steady : Sink → Prop
  | memory _ => True
  | writer w => w.Steady

/-! ## Writing a record -/

namespace Writer

theorem offer_of_advances {answers : List WriteAnswer} (bytes : Bytes)
    (h : ∀ a ∈ answers, a.Advances) :
    (offer answers bytes).failure = none ∧ ∀ a ∈ (offer answers bytes).answers, a.Advances := by
  fun_induction offer answers bytes with
  | case1 answers => exact ⟨rfl, h⟩
  | case2 bytes => exact ⟨rfl, List.forall_mem_nil _⟩
  | case3 answers bytes => exact ⟨rfl, (List.forall_mem_cons.1 h).2⟩
  | case4 answers bytes _ ih => exact ih (List.forall_mem_cons.1 h).2
  | case5 reason answers bytes => exact ((List.forall_mem_cons.1 h).1).elim
  | case6 answers bytes => exact absurd (List.forall_mem_cons.1 h).1 (Nat.lt_irrefl 0)
  | case7 limit answers bytes _ ih => exact ih (List.forall_mem_cons.1 h).2

theorem Steady.flush {w : Writer} (h : w.Steady) : w.flush.1 = .ok () ∧ w.flush.2.2.Steady := by
  obtain ⟨taken, answers, flushes⟩ := w
  cases flushes with
  | nil => exact ⟨rfl, h⟩
  | cons f flushes =>
    obtain ⟨rfl, hflushes⟩ := List.forall_mem_cons.1 h.flushes
    exact ⟨rfl, h.answers, hflushes⟩

theorem Steady.writeAll {w : Writer} (h : w.Steady) (bytes : Bytes) :
    (w.writeAll bytes).1 = .ok () ∧ (w.writeAll bytes).2.2.Steady := by
  obtain ⟨hok, hanswers⟩ := offer_of_advances bytes h.answers
  simp only [Writer.writeAll, hok]
  exact ⟨trivial, hanswers, h.flushes⟩

/-- **A steady writer takes a record whole**, in whatever parts, and stays steady. -/
theorem Steady.put {w : Writer} (h : w.Steady) (record : Bytes) :
    (w.put record).1 = .ok () ∧ (w.put record).2.2.taken = w.taken ++ record ∧
      (w.put record).2.2.Steady := by
  have hput : (w.put record).1 = .ok () ∧ (w.put record).2.2.Steady := by
    obtain ⟨hok, hsteady⟩ := h.writeAll record
    unfold Writer.put
    rcases hall : w.writeAll record with ⟨result, events, written⟩
    rw [hall] at hok hsteady
    subst hok
    exact hsteady.flush
  obtain ⟨htaken, rest, hrecord, hrest⟩ := w.put_taken record
  obtain rfl : rest = [] := hrest (by rw [hput.1]; rfl)
  rw [List.append_nil] at hrecord
  exact ⟨hput.1, by rw [htaken, ← hrecord], hput.2⟩

end Writer

/-! ## Logging -/

theorem Sink.Steady.write {s : Sink} (h : s.Steady) (e : Entry) :
    (s.write e).1 = .ok () ∧ (s.write e).2.2.Steady := by
  cases s with
  | memory entries => exact ⟨rfl, trivial⟩
  | writer w =>
    obtain ⟨hok, -, hsteady⟩ := Writer.Steady.put h e.frame
    simp only [Sink.write, hok]
    exact ⟨rfl, hsteady⟩

theorem Sink.Steady.drain {s : Sink} (h : s.Steady) : s.drain.2.Steady := by
  cases s with
  | memory => trivial
  | writer => exact h

namespace Surroundings

variable {w : Surroundings}

/-- A planned failure is the error of the write, and the sink is left alone. -/
theorem log_of_planned {reason : String} (h : w.sinkFault = some reason) (e : Entry) :
    w.log e = (.error (.sinkFailure reason),
      { w with sinkFault := none, trace := w.trace ++ [.refused e] }) := by
  simp only [log, h]

/-- A steady sink takes an entry unless a failure is planned. -/
theorem log_of_steady (h : w.sink.Steady) (hfault : w.sinkFault = none) (e : Entry) :
    ∃ w₁, w.log e = (.ok (), w₁) ∧ w₁.sink = (w.sink.write e).2.2 ∧ w₁.sinkFault = none ∧
      w₁.callFault = w.callFault := by
  obtain ⟨hok, -⟩ := h.write e
  simp only [log, hfault]
  rcases hwrite : w.sink.write e with ⟨result, events, sink⟩
  rw [hwrite] at hok
  subst hok
  exact ⟨_, rfl, rfl, rfl, rfl⟩

end Surroundings

/-! ## Passes -/

namespace Pass

variable {w w' w₁ w₁' : Surroundings} {es : List Entry} {beyond beyond' : Reached} {n n' : Nat}
  {result result' : Except Error Unit}

theorem steady (h : Pass es beyond w n result w₁) (hw : w.sink.Steady) : w₁.sink.Steady := by
  induction es generalizing w n with
  | nil =>
    obtain ⟨-, -, hsink, -⟩ := h.of_nil
    rwa [hsink]
  | cons e es ih =>
    cases hfault : w.sinkFault with
    | some reason =>
      obtain ⟨-, -, rfl⟩ := h.of_log_error (Surroundings.log_of_planned hfault e)
      exact hw
    | none =>
      obtain ⟨w₂, hlog, hsink, -⟩ := Surroundings.log_of_steady hw hfault e
      obtain ⟨m, -, hp⟩ := h.of_log_ok hlog
      exact ih hp (hsink ▸ (hw.write e).2)

/-- **How a pass over a steady sink goes depends on the planned failures**, not on the sink. -/
theorem agree_of_steady (h : Pass es beyond w n result w₁) (h' : Pass es beyond' w' n' result' w₁')
    (hw : w.sink.Steady) (hw' : w'.sink.Steady) (hsinkFault : w.sinkFault = w'.sinkFault)
    (hcallFault : w.callFault = w'.callFault) : n = n' ∧ result = result' := by
  induction es generalizing w w' n n' with
  | nil =>
    obtain ⟨rfl, rfl, -⟩ := h.of_nil
    obtain ⟨rfl, rfl, -⟩ := h'.of_nil
    exact ⟨rfl, Surroundings.own_eq_of_callFault_eq hcallFault⟩
  | cons e es ih =>
    cases hfault : w.sinkFault with
    | some reason =>
      have hfault' : w'.sinkFault = some reason := hsinkFault ▸ hfault
      obtain ⟨rfl, rfl, -⟩ := h.of_log_error (Surroundings.log_of_planned hfault e)
      obtain ⟨rfl, rfl, -⟩ := h'.of_log_error (Surroundings.log_of_planned hfault' e)
      exact ⟨rfl, rfl⟩
    | none =>
      have hfault' : w'.sinkFault = none := hsinkFault ▸ hfault
      obtain ⟨w₂, hlog, hsink, hleft, hcall⟩ := Surroundings.log_of_steady hw hfault e
      obtain ⟨w₂', hlog', hsink', hleft', hcall'⟩ := Surroundings.log_of_steady hw' hfault' e
      obtain ⟨m, rfl, hp⟩ := h.of_log_ok hlog
      obtain ⟨m', rfl, hp'⟩ := h'.of_log_ok hlog'
      obtain ⟨rfl, hresult⟩ := ih hp hp' (hsink ▸ (hw.write e).2) (hsink' ▸ (hw'.write e).2)
        (hleft.trans hleft'.symm) (by rw [hcall, hcall', hcallFault])
      exact ⟨rfl, hresult⟩

/-- A steady writer takes the frames of the entries that are logged. -/
theorem taken_of_steady {writer : Writer} (h : Pass es beyond w n result w₁)
    (hw : w.sink = .writer writer) (hsteady : writer.Steady) :
    ∃ writer', w₁.sink = .writer writer' ∧ writer'.Steady ∧
      writer'.taken = writer.taken ++ stream (es.take n) := by
  induction es generalizing w n writer with
  | nil =>
    obtain ⟨-, -, hsink, -⟩ := h.of_nil
    exact ⟨writer, hsink.trans hw, hsteady, by simp [stream]⟩
  | cons e es ih =>
    cases hfault : w.sinkFault with
    | some reason =>
      obtain ⟨rfl, -, rfl⟩ := h.of_log_error (Surroundings.log_of_planned hfault e)
      exact ⟨writer, hw, hsteady, by simp [stream]⟩
    | none =>
      have hsink : w.sink.Steady := hw ▸ hsteady
      obtain ⟨w₂, hlog, hwritten, -⟩ := Surroundings.log_of_steady hsink hfault e
      obtain ⟨m, rfl, hp⟩ := h.of_log_ok hlog
      have hwritten : w₂.sink = .writer (writer.put e.frame).2.2 := by rw [hwritten, hw]; rfl
      obtain ⟨-, htaken, hput⟩ := hsteady.put e.frame
      obtain ⟨writer', hlast, hlastSteady, hall⟩ := ih hp hwritten hput
      refine ⟨writer', hlast, hlastSteady, ?_⟩
      rw [hall, htaken, List.take_succ_cons, stream, stream, List.flatMap_cons, List.append_assoc]

end Pass

end BinaryLog
