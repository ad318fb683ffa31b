import BinaryLog.Proofs.Session.Received
import BinaryLog.Proofs.Sink.Steady

/-!
# Steady sinks agree

Over a steady sink a session runs as it does over any other one: a sink in memory, or a writer that
takes frames in whatever parts. And a steady writer takes the frames of just the entries that a sink
in memory receives.

* `step_agree`, `run_agree`: what does not depend on the sink (`Report.besidesSink`) is the same.
* `run_taken`: a steady writer takes the frames of what is logged.
* `received_eq_drained`: a sink in memory has received what was drained and what is left.
* `sinks_agree`: so the octets taken are the frames of what was drained and what is left.
-/

namespace BinaryLog.Session

/-! ## What is compared -/

/-- The outcome, less the entries that it shows of a sink in memory. -/
def Outcome.withoutEntries : Outcome → Outcome
  | answered (.entries _) => answered (.entries [])
  | answered answer => answered answer
  | failed e => failed e
  | skipped => skipped

/-- What a report tells apart from the sink: the outcome, less the entries it shows, and what was
logged, refused and passed on, in order. -/
def Report.besidesSink (r : Report) : Outcome × List Happening :=
  (r.outcome.withoutEntries, milestones r.trace)

/-- What a step returns of the entries that it removes from a sink in memory. -/
def returned (st : Step) (r : Report) : List Entry :=
  match st.action, r.outcome with
  | .drain, .answered (.entries entries) => entries
  | _, _ => []

/-- What the steps of a script return of the entries that they remove, in order. -/
def drained (script : List Step) (reports : List Report) : List Entry :=
  (List.zipWith returned script reports).flatten

/-! ## Plans over steady sinks -/

section
variable {p : Plan} {w w' w₁ w₁' : Surroundings} {outcome outcome' : Outcome}
  {next next' : Option CallState}

theorem Plan.Runs.steady (h : p.Runs w outcome next w₁) (hw : w.sink.Steady) :
    w₁.sink.Steady := by
  cases h with
  | answer | note => exact hw
  | pass hp => exact hp.steady hw

theorem Plan.Runs.agree_of_steady (h : p.Runs w outcome next w₁)
    (h' : p.Runs w' outcome' next' w₁') (hw : w.sink.Steady) (hw' : w'.sink.Steady)
    (hsinkFault : w.sinkFault = w'.sinkFault) (hcallFault : w.callFault = w'.callFault)
    (htrace : milestones w.trace = milestones w'.trace) :
    outcome = outcome' ∧ next = next' ∧ milestones w₁.trace = milestones w₁'.trace := by
  cases p with
  | answer =>
    cases h
    cases h'
    exact ⟨rfl, rfl, htrace⟩
  | note =>
    cases h
    cases h'
    simp [Surroundings.note, htrace]
  | pass =>
    obtain ⟨n, result, hp, rfl, rfl⟩ := h.of_pass
    obtain ⟨n', result', hp', rfl, rfl⟩ := h'.of_pass
    obtain ⟨rfl, rfl⟩ := hp.agree_of_steady hp' hw hw' hsinkFault hcallFault
    exact ⟨rfl, rfl, by rw [hp.milestones_eq, hp'.milestones_eq, htrace]⟩

theorem Plan.Runs.taken_of_steady {writer : Writer} (h : p.Runs w outcome next w₁)
    (hw : w.sink = .writer writer) (hsteady : writer.Steady) (htrace : w.trace = []) :
    ∃ writer', w₁.sink = .writer writer' ∧ writer'.Steady ∧
      writer'.taken = writer.taken ++ stream (accepted w₁.trace) := by
  have hnothing : writer.taken = writer.taken ++ stream [] := (List.append_nil _).symm
  cases h with
  | answer => exact ⟨writer, hw, hsteady, by rw [htrace]; exact hnothing⟩
  | note => exact ⟨writer, hw, hsteady, by rw [Surroundings.note, htrace]; exact hnothing⟩
  | pass hp =>
    obtain ⟨writer', hsink, hlast, htaken⟩ := hp.taken_of_steady hw hsteady
    refine ⟨writer', hsink, hlast, ?_⟩
    rw [htaken, hp.accepted_eq, htrace]
    rfl

end

/-! ## Steps -/

section
variable {s s' : Session}

theorem step_steady (hs : s.Reachable) (hsink : s.sink.Steady) (st : Step) :
    (s.step st).2.sink.Steady := by
  cases hcall : st.action.call with
  | some name =>
    obtain ⟨w, hr, -, hlast⟩ := step_plan hcall hs.sound
    rw [hlast]
    exact hr.steady hsink
  | none =>
    obtain ⟨-, -, hlast⟩ := step_no_call s hcall
    rw [hlast]
    split
    · exact hsink.drain
    · exact hsink

/-- If a step leaves the call that it is about in the same state in two sessions with the same
calls, it leaves them with the same calls. -/
theorem step_calls_eq {st : Step} {name : String} (hcalls : s.calls = s'.calls)
    (hcall : st.action.call = some name)
    (hstate : (s.step st).2.calls.state name = (s'.step st).2.calls.state name) :
    (s.step st).2.calls = (s'.step st).2.calls := by
  ext1
  · funext other
    by_cases hother : st.action.call = some other
    · obtain rfl := Option.some.inj (hcall.symm.trans hother)
      rw [← Calls.call_of_state, hstate, Calls.call_of_state]
    · rw [step_other_call hother, step_other_call hother, hcalls]
  · rw [step_attributes, step_attributes, hcalls]

/-- **A step goes alike over all steady sinks.** -/
theorem step_agree (hs : s.Reachable) (hs' : s'.Reachable) (htable : s.table = s'.table)
    (hcalls : s.calls = s'.calls) (hsink : s.sink.Steady) (hsink' : s'.sink.Steady) (st : Step) :
    (s.step st).1.besidesSink = (s'.step st).1.besidesSink ∧
      (s.step st).2.calls = (s'.step st).2.calls := by
  cases hcall : st.action.call with
  | some name =>
    obtain ⟨w, hr, htrace, -⟩ := step_plan hcall hs.sound
    obtain ⟨w', hr', htrace', -⟩ := step_plan hcall hs'.sound
    rw [planOf, htable, hcalls] at hr
    obtain ⟨houtcome, hstate, hmilestones⟩ := hr.agree_of_steady hr' hsink hsink' rfl rfl rfl
    refine ⟨?_, step_calls_eq hcalls hcall hstate⟩
    rw [Report.besidesSink, Report.besidesSink, houtcome, htrace, htrace', hmilestones]
  | none =>
    obtain ⟨hsame, htrace, -⟩ := step_no_call s hcall
    obtain ⟨hsame', htrace', -⟩ := step_no_call s' hcall
    refine ⟨?_, by rw [hsame, hsame', hcalls]⟩
    have houtcome :
        (s.step st).1.outcome.withoutEntries = (s'.step st).1.outcome.withoutEntries := by
      obtain ⟨action, callFault, sinkFault⟩ := st
      cases action with
      | resolve method => simp only [step, perform, htable]
      | entries | drain => rfl
      | openClient | openServer | operate | peer | setPeer | isCancelled | setCancelled
        | methodName => cases hcall
    rw [Report.besidesSink, Report.besidesSink, houtcome, htrace, htrace']

/-- A steady writer takes the frames of what is logged in a step. -/
theorem step_taken {w : Writer} (hs : s.Reachable) (hsink : s.sink = .writer w) (hw : w.Steady)
    (st : Step) :
    ∃ w', (s.step st).2.sink = .writer w' ∧ w'.Steady ∧
      w'.taken = w.taken ++ stream (accepted (s.step st).1.trace) := by
  cases hcall : st.action.call with
  | some name =>
    obtain ⟨w', hr, htrace, hlast⟩ := step_plan hcall hs.sound
    rw [hlast, htrace]
    exact hr.taken_of_steady hsink hw rfl
  | none =>
    obtain ⟨-, htrace, hlast⟩ := step_no_call s hcall
    refine ⟨w, ?_, hw, ?_⟩
    · rw [hlast, hsink]
      split <;> rfl
    · rw [htrace]
      exact (List.append_nil _).symm

/-- What a step returns of the entries it removes is all that a sink in memory holds. -/
theorem returned_step (s : Session) (st : Step) :
    returned st (s.step st).1 = if st.action = .drain then s.sink.entries else [] := by
  split
  · rename_i hdrain
    obtain ⟨action, callFault, sinkFault⟩ := st
    obtain rfl : action = .drain := hdrain
    cases hsink : s.sink <;> simp only [returned, step, perform, hsink] <;> rfl
  · rename_i hother
    unfold returned
    split
    · contradiction
    · rfl

/-! ## Runs -/

/-- **A script runs alike over all steady sinks.** -/
theorem run_agree (hs : s.Reachable) (hs' : s'.Reachable) (htable : s.table = s'.table)
    (hcalls : s.calls = s'.calls) (hsink : s.sink.Steady) (hsink' : s'.sink.Steady)
    (script : List Step) :
    (s.run script).1.map Report.besidesSink = (s'.run script).1.map Report.besidesSink := by
  induction script generalizing s s' with
  | nil => rfl
  | cons st script ih =>
    obtain ⟨hreport, hnext⟩ := step_agree hs hs' htable hcalls hsink hsink' st
    exact congrArg₂ List.cons hreport (ih (hs.step st) (hs'.step st) htable hnext
      (step_steady hs hsink st) (step_steady hs' hsink' st))

/-- A steady writer takes the frames of what is logged in a run. -/
theorem run_taken {w : Writer} (hs : s.Reachable) (hsink : s.sink = .writer w) (hw : w.Steady)
    (script : List Step) :
    (s.run script).2.sink.taken = w.taken ++ stream (logOf (s.run script).1) := by
  induction script generalizing s w with
  | nil =>
    show s.sink.taken = _
    rw [hsink]
    exact (List.append_nil _).symm
  | cons st script ih =>
    obtain ⟨w', hnext, hw', htaken⟩ := step_taken hs hsink hw st
    show ((s.step st).2.run script).2.sink.taken =
      w.taken ++ stream (accepted (s.step st).1.trace ++ logOf ((s.step st).2.run script).1)
    rw [ih (hs.step st) hnext hw', htaken, stream, stream, stream, List.flatMap_append,
      List.append_assoc]

/-- A sink in memory has received what was drained from it and what it holds in the end. -/
theorem received_eq_drained (s : Session) (script : List Step) :
    s.received script = drained script (s.run script).1 ++ (s.run script).2.sink.entries := by
  induction script generalizing s with
  | nil => rfl
  | cons st script ih =>
    show _ = (returned st (s.step st).1 ++ drained script ((s.step st).2.run script).1) ++ _
    rw [received, ih, returned_step, List.append_assoc]
    rfl

end

theorem logOf_eq_of_besidesSink {reports reports' : List Report}
    (h : reports.map Report.besidesSink = reports'.map Report.besidesSink) :
    logOf reports = logOf reports' := by
  have hlog : ∀ reports : List Report,
      logOf reports = (reports.map Report.besidesSink).flatMap (accepted ·.2) := by
    intro reports
    rw [logOf, List.flatMap_map]
    simp only [Report.besidesSink, accepted_milestones]
  rw [hlog, hlog, h]

/-- **Steady sinks agree, and the parts in which octets are taken do not matter.** Let a writer take
at least one octet at each write, or be interrupted, and let no flush fail. A script runs over it
as over a sink in memory, except for the entries that such a sink shows: with the same outcomes, and
with the same entries logged and the same things passed on. The octets that the writer takes are the
frames of all that is drained from the sink in memory, and of what it holds in the end. -/
theorem sinks_agree (table : Config.RuleTable) (answers : List WriteAnswer)
    (flushes : List (Option String)) (script : List Step)
    (hanswers : ∀ a ∈ answers, a.Advances) (hflushes : ∀ f ∈ flushes, f = none) :
    let run := (start table (.writer ⟨[], answers, flushes⟩)).run script
    let run' := (start table (.memory [])).run script
    run.1.map Report.besidesSink = run'.1.map Report.besidesSink ∧
      run.2.sink.taken = stream (drained script run'.1 ++ run'.2.sink.entries) := by
  intro run run'
  have hs : (start table (.writer ⟨[], answers, flushes⟩)).Reachable := .of_run table _ []
  have hs' : (start table (.memory [])).Reachable := .of_run table _ []
  have hsteady : Writer.Steady ⟨[], answers, flushes⟩ := ⟨hanswers, hflushes⟩
  have hagree : run.1.map Report.besidesSink = run'.1.map Report.besidesSink :=
    run_agree hs hs' rfl rfl hsteady trivial script
  refine ⟨hagree, ?_⟩
  calc run.2.sink.taken
    _ = stream (logOf run.1) := run_taken hs rfl hsteady script
    _ = stream (logOf run'.1) := by rw [logOf_eq_of_besidesSink hagree]
    _ = stream ((start table (.memory [])).received script) := by
      rw [received_eq hs' rfl, List.nil_append]
    _ = stream (drained script run'.1 ++ run'.2.sink.entries) := by rw [received_eq_drained]

/-- The writer takes the first frame in three parts and is interrupted twice; one write is planned
to fail, and the sink in memory is drained between the two frames. -/
theorem sinks_agree_of_parts :
    let answers : List WriteAnswer := [.take 1, .interrupted, .take 4, .interrupted, .takeAll]
    let flushes : List (Option String) := [none]
    let table : Config.RuleTable := ⟨[⟨.all, .unbounded⟩], []⟩
    let script : List Step := [⟨.openClient "c" "a/b" [⟨0, 1⟩] none, none, none⟩,
      ⟨.operate "c" (.sendMessage [7]), some "down", none⟩, ⟨.drain, none, none⟩,
      ⟨.operate "c" (.sendMessage [8]), none, some "full"⟩,
      ⟨.operate "c" (.sendMessage [9]), none, none⟩]
    let run := (start table (.writer ⟨[], answers, flushes⟩)).run script
    let run' := (start table (.memory [])).run script
    ((∀ a ∈ answers, a.Advances) ∧ ∀ f ∈ flushes, f = none) ∧
    drained script run'.1 = [sentOctet 7] ∧ run'.2.sink.entries = [sentOctet 9] ∧
    run.1.map Report.besidesSink = run'.1.map Report.besidesSink ∧
      run.2.sink.taken = stream (drained script run'.1 ++ run'.2.sink.entries) := by
  intro answers flushes table script run run'
  have hanswers : ∀ a ∈ answers, a.Advances := by simp [answers, WriteAnswer.Advances]
  have hflushes : ∀ f ∈ flushes, f = none := by simp [flushes]
  exact ⟨⟨hanswers, hflushes⟩, by decide +kernel, by decide +kernel,
    sinks_agree table answers flushes script hanswers hflushes⟩

end BinaryLog.Session
