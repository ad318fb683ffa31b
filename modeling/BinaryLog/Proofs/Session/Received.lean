import BinaryLog.Proofs.Session.AlikePlans

/-!
# What a sink in memory receives

A sink in memory receives what the steps of a script log, in order, whether it is drained in between
or not.

* `step_held`: a step adds to what the sink holds just what the sink takes during it.
* `received_eq`: so what was drained and what is left are together what the steps logged.
* `step_noneRefused`: a step that runs without a refusal somewhere runs without one over a sink in
  memory, if it has as much to log there.
-/

namespace BinaryLog.Session

section
variable {p p' : Plan} {w w' w₁ w₁' : Surroundings} {outcome outcome' : Outcome}
  {next next' : Option CallState} {held : List Entry} {R : Entry → Entry → Prop}
  {K : Option CallState → Option CallState → Prop}

theorem Plan.Runs.sink_eq (h : p.Runs w outcome next w₁) (hw : w.sink = .memory held)
    (htrace : w.trace = []) : w₁.sink = .memory (held ++ accepted w₁.trace) := by
  cases h with
  | answer =>
    rw [hw, htrace]
    exact congrArg Sink.memory (List.append_nil _).symm
  | note =>
    simp only [Surroundings.note, hw, htrace]
    exact congrArg Sink.memory (List.append_nil _).symm
  | pass hp =>
    obtain ⟨hsink, hlogged⟩ := hp.held hw
    rw [hsink, hlogged, htrace]
    rfl

/-- If a plan runs without a refusal, plans that are like it do so over a sink in memory. -/
theorem Plan.Alike.noneRefused_of_memory (h : Alike R K p p') (hr : p.Runs w outcome next w₁)
    (hok : noneRefused w₁.trace) (hr' : p'.Runs w' outcome' next' w₁') (hw' : w'.trace = [])
    (hmemory : w'.sink = .memory held) (hfault : w'.sinkFault = w.sinkFault) :
    noneRefused w₁'.trace := by
  cases h with
  | answer =>
    cases hr'
    rw [hw']
    rfl
  | note =>
    cases hr'
    simp only [Surroundings.note, hw']
    rfl
  | pass hentries =>
    obtain ⟨n, result, hp, -⟩ := hr.of_pass
    obtain ⟨n', result', hp', -⟩ := hr'.of_pass
    refine hp'.noneRefused_of_memory ⟨held, hmemory⟩ (by rw [hw']; rfl) ?_
    cases hentries with
    | nil => exact .inl rfl
    | cons => exact .inr (hfault.trans (hp.sinkFault_eq_none hok))

end

/-! ## Steps -/

/-- What the sink took in the steps that are reported. -/
def logOf (reports : List Report) : List Entry := reports.flatMap fun r => accepted r.trace

section
variable {s s' : Session} {st : Step} {name : String} {held : List Entry} {R : Entry → Entry → Prop}
  {K : Option CallState → Option CallState → Prop}

/-- **A step adds to a sink in memory what the sink takes during it**, and draining empties it. -/
theorem step_held (hs : s.Reachable) (hheld : s.sink = .memory held) :
    (s.step st).2.sink =
      .memory ((if st.action = .drain then [] else held) ++ accepted (s.step st).1.trace) := by
  cases hcall : st.action.call with
  | some name =>
    obtain ⟨w', hr, htrace, hsink⟩ := step_plan hcall hs.sound
    have hdrain : st.action ≠ .drain := by
      intro hdrain
      rw [hdrain] at hcall
      cases hcall
    rw [if_neg hdrain, htrace, hsink]
    exact hr.sink_eq hheld rfl
  | none =>
    obtain ⟨-, htrace, hsink⟩ := step_no_call s hcall
    have hnothing : accepted [] = [] := rfl
    rw [htrace, hsink, hheld, hnothing, List.append_nil]
    split <;> rfl

/-- A session over a sink in memory holds its entries there. -/
theorem exists_held (hs : s.Reachable) (hmemory : ∃ held, s.sink = .memory held)
    (script : List Step) : ∃ held, (s.run script).2.sink = .memory held := by
  induction script generalizing s with
  | nil => exact hmemory
  | cons st script ih =>
    obtain ⟨held, hheld⟩ := hmemory
    exact ih (hs.step st) ⟨_, step_held hs hheld⟩

/-- A step on a call that runs without a refusal does so in a session over a sink in memory in which
it has a plan that is like it. -/
theorem step_noneRefused (hs : s.Reachable) (hs' : s'.Reachable)
    (hcall : st.action.call = some name)
    (hplan : Plan.Alike R K (s.planOf name st) (s'.planOf name st)) (hheld : s'.sink = .memory held)
    (hok : noneRefused (s.step st).1.trace) : noneRefused (s'.step st).1.trace := by
  obtain ⟨w₁, hr, htrace, -⟩ := step_plan hcall hs.sound
  obtain ⟨w₁', hr', htrace', -⟩ := step_plan hcall hs'.sound
  rw [htrace] at hok
  rw [htrace']
  exact hplan.noneRefused_of_memory hr hok hr' rfl hheld rfl

/-- What a sink in memory receives while a script runs: what is drained from it and what it holds in
the end. -/
def received (s : Session) : List Step → List Entry
  | [] => s.sink.entries
  | st :: script =>
    (if st.action = .drain then s.sink.entries else []) ++ received (s.step st).2 script

/-- **A sink in memory receives what the steps log**, in order. -/
theorem received_eq (hs : s.Reachable) (hheld : s.sink = .memory held) (script : List Step) :
    s.received script = held ++ logOf (s.run script).1 := by
  induction script generalizing s held with
  | nil =>
    rw [received, hheld]
    exact (List.append_nil _).symm
  | cons st script ih =>
    have hrest := ih (hs.step st) (step_held hs hheld)
    rw [received, hrest, hheld]
    show _ = held ++ (accepted (s.step st).1.trace ++ logOf ((s.step st).2.run script).1)
    split
    · rw [List.nil_append]
      rfl
    · rw [List.nil_append, List.append_assoc]

end

end BinaryLog.Session
