import BinaryLog.Proofs.Interception.PassEnd
import BinaryLog.Proofs.Session.Plan
import Mathlib.Data.List.Forall2

/-!
# Alike plans

Steps of two sessions go alike if their plans are alike. `Plan.Alike R K`: the plans are answered
alike, `R` relates what levels log in one and in the other, one by one, and `K` the states in which
the calls are left.

* `steps_alike`: they go alike if no entry is refused in either.
* `steps_alike_of_eq`: or if both start with equal sinks and have the same to log.
-/

namespace BinaryLog.Session

/-- Two plans are alike (module doc). -/
inductive Plan.Alike (R : Entry → Entry → Prop) (K : Option CallState → Option CallState → Prop) :
    Plan → Plan → Prop
  | answer {outcome : Outcome} {next next' : Option CallState} :
      K next next' → Alike R K (.answer outcome next) (.answer outcome next')
  | note {what what' : Reached} {outcome : Outcome} {next next' : Option CallState} :
      K next next' → Alike R K (.note what outcome next) (.note what' outcome next')
  | pass {entries entries' : List Entry} {beyond beyond' : Reached}
      {outcome : Except Error Unit → Outcome}
      {next next' : Nat → Except Error Unit → Option CallState} :
      List.Forall₂ R entries entries' → (∀ n result, K (next n result) (next' n result)) →
      Alike R K (.pass entries beyond outcome next) (.pass entries' beyond' outcome next')

section
variable {R : Entry → Entry → Prop} {K : Option CallState → Option CallState → Prop} {p p' : Plan}
  {w w' w₁ w₁' : Surroundings} {outcome outcome' : Outcome} {next next' : Option CallState}

/-- Alike plans go alike if no entry is refused in either run. -/
theorem Plan.Alike.runs (h : Alike R K p p') (hr : p.Runs w outcome next w₁)
    (hr' : p'.Runs w' outcome' next' w₁') (hw : w.trace = []) (hw' : w'.trace = [])
    (hfault : w.callFault = w'.callFault) (hok : noneRefused w₁.trace)
    (hok' : noneRefused w₁'.trace) :
    outcome = outcome' ∧ K next next' ∧ List.Forall₂ R (handed w₁.trace) (handed w₁'.trace) := by
  cases h with
  | answer hK =>
    cases hr
    cases hr'
    rw [hw, hw']
    exact ⟨rfl, hK, .nil⟩
  | note hK =>
    cases hr
    cases hr'
    refine ⟨rfl, hK, ?_⟩
    simp only [Surroundings.note, hw, hw']
    exact .nil
  | pass hentries hK =>
    obtain ⟨n, result, hp, rfl, rfl⟩ := hr.of_pass
    obtain ⟨n', result', hp', rfl, rfl⟩ := hr'.of_pass
    obtain ⟨rfl, rfl, hhanded⟩ := hp.of_noneRefused hok
    obtain ⟨rfl, rfl, hhanded'⟩ := hp'.of_noneRefused hok'
    rw [hhanded, hhanded', hw, hw', hentries.length_eq, Surroundings.own_eq_of_callFault_eq hfault]
    exact ⟨rfl, hK _ _, hentries⟩

/-- Plans with the same to log go alike from the same surroundings, whatever is refused. -/
theorem Plan.Alike.runs_of_eq (h : Alike Eq K p p') (hr : p.Runs w outcome next w₁)
    (hr' : p'.Runs w outcome' next' w₁') (hw : w.trace = []) :
    outcome = outcome' ∧ K next next' ∧ handed w₁.trace = handed w₁'.trace ∧
      w₁.sink = w₁'.sink := by
  cases h with
  | answer hK =>
    cases hr
    cases hr'
    exact ⟨rfl, hK, rfl, rfl⟩
  | note hK =>
    cases hr
    cases hr'
    refine ⟨rfl, hK, ?_, rfl⟩
    simp only [Surroundings.note, hw]
    rfl
  | pass hentries hK =>
    rw [List.forall₂_eq_eq_eq] at hentries
    subst hentries
    obtain ⟨n, result, hp, rfl, rfl⟩ := hr.of_pass
    obtain ⟨n', result', hp', rfl, rfl⟩ := hr'.of_pass
    obtain ⟨rfl, rfl, hsink⟩ := hp.unique hp'
    exact ⟨rfl, hK _ _, by rw [hp.handed_eq, hp'.handed_eq], hsink⟩

end

/-! ## Steps of two sessions -/

section
variable {R : Entry → Entry → Prop} {K : Option CallState → Option CallState → Prop}
  {s s' : Session} {st st' : Step} {name : String}

/-- **Steps on a call go alike if their plans do** and no entry is refused in either. -/
theorem steps_alike (hs : s.Reachable) (hs' : s'.Reachable) (hcall : st.action.call = some name)
    (hcall' : st'.action.call = some name)
    (hplan : Plan.Alike R K (s.planOf name st) (s'.planOf name st'))
    (hfault : st.callFault = st'.callFault) (hok : noneRefused (s.step st).1.trace)
    (hok' : noneRefused (s'.step st').1.trace) :
    (s.step st).1.outcome = (s'.step st').1.outcome ∧
      K ((s.step st).2.calls.state name) ((s'.step st').2.calls.state name) ∧
      List.Forall₂ R (handed (s.step st).1.trace) (handed (s'.step st').1.trace) := by
  obtain ⟨w₁, hr, htrace, -⟩ := step_plan hcall hs.sound
  obtain ⟨w₁', hr', htrace', -⟩ := step_plan hcall' hs'.sound
  rw [htrace] at hok ⊢
  rw [htrace'] at hok' ⊢
  exact hplan.runs hr hr' rfl rfl hfault hok hok'

/-- Over equal sinks, steps on a call that have the same to log go alike, whatever is refused. -/
theorem steps_alike_of_eq (hs : s.Reachable) (hs' : s'.Reachable)
    (hcall : st.action.call = some name) (hcall' : st'.action.call = some name)
    (hplan : Plan.Alike Eq K (s.planOf name st) (s'.planOf name st'))
    (hsink : s.sink = s'.sink) (hfault : st.callFault = st'.callFault)
    (hsinkFault : st.sinkFault = st'.sinkFault) :
    (s.step st).1.outcome = (s'.step st').1.outcome ∧
      K ((s.step st).2.calls.state name) ((s'.step st').2.calls.state name) ∧
      handed (s.step st).1.trace = handed (s'.step st').1.trace ∧
      (s.step st).2.sink = (s'.step st').2.sink := by
  obtain ⟨w₁, hr, htrace, hsink₁⟩ := step_plan hcall hs.sound
  obtain ⟨w₁', hr', htrace', hsink₁'⟩ := step_plan hcall' hs'.sound
  have haround : s'.around st' = s.around st := by
    rw [around, around, hsink, hfault, hsinkFault]
  rw [haround] at hr'
  rw [htrace, htrace', hsink₁, hsink₁']
  exact hplan.runs_of_eq hr hr' rfl

end

end BinaryLog.Session
