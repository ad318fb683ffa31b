import BinaryLog.Proofs.Session.Paired

/-!
# Sessions in step

Two sessions run scripts of alike steps under rules that may differ. `InStep methods script s s'`:
after `script`, each call that it last opens for one of `methods` is in the same state in both,
within the limits of the rules of each.

* `InStep.plan_alike`: then alike steps on such a call have alike plans.
* `InStep.step`: they keep the sessions in step if no entry is refused, and log related entries.
* `InStep.step_of_sink_eq`: so they do over equal sinks, whatever is refused, if they log the same.
-/

namespace BinaryLog.Session

/-- The limits of the rule for the method of a call, as a script last opens it. -/
def limitsOf (table : Config.RuleTable) (name : String) (script : List Step) : Option Limits :=
  (lastOpening name script).bind fun opened => table.lookup opened.1

/-- The method of the call that a step is about, as it or the script before it last opens it. -/
def methodAt (before : List Step) (st : Step) : Option String :=
  st.action.call.bind fun name => (lastOpening name (before ++ [st])).map Prod.fst

/-- If a script opens a call of this name, it last does so for one of certain methods. -/
def OpenedFor (methods : String → Prop) (name : String) (script : List Step) : Prop :=
  ∀ opened ∈ lastOpening name script, methods opened.1

/-- Taps of a call in two sessions, within the limits of the rules of each. -/
def TapsAt (name : String) (script : List Step) (s s' : Session) : Tap → Tap → Prop :=
  Tap.Paired (limitsOf s.table name script) (limitsOf s'.table name script)

/-- After a script two sessions have a call in the same state, or neither has one. -/
def PairedAt (name : String) (script : List Step) (s s' : Session) : Prop :=
  Option.Rel (CallState.Paired (TapsAt name script s s')) (s.calls.state name) (s'.calls.state name)

/-- After a script two sessions have the calls for certain methods in the same states. -/
def InStep (methods : String → Prop) (script : List Step) (s s' : Session) : Prop :=
  ∀ name, OpenedFor methods name script → PairedAt name script s s'

variable {M : Metadata → Metadata → Prop} {B : Bytes → Bytes → Prop} {R : Entry → Entry → Prop}
  {methods : String → Prop} {before : List Step} {s s' : Session} {st st' : Step} {name : String}

theorem InStep.start (methods : String → Prop) (table table' : Config.RuleTable)
    (sink sink' : Sink) : InStep methods [] (start table sink) (start table' sink') :=
  fun _ _ => .none

theorem lastOpening_of_call_ne (h : st.action.call ≠ some name) :
    lastOpening name (before ++ [st]) = lastOpening name before := by
  rw [lastOpening_append, Action.opening_eq_none h, Option.none_or]

/-- What the levels of a call record of alike events in a step of two sessions is related. -/
def RecordedAt (M : Metadata → Metadata → Prop) (B : Bytes → Bytes → Prop)
    (R : Entry → Entry → Prop) (name : String) (script : List Step) (s s' : Session) : Prop :=
  Recorded (TapsAt name script s s') M B R

/-- Sessions that are in step have alike plans for alike actions. -/
theorem InStep.plan_alike (h : InStep methods before s s') (hcall : st.action.call = some name)
    (hfor : OpenedFor methods name (before ++ [st]))
    (hrules : ∀ method, methods method →
      (s.table.lookup method).isSome = (s'.table.lookup method).isSome)
    (ha : st.action.Alike M B st'.action)
    (hrec : RecordedAt M B R name (before ++ [st]) s s') :
    Plan.Alike R (Option.Rel (CallState.Paired (TapsAt name (before ++ [st]) s s')))
      (s.planOf name st) (s'.planOf name st') := by
  have hlast := lastOpening_append name before st
  refine ha.plan_alike hrec hcall (fun method ids hopen => ?_) fun hopen => ?_
  · rw [hopen, Option.some_or] at hlast
    rw [TapsAt, limitsOf, limitsOf, hlast]
    exact Config.RuleTable.taps_paired (hrules method (hfor _ hlast)) ids
  · rw [hopen, Option.none_or] at hlast
    rw [OpenedFor, hlast] at hfor
    rw [TapsAt, limitsOf, limitsOf, hlast]
    exact h name hfor

/-- Sessions stay in step if the call that a step is about does. -/
theorem InStep.next (h : InStep methods before s s') (hs : s.Reachable) (hs' : s'.Reachable)
    (hcall : st.action.call = st'.action.call)
    (hnext : ∀ name, st.action.call = some name → OpenedFor methods name (before ++ [st]) →
      PairedAt name (before ++ [st]) (s.step st).2 (s'.step st').2) :
    InStep methods (before ++ [st]) (s.step st).2 (s'.step st').2 := by
  intro name hfor
  -- of the other calls, neither the state nor the last opening changes
  by_cases habout : st.action.call = some name
  · exact hnext name habout hfor
  · have hlast : lastOpening name (before ++ [st]) = lastOpening name before :=
      lastOpening_of_call_ne habout
    rw [OpenedFor, hlast] at hfor
    rw [PairedAt, TapsAt, limitsOf, limitsOf, hlast, step_other_state hs.sound habout,
      step_other_state hs'.sound (hcall ▸ habout)]
    exact h name hfor

/-- **Sessions stay in step when no entry is refused**, and log related entries for the calls that
are in step. -/
theorem InStep.step (h : InStep methods before s s') (hs : s.Reachable) (hs' : s'.Reachable)
    (hrules : ∀ method, methods method →
      (s.table.lookup method).isSome = (s'.table.lookup method).isSome)
    (ha : st.action.Alike M B st'.action) (hfault : st.callFault = st'.callFault)
    (hrec : ∀ name, st.action.call = some name → OpenedFor methods name (before ++ [st]) →
      RecordedAt M B R name (before ++ [st]) s s')
    (hok : noneRefused (s.step st).1.trace) (hok' : noneRefused (s'.step st').1.trace) :
    InStep methods (before ++ [st]) (s.step st).2 (s'.step st').2 ∧
      ∀ name, st.action.call = some name → OpenedFor methods name (before ++ [st]) →
        List.Forall₂ R (handed (s.step st).1.trace) (handed (s'.step st').1.trace) := by
  have hboth : ∀ name, st.action.call = some name → OpenedFor methods name (before ++ [st]) →
      PairedAt name (before ++ [st]) (s.step st).2 (s'.step st').2 ∧
        List.Forall₂ R (handed (s.step st).1.trace) (handed (s'.step st').1.trace) := by
    intro name hcall hfor
    have hplan := h.plan_alike hcall hfor hrules ha (hrec name hcall hfor)
    exact (steps_alike hs hs' hcall (ha.call_eq ▸ hcall) hplan hfault hok hok').2
  exact ⟨h.next hs hs' ha.call_eq fun name hcall hfor => (hboth name hcall hfor).1,
    fun name hcall hfor => (hboth name hcall hfor).2⟩

/-- Over equal sinks and under the same rules, sessions that log the same stay in step whatever is
refused. -/
theorem InStep.step_of_sink_eq (h : InStep (fun _ => True) before s s') (hs : s.Reachable)
    (hs' : s'.Reachable) (htable : s.table = s'.table) (hsink : s.sink = s'.sink)
    (ha : st.action.Alike M B st'.action) (hfault : st.callFault = st'.callFault)
    (hsinkFault : st.sinkFault = st'.sinkFault)
    (hrec : ∀ name, st.action.call = some name →
      RecordedAt M B Eq name (before ++ [st]) s s') :
    InStep (fun _ => True) (before ++ [st]) (s.step st).2 (s'.step st').2 ∧
      handed (s.step st).1.trace = handed (s'.step st').1.trace ∧
      (s.step st).2.sink = (s'.step st').2.sink := by
  cases hcall : st.action.call with
  | some name =>
    have hcall' : st'.action.call = some name := ha.call_eq ▸ hcall
    have hplan := h.plan_alike hcall (fun _ _ => trivial) (fun _ _ => by rw [htable]) ha
      (hrec name hcall)
    obtain ⟨-, hpaired, hhanded, hsinks⟩ :=
      steps_alike_of_eq hs hs' hcall hcall' hplan hsink hfault hsinkFault
    refine ⟨h.next hs hs' ha.call_eq fun other hother _ => ?_, hhanded, hsinks⟩
    rw [hcall] at hother
    cases hother
    exact hpaired
  | none =>
    -- alike actions on no call are the same, and hand over nothing
    have hcall' : st'.action.call = none := ha.call_eq ▸ hcall
    have hsame : st.action = st'.action := by
      rcases ha.cases with ⟨_, _, _, _, _, _, heq, -⟩ | ⟨_, _, _, heq, -⟩ | hsame
      · rw [heq] at hcall
        cases hcall
      · rw [heq] at hcall
        cases hcall
      · exact hsame
    obtain ⟨-, htrace, hsinks⟩ := step_no_call s hcall
    obtain ⟨-, htrace', hsinks'⟩ := step_no_call s' hcall'
    refine ⟨h.next hs hs' ha.call_eq fun other hother _ => ?_, by rw [htrace, htrace'], ?_⟩
    · rw [hcall] at hother
      cases hother
    · rw [hsinks, hsinks', hsink, hsame]

end BinaryLog.Session
