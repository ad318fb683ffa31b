import BinaryLog.Proofs.Session.Entries
import BinaryLog.Proofs.Session.Handles

/-!
# What an action on a call amounts to

An action on a call sees the rule table and the state of that call, and nothing else of the session
(`Action.plan`): it is answered at once, or it passes levels that have entries to log and is
answered by what comes of that. Two sessions are compared by comparing the plans of their steps.

* `perform_plan`: an action on a call runs its plan.
* `step_plan`: so a step does, in a session whose calls have attributes of their own.
* `step_operate`: a step that is an operation on a call.
* `step_no_call`: what a step leaves alone that is about no call.
-/

namespace BinaryLog

/-! ## Calls -/

/-- The taps on a call, outermost first. -/
def Call.stack : Call → List Tap
  | client c => c.taps
  | server c => c.listenerTaps

theorem Call.Stacked.stack_eq {c : Call} {stack : List Tap} (h : c.Stacked stack) :
    c.stack = stack := by
  cases c with
  | client c => exact h.1
  | server c => exact h.2

theorem Calls.Sound.stacked {calls : Calls} (h : calls.Sound) {name : String} {c : Call}
    (hc : calls name = some c) : c.Stacked c.stack := by
  obtain ⟨stack, hr⟩ := h.reachable hc
  rw [hr.stacked.stack_eq]
  exact hr.stacked

namespace Calls

variable {calls : Calls} {name : String} {c : Call}

theorem state_of_some (hc : calls name = some c) :
    calls.state name = some ⟨c, calls.attributes.get c.attributes⟩ := by
  rw [state, hc, Option.map_some]

theorem state_of_none (hc : calls name = none) : calls.state name = none := by
  rw [state, hc, Option.map_none]

theorem call_of_state (calls : Calls) (name : String) :
    (calls.state name).map CallState.call = calls name := by
  rw [state, Option.map_map]
  exact congrFun Option.map_id _

theorem of_state {σ : CallState} (h : calls.state name = some σ) :
    calls name = some σ.call ∧ σ.attributes = calls.attributes.get σ.call.attributes := by
  obtain ⟨c, hc, rfl⟩ := Option.map_eq_some_iff.1 h
  exact ⟨hc, rfl⟩

theorem state_set (calls : Calls) (name : String) (call : Option Call) :
    (calls.set name call).state name =
      call.map fun c => ⟨c, calls.attributes.get c.attributes⟩ := by
  rw [state, Session.Calls.set_apply, if_pos rfl]
  rfl

/-- A call that is opened sees the address that is known then. -/
theorem state_opened (calls : Calls) (name : String) (remote : Option PeerAddress)
    (hc : c.attributes = calls.attributes.fresh) :
    ((calls.create remote).2.set name (some c)).state name = some ⟨c, ⟨remote⟩⟩ := by
  have hremote : (calls.create remote).2.attributes.get c.attributes = ⟨remote⟩ := by
    show (calls.attributes.create ⟨remote⟩).2.get c.attributes = _
    rw [AttributeStore.get_create, if_pos hc]
  rw [state_set, Option.map_some, hremote]

/-- What is recorded for a call is seen by this call. -/
theorem state_record (hs : calls.Sound) (hc : calls name = some c) (address : PeerAddress) :
    state { calls with attributes := (calls.attributes.record c.attributes address).2 } name =
      some ⟨c, ((calls.attributes.get c.attributes).record address).2⟩ := by
  have hseen := AttributeStore.get_record (hs.has hc) address c.attributes
  rw [if_pos rfl] at hseen
  rw [← hseen]
  exact state_of_some hc

end Calls

namespace Session

theorem Action.call_of_event {a : Action} {name : String} {event : EventKind × Content}
    (h : a.event = some (name, event)) : a.call = some name := by
  cases a with
  | openServer =>
    cases h
    rfl
  | operate call op =>
    obtain ⟨_, -, heq⟩ := Option.map_eq_some_iff.1 h
    cases heq
    rfl
  | openClient | peer | setPeer | isCancelled | setCancelled | methodName | resolve | entries
    | drain => cases h

/-! ## Plans -/

/-- What an action on a call amounts to. -/
inductive Plan where
  /-- It is answered at once and leaves the call in a state. -/
  | answer (outcome : Outcome) (next : Option CallState)
  /-- The same, after a party was reached that does not fail. -/
  | note (what : Reached) (outcome : Outcome) (next : Option CallState)
  /-- Levels log entries, and then a party beyond is reached. The result of that decides on the
  outcome and, with the number of writes that return ok, on the state of the call. -/
  | pass (entries : List Entry) (beyond : Reached) (outcome : Except Error Unit → Outcome)
      (next : Nat → Except Error Unit → Option CallState)

/-- What an action on a call amounts to when the call is in a state; a call that is opened gets the
handle `fresh`. Nothing is said of actions that are about no call. -/
def Action.plan (table : Config.RuleTable) (fresh : AttributeHandle) (state : Option CallState) :
    Action → Plan
  | .openClient _ method ids remote =>
    .note (.newCall method) (.answered (.opened ((table.taps method ids).head?.map Tap.id)))
      (some ⟨.client (.opened (table.taps method ids) fresh), ⟨remote⟩⟩)
  | .openServer _ method ids remote headers =>
    .pass ((table.taps method ids).map
        (·.entry .server (.receivedHeaders headers (Attributes.mk remote).peer)))
      (.startCall headers)
      (fun result => match result with
        | .ok () => .answered (.opened ((table.taps method ids).head?.map Tap.id))
        | .error e => .failed e)
      (fun _ result => match result with
        | .ok () => some ⟨.server ⟨method, fresh, fresh, false, (table.taps method ids).reverse,
            table.taps method ids⟩, ⟨remote⟩⟩
        | .error _ => none)
  | .operate _ op =>
    match state with
    | none => .answer .skipped none
    | some σ =>
      match σ.call.toLog σ.attributes σ.call.stack op with
      | none => .answer .skipped (some σ)
      | some logs => .pass logs (.operation op) .ofResult fun n result =>
          some { σ with call := σ.call.after op n result }
  | .peer _ =>
    match state with
    | some σ => .answer (.answered (.address σ.attributes.peer)) (some σ)
    | none => .answer .skipped none
  | .setPeer _ _ address =>
    match state with
    | some σ => .answer (.answered (.flag (σ.attributes.record address).1))
        (some { σ with attributes := (σ.attributes.record address).2 })
    | none => .answer .skipped none
  | .isCancelled _ =>
    match state with
    | some ⟨.server c, attrs⟩ => .answer (.answered (.flag c.cancelled)) (some ⟨.server c, attrs⟩)
    | state => .answer .skipped state
  | .setCancelled _ =>
    match state with
    | some ⟨.server c, attrs⟩ =>
      .answer (.answered .done) (some ⟨.server { c with cancelled := true }, attrs⟩)
    | state => .answer .skipped state
  | .methodName _ =>
    match state with
    | some ⟨.server c, attrs⟩ => .answer (.answered (.name c.methodName)) (some ⟨.server c, attrs⟩)
    | state => .answer .skipped state
  | .resolve _ | .entries | .drain => .answer .skipped state

/-- Running a plan gives an outcome, a state of the call and the surroundings afterwards. -/
inductive Plan.Runs (w : Surroundings) : Plan → Outcome → Option CallState → Surroundings → Prop
  | answer {outcome : Outcome} {next : Option CallState} :
      Runs w (.answer outcome next) outcome next w
  | note {what : Reached} {outcome : Outcome} {next : Option CallState} :
      Runs w (.note what outcome next) outcome next (w.note what)
  | pass {entries : List Entry} {beyond : Reached} {outcome : Except Error Unit → Outcome}
      {next : Nat → Except Error Unit → Option CallState} {n : Nat} {result : Except Error Unit}
      {w' : Surroundings} :
      Pass entries beyond w n result w' →
      Runs w (.pass entries beyond outcome next) (outcome result) (next n result) w'

theorem Plan.Runs.of_answer {w w' : Surroundings} {outcome outcome' : Outcome}
    {next next' : Option CallState} (h : Runs w (.answer outcome next) outcome' next' w') :
    outcome' = outcome ∧ next' = next ∧ w' = w := by
  cases h
  exact ⟨rfl, rfl, rfl⟩

theorem Plan.Runs.of_pass {w w' : Surroundings} {entries : List Entry} {beyond : Reached}
    {outcome : Except Error Unit → Outcome} {next : Nat → Except Error Unit → Option CallState}
    {outcome' : Outcome} {next' : Option CallState}
    (h : Runs w (.pass entries beyond outcome next) outcome' next' w') :
    ∃ n result, Pass entries beyond w n result w' ∧ outcome' = outcome result ∧
      next' = next n result := by
  cases h with
  | pass hp => exact ⟨_, _, hp, rfl, rfl⟩

theorem set_self (calls : Calls) (name : String) : calls.set name (calls name) = calls := by
  ext1
  · funext other
    rw [Calls.set_apply]
    split
    · rw [‹other = name›]
    · rfl
  · rfl

section
variable {table : Config.RuleTable} {calls : Calls} {a : Action} {name : String}

/-- **An action on a call runs its plan.** -/
theorem perform_plan (table : Config.RuleTable) (w : Surroundings) (ha : a.call = some name)
    (hs : calls.Sound) :
    let p := perform table calls w a
    (a.plan table calls.attributes.fresh (calls.state name)).Runs w p.1 (p.2.1.state name)
      p.2.2 := by
  intro p
  cases a with
  | openClient _ method ids remote =>
    cases ha
    have hstate : p.2.1.state name = _ := calls.state_opened name remote rfl
    rw [hstate]
    exact .note
  | openServer _ method ids remote headers =>
    cases ha
    obtain ⟨n, result, w', hp, heq⟩ :=
      perform_openServer table calls w name method ids remote headers
    simp only [p, heq]
    cases result with
    | ok =>
      rw [Calls.state_opened _ _ _ rfl]
      exact .pass hp
    | error e =>
      rw [Calls.state_set]
      exact .pass hp
  | operate _ op =>
    cases ha
    cases hc : calls name with
    | none =>
      simp only [p, perform_operate_skipped (by simp [hc] : ∀ c, calls name = some c → _),
        Calls.state_of_none hc]
      exact .answer
    | some c =>
      have hstate := Calls.state_of_some hc
      cases hlog : c.toLog (calls.attributes.get c.attributes) c.stack op with
      | none =>
        have hskip : p = (.skipped, calls, w) :=
          perform_operate_skipped (by simpa [hc] using ⟨_, _, hlog⟩)
        simp only [hskip, hstate, Action.plan, hlog]
        exact .answer
      | some logs =>
        obtain ⟨n, result, w', hp, heq⟩ :=
          perform_operate table w hc (hs.stacked hc) (hs.aliased hc) hlog
        simp only [p, heq, hstate, Action.plan, hlog, Calls.state_set, Option.map_some,
          Call.attributes_after]
        exact .pass hp
  | setPeer _ holder address =>
    cases ha
    cases hc : calls name with
    | none =>
      have hskip : p = (.skipped, calls, w) := by simp [p, perform, hc]
      rw [hskip, Calls.state_of_none hc]
      exact .answer
    | some c =>
      have hrecord : p = (.answered (.flag (calls.attributes.record c.attributes address).1),
          { calls with attributes := (calls.attributes.record c.attributes address).2 }, w) := by
        simp only [p, perform, hc, (hs.aliased hc).handle_eq holder]
      rw [hrecord, Calls.state_of_some hc, Calls.state_record hs hc]
      exact .answer
  | peer _ =>
    cases ha
    cases hc : calls name with
    | none => simpa [p, perform, hc, Calls.state_of_none hc] using .answer
    | some c =>
      simpa [p, perform, hc, Calls.state_of_some hc, (hs.aliased hc).handle_eq] using .answer
  | isCancelled | setCancelled | methodName =>
    cases ha
    rcases hc : calls name with _ | c | c
    · simpa [p, perform, hc, Calls.state_of_none hc] using .answer
    · simpa [p, perform, hc, Calls.state_of_some hc] using .answer
    · simpa [p, perform, hc, Calls.state_of_some hc, Calls.state_set] using .answer
  | resolve | entries | drain => cases ha

/-- An action that is about no call looks at the rules or at the sink, which it may drain. -/
theorem perform_no_call (table : Config.RuleTable) (calls : Calls) (w : Surroundings)
    (ha : a.call = none) :
    (perform table calls w a).2.1 = calls ∧ (perform table calls w a).2.2.trace = w.trace ∧
      (perform table calls w a).2.2.sink = if a = .drain then w.sink.drain.2 else w.sink := by
  cases a with
  | resolve | entries | drain => exact ⟨rfl, rfl, rfl⟩
  | openClient | openServer | operate | peer | setPeer | isCancelled | setCancelled
    | methodName => cases ha

end

/-! ## Steps -/

/-- The surroundings in which a session performs a step. -/
def around (s : Session) (st : Step) : Surroundings := ⟨s.sink, st.sinkFault, st.callFault, []⟩

/-- What a step of a session amounts to if it is about the call of a name. -/
def planOf (s : Session) (name : String) (st : Step) : Plan :=
  st.action.plan s.table s.calls.attributes.fresh (s.calls.state name)

section
variable {s : Session} {st : Step} {name : String}

/-- **A step on a call runs the plan of its action.** -/
theorem step_plan (hcall : st.action.call = some name) (hs : s.calls.Sound) :
    ∃ w', (s.planOf name st).Runs (s.around st) (s.step st).1.outcome
        ((s.step st).2.calls.state name) w' ∧
      (s.step st).1.trace = w'.trace ∧ (s.step st).2.sink = w'.sink :=
  ⟨_, perform_plan s.table (s.around st) hcall hs, rfl, rfl⟩

/-- A step that is an operation on a call is a pass over the levels of its stack. -/
theorem step_operate (hs : s.calls.Sound) {op : Operation} {c : Call} {logs : List Entry}
    (ha : st.action = .operate name op) (hc : s.calls name = some c)
    (hlog : c.toLog (s.calls.attributes.get c.attributes) c.stack op = some logs) :
    ∃ n result w', Pass logs (.operation op) (s.around st) n result w' ∧
      s.step st = (⟨.ofResult result, w'.trace⟩,
        { s with sink := w'.sink, calls := s.calls.set name (some (c.after op n result)) }) := by
  obtain ⟨n, result, w', hp, heq⟩ :=
    perform_operate s.table (s.around st) hc (hs.stacked hc) (hs.aliased hc) hlog
  refine ⟨n, result, w', hp, ?_⟩
  rw [around] at heq
  simp only [step, ha, heq]

theorem mem_zip_run {script : List Step} {r : Report} (h : (st, r) ∈ script.zip (s.run script).1) :
    ∃ before after, script = before ++ st :: after ∧ r = ((s.run before).2.step st).1 := by
  induction script generalizing s with
  | nil => cases h
  | cons first script ih =>
    rcases List.mem_cons.1 h with heq | hmem
    · cases heq
      exact ⟨[], script, rfl, rfl⟩
    · obtain ⟨before, after, rfl, hr⟩ := ih hmem
      exact ⟨first :: before, after, rfl, hr⟩

theorem step_no_call (s : Session) (hcall : st.action.call = none) :
    (s.step st).2.calls = s.calls ∧ (s.step st).1.trace = [] ∧
      (s.step st).2.sink = if st.action = .drain then s.sink.drain.2 else s.sink :=
  perform_no_call s.table s.calls (s.around st) hcall

end

end Session

end BinaryLog
