import BinaryLog.Proofs.Session.Opening

/-!
# The attributes of the calls

Each call of a session has attributes of its own: all its handles are onto one cell of the store,
wherever they are held, and no other call has a handle onto it. Calls can come to disturb each other
only through the store, so none does.

* `Calls.Sound`: the invariant, which an action keeps (`sound_perform`).
* `Calls.state`: a call by its name, with what its attributes hold.
* `perform_other_state`: an action leaves the states of the other calls alone.
* `Reachable.sound`: the invariant holds in a session that has run a script.
-/

namespace BinaryLog

/-- **Each call has attributes of its own**: all its handles are onto the same
(`Reachable.aliased`), which are there, and other calls have others. -/
structure Calls.Sound (calls : Calls) : Prop where
  reachable : ∀ {name c}, calls name = some c → ∃ stack, c.Reachable stack
  has : ∀ {name c}, calls name = some c → calls.attributes.Has c.attributes
  apart : ∀ {name name' c c'}, calls name = some c → calls name' = some c' → name ≠ name' →
    c.attributes ≠ c'.attributes

theorem Calls.Sound.aliased {calls : Calls} (h : calls.Sound) {name : String} {c : Call}
    (hc : calls name = some c) : c.Aliased := by
  obtain ⟨stack, hr⟩ := h.reachable hc
  exact hr.aliased

theorem Calls.sound_none : Calls.none.Sound := ⟨nofun, nofun, nofun⟩

/-- A call with what its attributes hold. -/
structure CallState where
  call : Call
  attributes : Attributes

/-- The state of the call of a name. -/
def Calls.state (calls : Calls) (name : String) : Option CallState :=
  (calls name).map fun c => ⟨c, calls.attributes.get c.attributes⟩

namespace Session

/-- The call that an action is about. -/
def Action.call : Action → Option String
  | openClient name _ _ _ | openServer name _ _ _ _ | operate name _ | peer name | setPeer name _ _
  | isCancelled name | setCancelled name | methodName name => some name
  | resolve _ | entries | drain => none

theorem Action.call_of_opening {a : Action} {name : String} {opened : String × List CallId}
    (h : a.opening name = some opened) : a.call = some name := by
  cases a <;> simp [opening, call] at h ⊢ <;> exact h.1

theorem Action.opening_eq_none {a : Action} {name : String} (h : a.call ≠ some name) :
    a.opening name = none := by
  cases hopen : a.opening name with
  | none => rfl
  | some opened => exact absurd (call_of_opening hopen) h

/-- What an action makes of the attributes of the calls: it creates some for the call that it opens,
or records an address through a handle of the call that it is about. -/
def Action.attributesAfter (calls : Calls) : Action → AttributeStore
  | openClient _ _ _ remote | openServer _ _ _ remote _ => (calls.attributes.create ⟨remote⟩).2
  | setPeer name holder address =>
    match calls name with
    | some c => (calls.attributes.record (c.handle holder) address).2
    | none => calls.attributes
  | _ => calls.attributes

section
variable {table : Config.RuleTable} {calls : Calls} {w : Surroundings} {a : Action} {name : String}

/-! ## The store -/

theorem perform_attributes (table : Config.RuleTable) (calls : Calls) (w : Surroundings)
    (a : Action) : (perform table calls w a).2.1.attributes = a.attributesAfter calls := by
  cases a with
  | openClient | resolve | entries | drain => rfl
  | openServer =>
    simp only [perform]
    split <;> rfl
  | setPeer name =>
    simp only [perform, Action.attributesAfter]
    cases calls name <;> rfl
  | operate | peer | isCancelled | setCancelled | methodName =>
    rw [perform]
    split <;> rfl

theorem has_attributesAfter {h : AttributeHandle} (hh : calls.attributes.Has h) (a : Action) :
    (a.attributesAfter calls).Has h := by
  unfold Action.attributesAfter
  split
  · exact hh.create _
  · exact hh.create _
  · split
    · exact hh.record _ _
    · exact hh
  · exact hh

theorem has_fresh_of_opening {opened : String × List CallId} (ha : a.opening name = some opened) :
    (a.attributesAfter calls).Has calls.attributes.fresh := by
  cases a with
  | openClient | openServer => exact calls.attributes.has_fresh _
  | operate | peer | setPeer | isCancelled | setCancelled | methodName | resolve | entries
    | drain => cases ha

/-- What the attributes of a call hold does not change by actions on other calls. -/
theorem get_attributesAfter (hs : calls.Sound) {c : Call} (hc : calls name = some c)
    (ha : a.call ≠ some name) :
    (a.attributesAfter calls).get c.attributes = calls.attributes.get c.attributes := by
  have hhas := hs.has hc
  cases a with
  | openClient | openServer => exact AttributeStore.get_create_of_has hhas _
  | setPeer other holder address =>
    have hother : other ≠ name := fun heq => ha (congrArg some heq)
    cases hc₀ : calls other with
    | none => simp only [Action.attributesAfter, hc₀]
    | some c₀ =>
      have hne : c.attributes ≠ c₀.attributes := hs.apart hc hc₀ hother.symm
      simp only [Action.attributesAfter, hc₀, (hs.aliased hc₀).handle_eq holder]
      rw [AttributeStore.get_record (hs.has hc₀), if_neg hne]
  | operate | peer | isCancelled | setCancelled | methodName | resolve | entries | drain => rfl

/-! ## The invariant -/

/-- A call has new attributes if an action opens it, and else those that it had. -/
theorem perform_call_attributes {c : Call} (h : (perform table calls w a).2.1 name = some c) :
    (∃ opened, a.opening name = some opened ∧ c.attributes = calls.attributes.fresh) ∨
      ∃ c₀, calls name = some c₀ ∧ c.attributes = c₀.attributes := by
  rcases perform_calls h with ⟨method, ids, hopen, -, hfresh, -⟩ | ⟨-, c₀, hc₀, hfollows⟩
  · exact .inl ⟨_, hopen, hfresh⟩
  · exact .inr ⟨c₀, hc₀, hfollows.attributes⟩

/-- **An action leaves each call with attributes of its own.** -/
theorem sound_perform (hs : calls.Sound) (table : Config.RuleTable) (w : Surroundings)
    (a : Action) : (perform table calls w a).2.1.Sound where
  reachable h := by
    rcases perform_calls h with ⟨method, ids, -, -, -, hr⟩ | ⟨-, c₀, hc₀, hfollows⟩
    · exact ⟨_, hr⟩
    · obtain ⟨stack, hr⟩ := hs.reachable hc₀
      exact ⟨stack, hfollows.reachable stack hr⟩
  has h := by
    rw [perform_attributes]
    rcases perform_call_attributes h with ⟨opened, hopen, heq⟩ | ⟨c₀, hc₀, heq⟩ <;> rw [heq]
    · exact has_fresh_of_opening hopen
    · exact has_attributesAfter (hs.has hc₀) a
  apart h h' hne := by
    rcases perform_call_attributes h with ⟨opened, hopen, heq⟩ | ⟨c₀, hc₀, heq⟩ <;>
      rcases perform_call_attributes h' with ⟨opened', hopen', heq'⟩ | ⟨c₀', hc₀', heq'⟩ <;>
      rw [heq, heq']
    · -- an action opens one call
      have hsame := (Action.call_of_opening hopen).symm.trans (Action.call_of_opening hopen')
      exact absurd (Option.some.inj hsame) hne
    · exact (hs.has hc₀').ne_fresh.symm
    · exact (hs.has hc₀).ne_fresh
    · exact hs.apart hc₀ hc₀' hne

/-! ## States -/

/-- An action on a call leaves the other calls alone. -/
theorem perform_other_call (w : Surroundings) (ha : a.call ≠ some name) :
    (perform table calls w a).2.1 name = calls name := by
  have hother : ∀ {calls' : Calls} {other call}, some other ≠ some name →
      calls'.set other call name = calls' name :=
    fun h => if_neg fun heq => h (congrArg some heq.symm)
  cases a with
  | resolve | entries | drain => rfl
  | openClient => exact hother ha
  | openServer =>
    simp only [perform]
    split <;> exact hother ha
  | operate | peer | setPeer | isCancelled | setCancelled | methodName =>
    rw [perform]
    split <;> first | rfl | exact hother ha

/-- **An action on a call leaves the states of the other calls alone**, and with them what their
attributes hold. -/
theorem perform_other_state (hs : calls.Sound) (w : Surroundings) (ha : a.call ≠ some name) :
    (perform table calls w a).2.1.state name = calls.state name := by
  rw [Calls.state, Calls.state, perform_other_call w ha, perform_attributes]
  cases hc : calls name with
  | none => rfl
  | some c => rw [Option.map_some, Option.map_some, get_attributesAfter hs hc ha]

end

/-! ## Runs -/

/-- A session that has run a script. -/
def Reachable (s : Session) : Prop := ∃ sink script, s = ((start s.table sink).run script).2

theorem Reachable.of_run (table : Config.RuleTable) (sink : Sink) (script : List Step) :
    ((start table sink).run script).2.Reachable :=
  ⟨sink, script, by rw [run_table]; rfl⟩

theorem Reachable.step {s : Session} (h : s.Reachable) (st : Step) : (s.step st).2.Reachable := by
  obtain ⟨sink, script, hs⟩ := h
  refine ⟨sink, script ++ [st], ?_⟩
  rw [run_append, show (s.step st).2.table = s.table from rfl, ← hs]
  rfl

theorem Reachable.run {s : Session} (h : s.Reachable) (script : List Step) :
    (s.run script).2.Reachable := by
  induction script generalizing s with
  | nil => exact h
  | cons st script ih => exact ih (h.step st)

theorem sound_step {s : Session} (h : s.calls.Sound) (st : Step) : (s.step st).2.calls.Sound :=
  sound_perform h s.table _ st.action

theorem sound_run {s : Session} (h : s.calls.Sound) (script : List Step) :
    (s.run script).2.calls.Sound := by
  induction script generalizing s with
  | nil => exact h
  | cons st script ih => exact ih (sound_step h st)

/-- **In a session that has run a script each call has attributes of its own.** -/
theorem Reachable.sound {s : Session} (h : s.Reachable) : s.calls.Sound := by
  obtain ⟨sink, script, hs⟩ := h
  rw [hs]
  exact sound_run Calls.sound_none script

section
variable {s : Session} {st : Step} {name : String}

theorem step_attributes (s : Session) (st : Step) :
    (s.step st).2.calls.attributes = st.action.attributesAfter s.calls := perform_attributes ..

theorem step_other_call (hcall : st.action.call ≠ some name) :
    (s.step st).2.calls name = s.calls name := perform_other_call _ hcall

theorem step_other_state (hs : s.calls.Sound) (hcall : st.action.call ≠ some name) :
    (s.step st).2.calls.state name = s.calls.state name := perform_other_state hs _ hcall

end

end Session

end BinaryLog
