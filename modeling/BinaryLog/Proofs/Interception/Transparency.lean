import BinaryLog.Proofs.Session.Handles

/-!
# Interception is transparent

A session beside the same session under a table that logs nothing. `Call.bare` is a call without its
levels, and `Beside` says that the second session has the calls of the first one bare, with the same
attributes. As long as the sink takes every entry, a step keeps this, and the two sessions answer
alike and pass on the same things.

* `Call.toLog_bare`, `Call.after_bare`: a bare call takes the same operations and stays bare.
* `step_alike`, `run_alike`: a step, and so a whole run.
-/

namespace BinaryLog

/-! ## Calls without levels -/

namespace Call

/-- The call without its levels. -/
def bare : Call → Call
  | client c => client { c with taps := [], listener := c.listener.map fun _ => [] }
  | server c => server { c with callTaps := [], listenerTaps := [] }

theorem stacked_bare (c : Call) : c.bare.Stacked [] := by
  cases c with
  | client c => exact ⟨rfl, by simp [ClientListener.taps]⟩
  | server c => exact ⟨rfl, rfl⟩

@[simp] theorem attributes_bare (c : Call) : c.bare.attributes = c.attributes := by
  cases c <;> rfl

/-- A call gives out the same handles through its levels as without them. -/
@[simp] theorem handle_bare (c : Call) (holder : Session.Holder) :
    c.bare.handle holder = c.handle holder := by
  cases c <;> cases holder <;> simp [bare, handle]

theorem Aliased.bare {c : Call} (h : c.Aliased) : c.bare.Aliased := by
  cases c with
  | client c =>
    obtain ⟨htransport, -⟩ := aliased_client_iff.1 h
    refine aliased_client_iff.2 ⟨htransport, fun l hl level hlevel => ?_⟩
    obtain ⟨_, -, rfl⟩ := Option.map_eq_some_iff.1 hl
    cases hlevel
  | server c =>
    have htransport := aliased_server_iff.1 h
    exact aliased_server_iff.2 htransport

/-- A bare call takes the operations that the call takes, and has nothing to log. -/
theorem toLog_bare (attrs : Attributes) (stack : List Tap) (op : Operation) (c : Call) :
    c.bare.toLog attrs [] op = (c.toLog attrs stack op).map fun _ => [] := by
  cases c with
  | client c => cases op <;> simp [bare, toLog, ClientCall.toLog, ClientListener.pending] <;> rfl
  | server c => cases op <;> rfl

/-- An operation leaves a bare call as it leaves the call, its levels apart. -/
theorem after_bare (op : Operation) (n m : Nat) (result : Except Error Unit) (c : Call) :
    c.bare.after op m result = (c.after op n result).bare := by
  cases c with
  | client c =>
    cases op <;> cases result <;> simp [bare, after, ClientCall.after, Function.comp_def]
  | server c => rfl

end Call

namespace Session

/-! ## What is compared -/

/-- The outcome, less which tap a call is logged by. -/
def Outcome.withoutLogged : Outcome → Outcome
  | answered (.opened _) => answered (.opened none)
  | answered answer => answered answer
  | failed e => failed e
  | skipped => skipped

/-- The actions that make, drive or inspect a call. -/
def Action.isOnCall : Action → Bool
  | resolve _ | entries | drain => false
  | _ => true

/-- The reports of two runs of a script have the same outcome, less which tap a call is logged by,
and the same things are passed on, at each step that makes, drives or inspects a call. -/
inductive Alike : List Step → List Report → List Report → Prop
  | nil : Alike [] [] []
  | cons {st : Step} {script : List Step} {r r₀ : Report} {rs rs₀ : List Report} :
      (st.action.isOnCall = true → r.outcome.withoutLogged = r₀.outcome.withoutLogged ∧
        passedOn r.trace = passedOn r₀.trace) →
      Alike script rs rs₀ → Alike (st :: script) (r :: rs) (r₀ :: rs₀)

/-! ## Steps -/

/-- The second calls are the first without their levels, and their handles lead to the same. -/
structure Beside (calls calls₀ : Calls) : Prop where
  bare : ∀ name, calls₀ name = (calls name).map Call.bare
  attributes : calls₀.attributes = calls.attributes

/-- Two performances of an action leave the second calls beside the first, and answer alike and pass
on the same things if the action is on a call. -/
def PerformAlike (a : Action) (p p₀ : Outcome × Calls × Surroundings) : Prop :=
  Beside p.2.1 p₀.2.1 ∧ (a.isOnCall = true →
    p.1.withoutLogged = p₀.1.withoutLogged ∧ passedOn p.2.2.trace = passedOn p₀.2.2.trace)

theorem Beside.start : Beside .none .none := ⟨fun _ => rfl, rfl⟩

section
variable {table quiet : Config.RuleTable} {calls calls₀ : Calls} {w w₀ : Surroundings}

theorem Beside.set (h : Beside calls calls₀) (name : String) (call : Option Call) :
    Beside (calls.set name call) (calls₀.set name (call.map Call.bare)) := by
  refine ⟨fun other => ?_, h.attributes⟩
  rw [Calls.set_apply, Calls.set_apply]
  split
  · rfl
  · exact h.bare other

theorem Beside.create (h : Beside calls calls₀) (remote : Option PeerAddress) :
    Beside (calls.create remote).2 (calls₀.create remote).2 :=
  ⟨h.bare, congrArg (fun store => (store.create ⟨remote⟩).2) h.attributes⟩

theorem taps_eq_nil (hq : ∀ m, quiet.lookup m = none) (method : String) (ids : List CallId) :
    quiet.taps method ids = [] := by
  simp [Config.RuleTable.taps, hq]

/-- A pass in which no write is refused ends like one without levels. -/
theorem pass_alike {entries : List Entry} {beyond : Reached} {n n₀ : Nat}
    {result result₀ : Except Error Unit} {w' w₀' : Surroundings}
    (hp : Pass entries beyond w n result w') (hp₀ : Pass [] beyond w₀ n₀ result₀ w₀')
    (hfault : w.callFault = w₀.callFault) (hpassed : passedOn w.trace = passedOn w₀.trace)
    (hok : noneRefused w'.trace) :
    result = result₀ ∧ passedOn w'.trace = passedOn w₀'.trace := by
  obtain ⟨hr, ht⟩ := hp.of_eq_length (hp.eq_length_of_not_refused hok)
  obtain ⟨hr₀, ht₀⟩ := hp₀.of_eq_length (Nat.le_zero.1 hp₀.le_length)
  refine ⟨?_, ?_⟩
  · rw [hr, hr₀, Surroundings.own_eq_of_callFault_eq hfault]
  · rw [ht, ht₀, hpassed]

theorem operate_alike (hs : calls.Sound) (h : Beside calls calls₀)
    (hfault : w.callFault = w₀.callFault)
    (hpassed : passedOn w.trace = passedOn w₀.trace) (name : String) (op : Operation)
    (hok : noneRefused (perform table calls w (.operate name op)).2.2.trace) :
    PerformAlike (.operate name op) (perform table calls w (.operate name op))
      (perform quiet calls₀ w₀ (.operate name op)) := by
  have hbare := h.bare name
  cases hc : calls name with
  | none =>
    rw [hc] at hbare
    rw [perform_operate_skipped (by simp [hc]), perform_operate_skipped (by simp [hbare])]
    exact ⟨h, fun _ => ⟨rfl, hpassed⟩⟩
  | some c =>
    rw [hc] at hbare
    obtain ⟨stack, hr⟩ := hs.reachable hc
    have hlog₀ := Call.toLog_bare (calls.attributes.get c.attributes) stack op c
    cases hlog : c.toLog (calls.attributes.get c.attributes) stack op with
    | none =>
      rw [hlog] at hlog₀
      rw [perform_operate_skipped (by simpa [hc] using ⟨_, stack, hlog⟩),
        perform_operate_skipped (by simpa [hbare] using ⟨_, [], hlog₀⟩)]
      exact ⟨h, fun _ => ⟨rfl, hpassed⟩⟩
    | some entries =>
      rw [hlog, ← h.attributes, ← c.attributes_bare] at hlog₀
      obtain ⟨n, result, w', hp, heq⟩ := perform_operate table w hc hr.stacked hr.aliased hlog
      obtain ⟨n₀, result₀, w₀', hp₀, heq₀⟩ :=
        perform_operate quiet w₀ hbare c.stacked_bare hr.aliased.bare hlog₀
      rw [heq] at hok ⊢
      rw [heq₀]
      obtain ⟨rfl, ht⟩ := pass_alike hp hp₀ hfault hpassed hok
      refine ⟨?_, fun _ => ⟨rfl, ht⟩⟩
      rw [c.after_bare op n n₀ result]
      exact h.set name (some (c.after op n result))

theorem openServer_alike (hq : ∀ m, quiet.lookup m = none) (h : Beside calls calls₀)
    (hfault : w.callFault = w₀.callFault) (hpassed : passedOn w.trace = passedOn w₀.trace)
    (name method : String) (ids : List CallId) (remote : Option PeerAddress) (headers : Metadata)
    (hok : noneRefused
      (perform table calls w (.openServer name method ids remote headers)).2.2.trace) :
    PerformAlike (.openServer name method ids remote headers)
      (perform table calls w (.openServer name method ids remote headers))
      (perform quiet calls₀ w₀ (.openServer name method ids remote headers)) := by
  obtain ⟨n, result, w', hp, heq⟩ :=
    perform_openServer table calls w name method ids remote headers
  obtain ⟨n₀, result₀, w₀', hp₀, heq₀⟩ :=
    perform_openServer quiet calls₀ w₀ name method ids remote headers
  rw [taps_eq_nil hq] at hp₀ heq₀
  rw [heq] at hok ⊢
  rw [heq₀]
  obtain ⟨rfl, ht⟩ := pass_alike hp hp₀ hfault hpassed (by cases result <;> exact hok)
  cases result with
  | ok =>
    refine ⟨?_, fun _ => ⟨rfl, ht⟩⟩
    rw [show calls₀.attributes.fresh = calls.attributes.fresh by rw [h.attributes]]
    exact (h.create remote).set name (some (.server ⟨method, _, _, false, _, _⟩))
  | error err => exact ⟨(h.create remote).set name none, fun _ => ⟨rfl, ht⟩⟩

/-- **An action is alike in the two sessions** if no entry is refused. -/
theorem perform_alike (hq : ∀ m, quiet.lookup m = none) (hs : calls.Sound)
    (h : Beside calls calls₀) (hfault : w.callFault = w₀.callFault) (hpassed : passedOn w.trace = passedOn w₀.trace)
    (a : Action) (hok : noneRefused (perform table calls w a).2.2.trace) :
    PerformAlike a (perform table calls w a) (perform quiet calls₀ w₀ a) := by
  cases a with
  | openClient name method ids remote =>
    refine ⟨?_, fun _ => ⟨rfl, ?_⟩⟩
    · simp only [perform, taps_eq_nil hq]
      rw [show (calls₀.create remote).1 = (calls.create remote).1 from
        congrArg AttributeStore.fresh h.attributes]
      exact (h.create remote).set name (some (.client (.opened _ _)))
    · simp [perform, Surroundings.note, hpassed]
  | openServer name method ids remote headers =>
    exact openServer_alike hq h hfault hpassed name method ids remote headers hok
  | operate name op => exact operate_alike hs h hfault hpassed name op hok
  | peer name =>
    rw [perform, perform, h.bare name]
    cases calls name with
    | none => exact ⟨h, fun _ => ⟨rfl, hpassed⟩⟩
    | some c => exact ⟨h, fun _ => ⟨by simp [h.attributes], hpassed⟩⟩
  | setPeer name holder address =>
    rw [perform, perform, h.bare name]
    cases calls name with
    | none => exact ⟨h, fun _ => ⟨rfl, hpassed⟩⟩
    | some c =>
      simp only [Option.map_some, Call.handle_bare, h.attributes]
      exact ⟨⟨h.bare, rfl⟩, fun _ => ⟨rfl, hpassed⟩⟩
  | isCancelled name | methodName name =>
    rw [perform, perform, h.bare name]
    rcases calls name with _ | _ | _ <;> exact ⟨h, fun _ => ⟨by simp [Call.bare], hpassed⟩⟩
  | setCancelled name =>
    rw [perform, perform, h.bare name]
    rcases calls name with _ | c | c
    · exact ⟨h, fun _ => ⟨rfl, hpassed⟩⟩
    · exact ⟨h, fun _ => ⟨rfl, hpassed⟩⟩
    · exact ⟨h.set name (some (.server { c with cancelled := true })), fun _ => ⟨rfl, hpassed⟩⟩
  | resolve | entries | drain => exact ⟨h, fun hc => by cases hc⟩

end

/-! ## Runs -/

section
variable {s s₀ : Session}

/-- A step in which no entry is refused leaves the second session beside the first. -/
theorem step_alike (hq : ∀ m, s₀.table.lookup m = none) (hs : s.calls.Sound)
    (h : Beside s.calls s₀.calls) (st : Step)
    (hok : noneRefused (s.step st).1.trace) :
    Beside (s.step st).2.calls (s₀.step st).2.calls ∧ (st.action.isOnCall = true →
      (s.step st).1.outcome.withoutLogged = (s₀.step st).1.outcome.withoutLogged ∧
      passedOn (s.step st).1.trace = passedOn (s₀.step st).1.trace) := by
  show PerformAlike st.action
    (perform s.table s.calls ⟨s.sink, st.sinkFault, st.callFault, []⟩ st.action)
    (perform s₀.table s₀.calls ⟨s₀.sink, st.sinkFault, st.callFault, []⟩ st.action)
  exact perform_alike hq hs h (by rfl) (by rfl) st.action hok

/-- Two sessions of which the second is quiet and has the calls of the first without their levels
run a script alike. -/
theorem run_alike (s s₀ : Session) (hq : ∀ m, s₀.table.lookup m = none)
    (hs : s.calls.Sound) (h : Beside s.calls s₀.calls) (script : List Step)
    (hok : ∀ r ∈ (s.run script).1, noneRefused r.trace) :
    Alike script (s.run script).1 (s₀.run script).1 := by
  induction script generalizing s s₀ with
  | nil => exact .nil
  | cons st script ih =>
    have hstep : noneRefused (s.step st).1.trace := hok _ List.mem_cons_self
    obtain ⟨hbeside, halike⟩ := step_alike hq hs h st hstep
    exact .cons halike
      (ih _ _ hq (sound_step hs st) hbeside fun r hr => hok r (List.mem_cons_of_mem _ hr))

end

/-- **Interception is transparent**: a script in which no write to the sink fails runs as it does
where nothing is logged. -/
theorem interception_transparent (table : Config.RuleTable) {quiet : Config.RuleTable}
    (hq : ∀ m, quiet.lookup m = none) (sink sink₀ : Sink) (script : List Step)
    (hok : ∀ r ∈ ((start table sink).run script).1, noneRefused r.trace) :
    Alike script ((start table sink).run script).1 ((start quiet sink₀).run script).1 :=
  run_alike (start table sink) (start quiet sink₀) hq Calls.sound_none Beside.start script hok

/-- Two levels on a client call whose transport fails to start it once: the application sees the
failure, and then the start succeed. -/
theorem interception_transparent_of_two :
    let table : Config.RuleTable := ⟨[⟨.all, .unbounded⟩], []⟩
    let script : List Step :=
      [⟨.openClient "c" "a/b" [⟨0, 1⟩, ⟨0, 2⟩] none, none, none⟩,
        ⟨.operate "c" (.start []), some "down", none⟩, ⟨.operate "c" (.start []), none, none⟩,
        ⟨.operate "c" (.onMessage [7]), none, none⟩, ⟨.peer "c", none, none⟩]
    let reports := ((start table (.memory [])).run script).1
    Config.compile "*" = (.ok table, [.bound ⟨.all, .unbounded⟩]) ∧
      (∀ r ∈ reports, noneRefused r.trace) ∧
      Alike script reports ((start .empty (.memory [])).run script).1 := by
  intro table script reports
  have hok : ∀ r ∈ reports, noneRefused r.trace := by decide
  exact ⟨rfl, hok, interception_transparent table (fun _ => rfl) _ _ script hok⟩

end Session

end BinaryLog
