import BinaryLog.Proofs.Interception.HeaderTurns
import BinaryLog.Proofs.Session.Plan

/-!
# Response headers are logged once

From the start that registers a client's listener up to the one that replaces it, each level around
the listener logs response headers at most once, and it is tried again as long as its write fails.

* `step_listens`: a step takes the levels of a listener through a callback with response headers, or
  leaves them alone.
* `run_listens`: so a run gives each level a column of turns.
* `response_headers_logged_once`: from the start of the call each column is one of a level that has
  not logged.
-/

namespace BinaryLog.Session

open Turn (Shown Column LogOnce column)

/-- The response headers that an action brings to the listener of a call. -/
def Action.headersFor (name : String) : Action → Option Metadata
  | operate call (.onHeaders headers) => if call = name then some headers else none
  | _ => none

/-- Whether an action starts a call. -/
def Action.isStartOf (name : String) : Action → Bool
  | operate call (.start _) => call = name
  | _ => false

/-- An action that is the event of received headers opens the call or is a callback. -/
theorem Action.headersFor_of_event {a : Action} {name : String} {content : Content}
    (h : a.event = some (name, .recvInitialMetadata, content)) (hopen : a.opening name = none) :
    ∃ headers, a.headersFor name = some headers := by
  cases a with
  | openServer call =>
    cases h
    simp [opening] at hopen
  | operate call op =>
    cases op <;> simp [Action.event, Operation.event] at h
    exact ⟨_, if_pos h.1⟩
  | openClient | peer | setPeer | isCancelled | setCancelled | methodName | resolve | entries
    | drain => cases h

/-- The callbacks with response headers to the listener of a call, with what they report. -/
def headerCallbacks (name : String) (script : List Step) (reports : List Report) :
    List (Metadata × Report) :=
  (script.zip reports).filterMap fun (st, r) => (st.action.headersFor name).map (·, r)

/-- The listener of a call stays in place: the name is not given to another call, and the call is
not started with success, which would replace its listener. -/
def ListenerStays (name : String) (script : List Step) (reports : List Report) : Prop :=
  ∀ p ∈ script.zip reports, p.1.action.opening name = none ∧
    (p.1.action.isStartOf name → p.2.outcome ≠ .answered .done)

instance (name : String) (script : List Step) (reports : List Report) :
    Decidable (ListenerStays name script reports) := List.decidableBAll _ _

/-- A client's call, if there is one in this state, has a listener. -/
def HasListener (state : Option CallState) (l : ClientListener) : Prop :=
  ∃ c attrs, state = some ⟨.client c, attrs⟩ ∧ c.listener = some l

/-- A call has a listener. -/
def Listens (s : Session) (name : String) (l : ClientListener) : Prop :=
  HasListener (s.calls.state name) l

section
variable {s : Session} {name : String} {l : ClientListener}

/-- An operation that is no successful start takes the levels of a listener through a callback, or
leaves them alone. -/
theorem operate_listens {table : Config.RuleTable} {fresh : AttributeHandle} {c : ClientCall}
    {attrs : Attributes} {op : Operation} {w w' : Surroundings} {outcome : Outcome}
    {next : Option CallState} (hl : c.listener = some l) (hw : w.trace = [])
    (hruns : ((Action.operate name op).plan table fresh (some ⟨.client c, attrs⟩)).Runs w outcome
      next w')
    (hstart : (Action.operate name op).isStartOf name → outcome ≠ .answered .done) :
    (Action.operate name op).headersFor name = none ∧ HasListener next l ∨
      ∃ headers n, (Action.operate name op).headersFor name = some headers ∧
        Shown l.taps headers (l.turns n) w'.trace ∧ HasListener next (l.marked n) := by
  simp only [Action.plan] at hruns
  cases hlog : (Call.client c).toLog attrs (Call.client c).stack op with
  | none =>
    rw [hlog] at hruns
    obtain ⟨-, rfl, -⟩ := hruns.of_answer
    refine .inl ⟨?_, c, attrs, rfl, hl⟩
    cases op with
    | onHeaders => simp [Call.toLog, ClientCall.toLog, hl] at hlog
    | _ => rfl
  | some logs =>
    rw [hlog] at hruns
    obtain ⟨n, result, hp, rfl, rfl⟩ := hruns.of_pass
    cases op with
    | start headers =>
      cases result with
      | ok => exact absurd rfl (hstart (by simp [Action.isStartOf]))
      | error e => exact .inl ⟨rfl, c, attrs, rfl, hl⟩
    | onHeaders headers =>
      have hlogs :
          l.pending.map (·.entry .client (.receivedHeaders headers attrs.peer)) = logs := by
        simpa [Call.toLog, ClientCall.toLog, hl] using hlog
      rw [← hlogs] at hp
      refine .inr ⟨headers, n, if_pos rfl, ClientListener.turns_shown hp hw, _, attrs, rfl, ?_⟩
      rw [ClientCall.after, hl, Option.map_some]
    | _ => exact .inl ⟨rfl, c, attrs, rfl, hl⟩

theorem Action.headersFor_of_call_ne {a : Action} (h : a.call ≠ some name) :
    a.headersFor name = none := by
  unfold headersFor
  split
  · exact if_neg fun heq => h (congrArg some heq)
  · rfl

/-- **A step takes the levels of a listener through a callback, or leaves them alone.** -/
theorem step_listens (hs : s.Reachable) (h : Listens s name l) {st : Step}
    (hopen : st.action.opening name = none)
    (hstart : st.action.isStartOf name → (s.step st).1.outcome ≠ .answered .done) :
    st.action.headersFor name = none ∧ Listens (s.step st).2 name l ∨
    ∃ headers n, st.action.headersFor name = some headers ∧
      Shown l.taps headers (l.turns n) (s.step st).1.trace ∧
      Listens (s.step st).2 name (l.marked n) := by
  by_cases hcall : st.action.call = some name
  case neg =>
    refine .inl ⟨Action.headersFor_of_call_ne hcall, ?_⟩
    rw [Listens, step_other_state hs.sound hcall]
    exact h
  case pos =>
    obtain ⟨c, attrs, hstate, hl⟩ := h
    obtain ⟨w', hruns, htrace, -⟩ := step_plan hcall hs.sound
    rw [planOf, hstate] at hruns
    rw [htrace]
    cases ha : st.action with
    | openClient | openServer =>
      rw [ha] at hcall hopen
      cases hcall
      simp [Action.opening] at hopen
    | resolve | entries | drain =>
      rw [ha] at hcall
      cases hcall
    | peer | isCancelled | setCancelled | methodName | setPeer =>
      rw [ha] at hruns
      obtain ⟨-, hnext, -⟩ := hruns.of_answer
      exact .inl ⟨rfl, _, _, hnext, hl⟩
    | operate _ op =>
      rw [ha] at hcall hruns hstart
      cases hcall
      exact operate_listens hl rfl hruns hstart

theorem headerCallbacks_of_none {st : Step} (h : st.action.headersFor name = none)
    (script : List Step) (r : Report) (reports : List Report) :
    headerCallbacks name (st :: script) (r :: reports) = headerCallbacks name script reports :=
  List.filterMap_cons_none (by simp [h])

theorem headerCallbacks_of_some {st : Step} {headers : Metadata}
    (h : st.action.headersFor name = some headers) (script : List Step) (r : Report)
    (reports : List Report) :
    headerCallbacks name (st :: script) (r :: reports) =
      (headers, r) :: headerCallbacks name script reports :=
  List.filterMap_cons_some (by simp [h])

/-- A run gives each level a column of turns, one for each callback. -/
theorem run_listens (hs : s.Reachable) (h : Listens s name l) (script : List Step)
    (hstays : ListenerStays name script (s.run script).1) :
    ∃ history, List.Forall₂ (fun callback turns => Shown l.taps callback.1 turns callback.2.trace)
        (headerCallbacks name script (s.run script).1) history ∧
      ∀ (i : Nat) (level : ListenerTap), l[i]? = some level →
        Column level.sawHeaders (column i history) := by
  induction script generalizing s l with
  | nil => exact ⟨[], .nil, fun _ _ _ => .nil⟩
  | cons st script ih =>
    have hrun : (s.run (st :: script)).1 = (s.step st).1 :: ((s.step st).2.run script).1 := rfl
    rw [hrun] at hstays ⊢
    have hrest : ListenerStays name script ((s.step st).2.run script).1 :=
      fun p hp => hstays p (List.mem_cons_of_mem _ hp)
    obtain ⟨hopen, hstart⟩ := hstays (st, (s.step st).1) List.mem_cons_self
    rcases step_listens hs h hopen hstart with ⟨hno, hnext⟩ | ⟨headers, n, hyes, hshown, hnext⟩
    · obtain ⟨history, hlater, hcolumns⟩ := ih (hs.step st) hnext hrest
      rw [headerCallbacks_of_none hno]
      exact ⟨history, hlater, hcolumns⟩
    · obtain ⟨history, hlater, hcolumns⟩ := ih (hs.step st) hnext hrest
      rw [ClientListener.taps_marked] at hlater
      rw [headerCallbacks_of_some hyes]
      refine ⟨l.turns n :: history, .cons hshown hlater, fun i level hi => ?_⟩
      obtain ⟨level', hi', turn, hturn, hcolumn⟩ := ClientListener.turns_column n hi
      rw [Turn.column_cons hturn]
      exact hcolumn (hcolumns i level' hi')

/-- A listener that stays in place and is brought no response headers keeps its levels as they are.
-/
theorem listens_of_no_headers (hs : s.Reachable) (h : Listens s name l) (script : List Step)
    (hstays : ListenerStays name script (s.run script).1)
    (hnone : ∀ st ∈ script, st.action.headersFor name = none) :
    Listens (s.run script).2 name l := by
  induction script generalizing s with
  | nil => exact h
  | cons st script ih =>
    have hrest : ListenerStays name script ((s.step st).2.run script).1 :=
      fun p hp => hstays p (List.mem_cons_of_mem _ hp)
    obtain ⟨hopen, hstart⟩ := hstays (st, (s.step st).1) List.mem_cons_self
    rcases step_listens hs h hopen hstart with ⟨-, hnext⟩ | ⟨headers, n, hyes, -⟩
    · exact ih (hs.step st) hnext hrest fun st' hst' => hnone st' (List.mem_cons_of_mem _ hst')
    · rw [hnone st List.mem_cons_self] at hyes
      cases hyes

/-- A start that succeeds registers a listener with the levels of the call around it, none of which
has logged. -/
theorem listens_of_start (hs : s.Reachable) {st : Step} {headers : Metadata}
    (ha : st.action = .operate name (.start headers))
    (hdone : (s.step st).1.outcome = .answered .done) :
    ∃ c, s.calls name = some (.client c) ∧
      Listens (s.step st).2 name (c.taps.reverse.map (⟨·, c.attributes, false⟩)) := by
  have hcall : st.action.call = some name := by rw [ha]; rfl
  obtain ⟨w', hruns, -, -⟩ := step_plan hcall hs.sound
  rw [planOf, ha, hdone] at hruns
  rcases hc : s.calls name with _ | c | c
  · rw [Calls.state_of_none hc] at hruns
    obtain ⟨hskipped, -⟩ := hruns.of_answer
    cases hskipped
  · rw [Calls.state_of_some hc] at hruns
    obtain ⟨n, result, -, hresult, hnext⟩ := hruns.of_pass
    cases result with
    | error e => cases hresult
    | ok => exact ⟨c, rfl, _, _, hnext, rfl⟩
  · rw [Calls.state_of_some hc] at hruns
    obtain ⟨hskipped, -⟩ := hruns.of_answer
    cases hskipped

end

/-- **Response headers are logged once.** Let a session start a client call with success, and let
the listener stay in place for a while. Then each callback with response headers is a row of turns,
one for each level of the call, that its trace shows: the levels log these headers in order until a
write fails. In the column of each level a write returns ok once at most; up to that time the level
writes whenever it is reached, and afterwards never again. And no other step on the call logs
response headers. -/
theorem response_headers_logged_once (table : Config.RuleTable) (sink : Sink)
    (before during : List Step) (name : String) (headers : Metadata)
    (callFault sinkFault : Option String) :
    let s := ((start table sink).run before).2
    let started := s.step ⟨.operate name (.start headers), callFault, sinkFault⟩
    let reports := (started.2.run during).1
    started.1.outcome = .answered .done → ListenerStays name during reports →
    ∃ method ids, lastOpening name before = some (method, ids) ∧
      (∃ history, List.Forall₂
          (fun callback turns =>
            Shown (table.taps method ids).reverse callback.1 turns callback.2.trace)
          (headerCallbacks name during reports) history ∧
        ∀ i < (table.taps method ids).length, LogOnce (column i history)) ∧
      ∀ p ∈ during.zip reports, p.1.action.call = some name →
        (∃ e ∈ handed p.2.trace, e.kind = .recvInitialMetadata) →
        ∃ headers, p.1.action.headersFor name = some headers := by
  intro s started reports hdone hstays
  have hs : s.Reachable := .of_run table sink before
  obtain ⟨c, hc, hlistens⟩ := listens_of_start hs rfl hdone
  obtain ⟨method, ids, hlast, hr⟩ := reachable_of_run hc
  obtain ⟨htaps, -⟩ : c.taps = table.taps method ids ∧ _ := hr.stacked
  rw [htaps] at hlistens
  refine ⟨method, ids, hlast, ?_, ?_⟩
  · obtain ⟨history, hshown, hcolumns⟩ := run_listens (hs.step _) hlistens during hstays
    refine ⟨history, ?_, fun i hi => ?_⟩
    · simpa [ClientListener.taps, Function.comp_def] using hshown
    · have hlevel : i < (table.taps method ids).reverse.length := by rwa [List.length_reverse]
      have hcolumn := hcolumns i ⟨(table.taps method ids).reverse[i], c.attributes, false⟩
        (by rw [List.getElem?_map, List.getElem?_eq_getElem hlevel]; rfl)
      exact hcolumn.logOnce
  · rintro ⟨st, r⟩ hmem hcall ⟨e, he, hkind⟩
    obtain ⟨earlier, later, rfl, rfl⟩ := mem_zip_run hmem
    have hstate : (started.2.run earlier).2 = ((start table sink).run
        (before ++ [⟨.operate name (.start headers), callFault, sinkFault⟩] ++ earlier)).2 := by
      rw [run_append, run_append]
      rfl
    simp only [hstate] at he
    obtain ⟨other, content, _, _, hevent, -, -⟩ := origin_of_handed table sink _ st he
    rw [hkind] at hevent
    have hother := Action.call_of_event hevent
    rw [hcall] at hother
    cases hother
    exact Action.headersFor_of_event hevent (hstays _ hmem).1

/-- At the first callback the write of the outer one of two levels fails; the second one logs at
that level alone, and then the listener fails; at the third one nothing is logged. -/
theorem response_headers_logged_once_of_two :
    let ids : List CallId := [⟨0, 1⟩, ⟨0, 2⟩]
    let table : Config.RuleTable := ⟨[⟨.all, .unbounded⟩], []⟩
    let sink : Sink := .writer ⟨[], [.takeAll, .takeAll, .takeAll, .fail "disk full"], []⟩
    let before : List Step := [⟨.openClient "c" "a/b" ids none, none, none⟩]
    let during : List Step := [⟨.operate "c" (.onHeaders [⟨[1], [2]⟩]), none, none⟩,
      ⟨.operate "c" (.onHeaders [⟨[3], [4]⟩]), some "down", none⟩,
      ⟨.operate "c" (.onHeaders [⟨[5], [6]⟩]), none, none⟩]
    let started := ((start table sink).run before).2.step ⟨.operate "c" (.start []), none, none⟩
    let reports := (started.2.run during).1
    (started.1.outcome = .answered .done ∧ ListenerStays "c" during reports) ∧
    ∃ method ids, lastOpening "c" before = some (method, ids) ∧
      (∃ history, List.Forall₂
          (fun callback turns =>
            Shown (table.taps method ids).reverse callback.1 turns callback.2.trace)
          (headerCallbacks "c" during reports) history ∧
        ∀ i < (table.taps method ids).length, LogOnce (column i history)) ∧
      ∀ p ∈ during.zip reports, p.1.action.call = some "c" →
        (∃ e ∈ handed p.2.trace, e.kind = .recvInitialMetadata) →
        ∃ headers, p.1.action.headersFor "c" = some headers := by
  intro ids table sink before during started reports
  have hdone : started.1.outcome = .answered .done := by decide +kernel
  have hstays : ListenerStays "c" during reports := by decide +kernel
  exact ⟨⟨hdone, hstays⟩,
    response_headers_logged_once table sink before during "c" [] none none hdone hstays⟩

end BinaryLog.Session
