import BinaryLog.Proofs.Session.Received
import BinaryLog.Proofs.Session.ResponseHeaders
import BinaryLog.Proofs.Sink.Steady

/-!
# A failed write leaves no mark

Over a sink in memory, only the first write of a step can fail, and only if that is planned. The
step then ends with it: nothing is kept, nothing is passed on, and the call is left as it was. So
the rest of a run goes on as if the step had not been made.

* `Pass.of_refused`: what comes of a pass in which an entry is refused.
* `step_of_refused`: so a step on a call leaves the session as it was.
* `next_headers_logged`: a level that could not log response headers logs the next ones.
* `failed_log_leaves_no_mark`: all of this, for a step anywhere in a run.
-/

namespace BinaryLog

/-- An operation for which no write returns ok leaves the call as it was. -/
theorem Call.after_refused (c : Call) (op : Operation) (err : Error) :
    c.after op 0 (.error err) = c := by
  cases c with
  | server c => rfl
  | client c =>
    obtain ⟨taps, transport, attributes, listener⟩ := c
    cases op <;> first | rfl | simp [after, ClientCall.after]

/-- Over a sink in memory, an entry is refused only if that is planned for the first write, and
this is all that happens. -/
theorem Pass.of_refused {w w₁ : Surroundings} {es : List Entry} {beyond : Reached} {n : Nat}
    {result : Except Error Unit} {held : List Entry} {e : Entry}
    (h : Pass es beyond w n result w₁) (hw : w.sink = .memory held) (htrace : w.trace = [])
    (he : .refused e ∈ w₁.trace) :
    ∃ reason rest, w.sinkFault = some reason ∧ es = e :: rest ∧ n = 0 ∧
      result = .error (.sinkFailure reason) ∧ w₁.sink = w.sink ∧ w₁.trace = [.refused e] := by
  have hrefused : ¬ noneRefused w₁.trace := by
    intro hok
    have := List.all_eq_true.1 hok _ he
    cases this
  have hplanned : ¬ (es = [] ∨ w.sinkFault = none) := fun hfault =>
    hrefused (h.noneRefused_of_memory ⟨held, hw⟩ (by rw [htrace]; rfl) hfault)
  rw [not_or] at hplanned
  obtain ⟨reason, hreason⟩ := Option.ne_none_iff_exists'.1 hplanned.2
  obtain ⟨first, rest, rfl⟩ := List.exists_cons_of_ne_nil hplanned.1
  obtain ⟨rfl, rfl, rfl⟩ := h.of_log_error (Surroundings.log_of_planned hreason first)
  obtain rfl : e = first := by simpa [htrace] using he
  exact ⟨reason, rest, hreason, rfl, rfl, rfl, rfl, by rw [htrace]; rfl⟩

namespace Session

/-- A plan that is a pass and opens no call is an operation on a call. -/
theorem Action.operate_of_plan {table : Config.RuleTable} {fresh : AttributeHandle}
    {state : Option CallState} {a : Action} {name : String} {logs : List Entry} {beyond : Reached}
    {outcome : Except Error Unit → Outcome} {next : Nat → Except Error Unit → Option CallState}
    (ha : a.call = some name) (hopen : a.opening name = none)
    (hplan : a.plan table fresh state = .pass logs beyond outcome next) :
    ∃ op σ, a = .operate name op ∧ state = some σ ∧
      σ.call.toLog σ.attributes σ.call.stack op = some logs := by
  cases a with
  | openClient | openServer =>
    cases ha
    simp [Action.opening] at hopen
  | operate _ op =>
    cases ha
    cases state with
    | none => cases hplan
    | some σ =>
      cases hlog : σ.call.toLog σ.attributes σ.call.stack op with
      | none => simp [Action.plan, hlog] at hplan
      | some entries =>
        simp only [Action.plan, hlog, Plan.pass.injEq] at hplan
        obtain ⟨rfl, -⟩ := hplan
        exact ⟨op, σ, rfl, rfl, hlog⟩
  | peer | setPeer | isCancelled | setCancelled | methodName =>
    rcases state with _ | ⟨_ | _, _⟩ <;> cases hplan
  | resolve | entries | drain => cases ha

section
variable {s : Session} {name : String} {held : List Entry} {e : Entry}

/-- What a call of the session has to log of an operation. -/
def logsOf (s : Session) (c : Call) (op : Operation) : Option (List Entry) :=
  c.toLog (s.calls.attributes.get c.attributes) c.stack op

/-- A step on a call in which a write fails is an operation. -/
theorem operate_of_refused {st : Step} (hs : s.Reachable) (hcall : st.action.call = some name)
    (hopen : st.action.opening name = none) (he : .refused e ∈ (s.step st).1.trace) :
    ∃ op c logs, st.action = .operate name op ∧ s.calls name = some c ∧
      s.logsOf c op = some logs := by
  obtain ⟨w', hr, htrace, -⟩ := step_plan hcall hs.sound
  rw [htrace] at he
  cases hplan : s.planOf name st with
  | answer =>
    rw [hplan] at hr
    cases hr
    cases he
  | note =>
    rw [hplan] at hr
    cases hr
    simp [Surroundings.note, around] at he
  | pass logs beyond outcome next =>
    obtain ⟨op, σ, ha, hstate, hlog⟩ := Action.operate_of_plan hcall hopen hplan
    obtain ⟨hc, hattrs⟩ := Calls.of_state hstate
    rw [hattrs] at hlog
    exact ⟨op, σ.call, logs, ha, hc, hlog⟩

/-- **A step in which a write fails leaves the session as it was**, over a sink in memory: it ends
with the first level that logs. -/
theorem step_of_refused {st : Step} (hs : s.Reachable) (hheld : s.sink = .memory held)
    (hcall : st.action.call = some name) (hopen : st.action.opening name = none)
    (he : .refused e ∈ (s.step st).1.trace) :
    (∃ reason, st.sinkFault = some reason ∧
      (s.step st).1 = ⟨.failed (.sinkFailure reason), [.refused e]⟩) ∧
    (s.step st).2 = s ∧
    ∃ op c rest, st.action = .operate name op ∧ s.calls name = some c ∧
      s.logsOf c op = some (e :: rest) := by
  obtain ⟨op, c, logs, ha, hc, hlog⟩ := operate_of_refused hs hcall hopen he
  obtain ⟨n, result, w', hp, hstep⟩ := step_operate hs.sound ha hc hlog
  rw [hstep] at he
  obtain ⟨reason, rest, hreason, rfl, rfl, rfl, hkept, hrefused⟩ := hp.of_refused hheld rfl he
  refine ⟨⟨reason, hreason, ?_⟩, ?_, op, c, rest, ha, hc, hlog⟩
  · rw [hstep, hrefused]
    rfl
  · have hsame : s.calls.set name (some c) = s.calls := by rw [← hc, set_self]
    rw [hstep, hkept, c.after_refused, hsame]
    rfl

/-! ## Response headers -/

/-- Over a sink in memory with no failure planned, all levels that have not logged response headers
log them. -/
theorem step_pending {l : ClientListener} (hs : s.Reachable) (h : Listens s name l)
    (hheld : s.sink = .memory held) (headers : Metadata) (callFault : Option String) :
    ∃ peer, accepted (s.step ⟨.operate name (.onHeaders headers), callFault, none⟩).1.trace =
      l.pending.map (·.entry .client (.receivedHeaders headers peer)) := by
  obtain ⟨c, attrs, hstate, hl⟩ := h
  obtain ⟨hc, -⟩ := Calls.of_state hstate
  have hlog : s.logsOf (.client c) (.onHeaders headers) = some (l.pending.map
      (·.entry .client (.receivedHeaders headers (s.calls.attributes.get c.attributes).peer))) := by
    simp only [logsOf, Call.toLog, ClientCall.toLog, hl]
    rfl
  have haction : (Step.mk (.operate name (.onHeaders headers)) callFault none).action =
      .operate name (.onHeaders headers) := rfl
  obtain ⟨n, result, w, hp, hstep⟩ := step_operate hs.sound haction hc hlog
  have hok : noneRefused w.trace := hp.noneRefused_of_memory ⟨held, hheld⟩ rfl (.inr rfl)
  refine ⟨(s.calls.attributes.get c.attributes).peer, ?_⟩
  rw [hstep, hp.accepted_eq, (hp.of_noneRefused hok).1, List.take_length]
  rfl

/-- Response headers that a level could not log leave it to log the next ones that come to the
listener. -/
theorem next_headers_logged {c : Call} {headers : Metadata} {rest : List Entry} (hs : s.Reachable)
    (hheld : s.sink = .memory held) (hc : s.calls name = some c)
    (hlog : s.logsOf c (.onHeaders headers) = some (e :: rest)) (during : List Step)
    (hstays : ListenerStays name during (s.run during).1)
    (hnone : ∀ st ∈ during, st.action.headersFor name = none) (headers' : Metadata)
    (callFault : Option String) :
    ∃ (tap : Tap) (peer peer' : PeerAddress),
      e = tap.entry .client (.receivedHeaders headers peer) ∧
      tap.entry .client (.receivedHeaders headers' peer') ∈ accepted ((s.run during).2.step
        ⟨.operate name (.onHeaders headers'), callFault, none⟩).1.trace := by
  cases c with
  | server c => cases hlog
  | client c =>
    obtain ⟨l, hl, hpending⟩ := Option.map_eq_some_iff.1 hlog
    obtain ⟨tap, others, hlevels, rfl, -⟩ := List.map_eq_cons_iff.1 hpending
    have hlistens : Listens s name l := ⟨c, _, Calls.state_of_some hc, hl⟩
    obtain ⟨held', hheld'⟩ := exists_held hs ⟨held, hheld⟩ during
    have hlistens' := listens_of_no_headers hs hlistens during hstays hnone
    obtain ⟨peer', hlogged⟩ :=
      step_pending (hs.run during) hlistens' hheld' headers' callFault
    refine ⟨tap, _, peer', rfl, ?_⟩
    rw [hlogged, hlevels]
    exact List.mem_cons_self

end

/-- **A step in which the first write fails leaves no mark.** Let a session run over a sink in
memory, and let the first write of a step on a call that is there fail. Then the step returns that
failure and passes nothing on, it leaves the session as it was, its calls and their listeners
included, and the rest of the run is the rest of the run without it. If it brought response headers,
the level that failed to log them logs the next ones that come to its listener. -/
theorem failed_log_leaves_no_mark (table : Config.RuleTable) (before after : List Step) (st : Step)
    (name : String) (e : Entry) :
    let s := ((start table (.memory [])).run before).2
    let s' := (s.step st).2
    let whole := (start table (.memory [])).run (before ++ st :: after)
    let without := (start table (.memory [])).run (before ++ after)
    st.action.call = some name → st.action.opening name = none →
    .refused e ∈ (s.step st).1.trace →
    (∃ reason, st.sinkFault = some reason ∧
      (s.step st).1 = ⟨.failed (.sinkFailure reason), [.refused e]⟩) ∧
    s' = s ∧
    (whole.1.eraseIdx before.length = without.1 ∧ whole.2 = without.2) ∧
    ∀ headers headers' during callFault, st.action = .operate name (.onHeaders headers) →
      ListenerStays name during (s'.run during).1 →
      (∀ st' ∈ during, st'.action.headersFor name = none) →
      ∃ (tap : Tap) (peer peer' : PeerAddress),
        e = tap.entry .client (.receivedHeaders headers peer) ∧
        tap.entry .client (.receivedHeaders headers' peer') ∈ accepted ((s'.run during).2.step
          ⟨.operate name (.onHeaders headers'), callFault, none⟩).1.trace := by
  intro s s' whole without hcall hopen he
  have hs : s.Reachable := .of_run table (.memory []) before
  obtain ⟨held, hheld⟩ : ∃ held, s.sink = .memory held :=
    exists_held (.of_run table (.memory []) []) ⟨[], rfl⟩ before
  obtain ⟨hreport, hsame, op, c, rest, ha, hc, hlog⟩ := step_of_refused hs hheld hcall hopen he
  refine ⟨hreport, hsame, run_eraseIdx hsame after, ?_⟩
  intro headers headers' during callFault hheaders hstays hnone
  rw [ha] at hheaders
  cases hheaders
  rw [show s' = s from hsame] at hstays ⊢
  exact next_headers_logged hs hheld hc hlog during hstays hnone headers' callFault

/-- The inner one of two levels fails to log response headers. A message goes by, and then both
levels log the next headers. -/
theorem failed_log_leaves_no_mark_of_two :
    let inner : CallId := ⟨0, 2⟩
    let table : Config.RuleTable := ⟨[⟨.all, .unbounded⟩], []⟩
    let before : List Step := [⟨.openClient "c" "a/b" [⟨0, 1⟩, inner] none, none, none⟩,
      ⟨.operate "c" (.start []), none, none⟩]
    let st : Step := ⟨.operate "c" (.onHeaders [⟨[1], [2]⟩]), none, some "full"⟩
    let during : List Step := [⟨.operate "c" (.onMessage [7]), some "down", none⟩]
    let after : List Step := during ++ [⟨.operate "c" (.onHeaders [⟨[3], [4]⟩]), none, none⟩]
    let e : Entry := (Tap.mk .unbounded inner).entry .client
      (.receivedHeaders [⟨[1], [2]⟩] (Attributes.mk none).peer)
    let s := ((start table (.memory [])).run before).2
    let s' := (s.step st).2
    let whole := (start table (.memory [])).run (before ++ st :: after)
    let without := (start table (.memory [])).run (before ++ after)
    (st.action.call = some "c" ∧ st.action.opening "c" = none ∧
      .refused e ∈ (s.step st).1.trace ∧ ListenerStays "c" during (s'.run during).1 ∧
      ∀ st' ∈ during, st'.action.headersFor "c" = none) ∧
    (∃ reason, st.sinkFault = some reason ∧
      (s.step st).1 = ⟨.failed (.sinkFailure reason), [.refused e]⟩) ∧
    s' = s ∧
    (whole.1.eraseIdx before.length = without.1 ∧ whole.2 = without.2) ∧
    ∃ (tap : Tap) (peer peer' : PeerAddress),
      e = tap.entry .client (.receivedHeaders [⟨[1], [2]⟩] peer) ∧
      tap.entry .client (.receivedHeaders [⟨[3], [4]⟩] peer') ∈ accepted ((s'.run during).2.step
        ⟨.operate "c" (.onHeaders [⟨[3], [4]⟩]), none, none⟩).1.trace := by
  intro inner table before st during after e s s' whole without
  have hrefused : .refused e ∈ (s.step st).1.trace := by decide +kernel
  have hstays : ListenerStays "c" during (s'.run during).1 := by decide +kernel
  have hnone : ∀ st' ∈ during, st'.action.headersFor "c" = none := by decide +kernel
  obtain ⟨hreport, hsame, hruns, hnext⟩ :=
    failed_log_leaves_no_mark table before after st "c" e rfl rfl hrefused
  exact ⟨⟨rfl, rfl, hrefused, hstays, hnone⟩, hreport, hsame, hruns,
    hnext _ [⟨[3], [4]⟩] during none rfl hstays hnone⟩

end Session

end BinaryLog
