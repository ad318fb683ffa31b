import BinaryLog.Proofs.Interception.WellFormed
import BinaryLog.Proofs.Session.Opening

/-!
# Where entries come from

Whatever is handed to the sink in a session comes from a step that is an event of a call.

* `Records stack side kind content entries`: levels of `stack` make `entries` of such an event.
* `Call.records_of_toLog`: an operation on a call makes its levels record just the event it is.
* `step_records`: a step of a session leaves the sink alone, or hands over records of its event.
* `entries_of_run`: so every entry is well formed, within the limits of the rule for its call's
  method, and under the id of the level that made it.
-/

namespace BinaryLog

/-- The event that an operation is for the levels that it passes, with its content; `none` if none
of them logs it. -/
def Operation.event : Operation → Option (EventKind × Content)
  | start headers | sendHeaders headers => some (.sendInitialMetadata, .headers headers)
  | onHeaders headers => some (.recvInitialMetadata, .headers headers)
  | close _ trailers => some (.sendTrailingMetadata, .headers trailers)
  | onClose _ trailers => some (.recvTrailingMetadata, .headers trailers)
  | sendMessage data => some (.sendMessage, .message data)
  | onMessage data => some (.recvMessage, .message data)
  | request _ | halfClose | cancel _ | onReady | onHalfClose | onCancel | onComplete => none

/-- The call whose event an action is, and the event. -/
def Session.Action.event : Action → Option (String × EventKind × Content)
  | .openServer name _ _ _ headers => some (name, .recvInitialMetadata, .headers headers)
  | .operate name op => op.event.map (name, ·)
  | _ => none

/-! ## Records of an event -/

/-- Levels of `stack`, passed from one end or the other, make `entries` of an event that `side`
sees, each at most one. -/
def Records (stack : List Tap) (side : Side) (kind : EventKind) (content : Content)
    (entries : List Entry) : Prop :=
  ∃ (event : CallEvent) (levels : List Tap), event.SeenBy side ∧ event.kind = kind ∧
    event.content = content ∧ (levels.Sublist stack ∨ levels.Sublist stack.reverse) ∧
    entries = levels.map (·.entry side event)

namespace Records

variable {stack : List Tap} {side : Side} {kind : EventKind} {content : Content}
  {entries : List Entry}

theorem inwards (event : CallEvent) (h : event.SeenBy side) :
    Records stack side event.kind event.content (stack.map (·.entry side event)) :=
  ⟨event, stack, h, rfl, rfl, .inl (List.Sublist.refl _), rfl⟩

theorem outwards (event : CallEvent) (h : event.SeenBy side) :
    Records stack side event.kind event.content (stack.reverse.map (·.entry side event)) :=
  ⟨event, stack.reverse, h, rfl, rfl, .inr (List.Sublist.refl _), rfl⟩

theorem take (h : Records stack side kind content entries) (n : Nat) :
    Records stack side kind content (entries.take n) := by
  obtain ⟨event, levels, hseen, hkind, hcontent, hlevels, rfl⟩ := h
  refine ⟨event, levels.take n, hseen, hkind, hcontent, ?_, List.map_take.symm⟩
  exact hlevels.imp (List.take_sublist n levels).trans (List.take_sublist n levels).trans

/-- On a stack of the taps for a method, the rule table has limits for the method. -/
theorem of_taps {table : Config.RuleTable} {method : String} {ids : List CallId}
    (h : Records (table.taps method ids) side kind content entries) (hne : entries ≠ []) :
    ∃ limits, table.lookup method = some limits ∧
      ((entries.map Entry.callId).Sublist ids ∨ (entries.map Entry.callId).Sublist ids.reverse) ∧
      ∀ e ∈ entries, e.kind = kind ∧ e.side = side ∧ e.WellFormed limits content := by
  obtain ⟨event, levels, hseen, rfl, rfl, hlevels, rfl⟩ := h
  cases hlookup : table.lookup method with
  | none =>
    simp only [Config.RuleTable.taps, hlookup, List.reverse_nil, or_self, List.sublist_nil]
      at hlevels
    exact absurd (by rw [hlevels]; rfl) hne
  | some limits =>
    -- in either order the levels that log are the taps of some of the ids
    simp only [Config.RuleTable.taps, hlookup, ← List.map_reverse, List.sublist_map_iff,
      ← exists_or, ← or_and_right] at hlevels
    obtain ⟨logging, hlogging, rfl⟩ := hlevels
    refine ⟨limits, rfl, ?_, ?_⟩
    · simpa [Function.comp_def, Tap.entry, Limits.record] using hlogging
    · intro e he
      obtain ⟨_, htap, rfl⟩ := List.mem_map.1 he
      obtain ⟨id, -, rfl⟩ := List.mem_map.1 htap
      exact ⟨rfl, rfl, limits.record_wellFormed id hseen⟩

end Records

theorem ClientListener.pending_sublist_taps (l : ClientListener) : l.pending.Sublist l.taps :=
  List.filter_sublist.map _

section
variable {attrs : Attributes} {stack : List Tap} {op : Operation} {entries : List Entry}

theorem ClientCall.records_of_toLog {c : ClientCall} (hc : (Call.client c).Stacked stack)
    (h : c.toLog attrs stack op = some entries) :
    entries = [] ∨ ∃ kind content, op.event = some (kind, content) ∧
      Records stack .client kind content entries := by
  cases op with
  | start headers =>
    cases h
    exact .inr ⟨_, _, rfl, .inwards (.sentHeaders headers) trivial⟩
  | sendMessage data =>
    cases h
    exact .inr ⟨_, _, rfl, .inwards (.sent data) rfl⟩
  | onHeaders headers =>
    obtain ⟨l, hl, rfl⟩ := Option.map_eq_some_iff.1 h
    refine .inr ⟨_, _, rfl, .receivedHeaders headers attrs.peer, l.pending, trivial, rfl, rfl,
      .inr ?_, rfl⟩
    rw [← hc.2 l hl]
    exact l.pending_sublist_taps
  | onMessage data =>
    obtain ⟨l, -, rfl⟩ := Option.map_eq_some_iff.1 h
    exact .inr ⟨_, _, rfl, .outwards (.received data) rfl⟩
  | onClose status trailers =>
    obtain ⟨l, -, rfl⟩ := Option.map_eq_some_iff.1 h
    exact .inr ⟨_, _, rfl, .outwards (.receivedTrailers trailers) rfl⟩
  | onReady =>
    obtain ⟨l, -, rfl⟩ := Option.map_eq_some_iff.1 h
    exact .inl rfl
  | request | halfClose | cancel =>
    cases h
    exact .inl rfl
  | sendHeaders | close | onHalfClose | onCancel | onComplete => cases h

theorem ServerCall.records_of_toLog (h : toLog stack op = some entries) :
    entries = [] ∨ ∃ kind content, op.event = some (kind, content) ∧
      Records stack .server kind content entries := by
  cases op <;> cases h
  case sendHeaders headers => exact .inr ⟨_, _, rfl, .outwards (.sentHeaders headers) trivial⟩
  case sendMessage data => exact .inr ⟨_, _, rfl, .outwards (.sent data) rfl⟩
  case close status trailers => exact .inr ⟨_, _, rfl, .outwards (.sentTrailers trailers) rfl⟩
  case onMessage data => exact .inr ⟨_, _, rfl, .inwards (.received data) rfl⟩
  all_goals exact .inl rfl

/-- What the levels of a call have to log of an operation are records of the event that it is. -/
theorem Call.records_of_toLog {c : Call} (hc : c.Stacked stack)
    (h : c.toLog attrs stack op = some entries) :
    entries = [] ∨ ∃ kind content, op.event = some (kind, content) ∧
      Records stack c.side kind content entries := by
  cases c with
  | client c => exact ClientCall.records_of_toLog hc h
  | server c => exact ServerCall.records_of_toLog h

end

namespace Session

/-! ## Steps and runs -/

section
variable {calls : Calls} {w : Surroundings} {name : String}

theorem openServer_records (table : Config.RuleTable) (calls : Calls) (hw : w.trace = [])
    (name method : String) (ids : List CallId) (remote : Option PeerAddress) (headers : Metadata) :
    let trace := (perform table calls w (.openServer name method ids remote headers)).2.2.trace
    SinkUntouched trace ∨ handed trace ≠ [] ∧
      Records (table.taps method ids) .server .recvInitialMetadata (.headers headers)
        (handed trace) := by
  intro trace
  obtain ⟨n, result, w', hp, heq⟩ :=
    perform_openServer table calls w name method ids remote headers
  have htrace : trace = w'.trace := by
    simp only [trace, heq]
    cases result <;> rfl
  rw [htrace]
  refine (hp.untouched_or_handed hw).imp_right fun ⟨hne, hhanded⟩ => ⟨hne, ?_⟩
  rw [hhanded]
  exact (Records.inwards (.receivedHeaders headers _) trivial).take _

theorem operate_records (table : Config.RuleTable) (hw : w.trace = []) {c : Call}
    {stack : List Tap} (hc : calls name = some c) (hs : c.Stacked stack) (ha : c.Aliased)
    (op : Operation) :
    let trace := (perform table calls w (.operate name op)).2.2.trace
    SinkUntouched trace ∨ handed trace ≠ [] ∧ ∃ kind content, op.event = some (kind, content) ∧
      Records stack c.side kind content (handed trace) := by
  intro trace
  cases hlog : c.toLog (calls.attributes.get c.attributes) stack op with
  | none =>
    have hskip : perform table calls w (.operate name op) = (.skipped, calls, w) :=
      perform_operate_skipped (by simpa [hc] using ⟨_, stack, hlog⟩)
    simp only [trace, hskip, hw]
    exact .inl untouched_nil
  | some entries =>
    obtain ⟨n, result, w', hp, heq⟩ := perform_operate table w hc hs ha hlog
    simp only [trace, heq]
    refine (hp.untouched_or_handed hw).imp_right fun ⟨hne, hhanded⟩ => ⟨hne, ?_⟩
    rcases Call.records_of_toLog hs hlog with rfl | ⟨kind, content, hevent, hrecords⟩
    · exact absurd hhanded hne
    · rw [hhanded]
      exact ⟨kind, content, hevent, hrecords.take _⟩

/-- Nothing else is an event that a level logs. -/
theorem perform_untouched (table : Config.RuleTable) (calls : Calls) (hw : w.trace = [])
    {a : Action} (hevent : a.event = none) (hop : ∀ name op, a ≠ .operate name op) :
    SinkUntouched (perform table calls w a).2.2.trace := by
  have hnothing : SinkUntouched w.trace := by
    rw [hw]
    exact untouched_nil
  cases a with
  | openServer => cases hevent
  | operate name op => exact absurd rfl (hop name op)
  | openClient name method ids remote =>
    intro h hmem
    simp only [perform, Surroundings.note, hw, List.nil_append, List.mem_singleton] at hmem
    exact ⟨_, hmem⟩
  | resolve | entries | drain => exact hnothing
  | peer | setPeer | isCancelled | setCancelled | methodName =>
    rw [perform]
    split <;> exact hnothing

end

/-- **A step leaves the sink alone, or hands over records of the event that it is**, made by levels
of the stack with which the call was last opened. -/
theorem step_records (table : Config.RuleTable) (sink : Sink) (before : List Step) (st : Step) :
    let trace := (((start table sink).run before).2.step st).1.trace
    SinkUntouched trace ∨ handed trace ≠ [] ∧ ∃ name kind content side method ids,
      st.action.event = some (name, kind, content) ∧
      lastOpening name (before ++ [st]) = some (method, ids) ∧
      lastSide name (before ++ [st]) = some side ∧
      Records (table.taps method ids) side kind content (handed trace) := by
  have htable := run_table (start table sink) before
  have hopened := @opened_of_run table sink before
  -- of the state before the step only the table and how its calls were opened matter
  generalize ((start table sink).run before).2 = s at htable hopened
  obtain ⟨w, hw, htrace⟩ : ∃ w : Surroundings, w.trace = [] ∧
      (s.step st).1.trace = (perform table s.calls w st.action).2.2.trace :=
    ⟨⟨s.sink, st.sinkFault, st.callFault, []⟩, rfl, by rw [step, htable]; rfl⟩
  simp only [lastOpening_append, lastSide_append, htrace]
  cases st.action with
  | openServer name method ids remote headers =>
    rcases openServer_records table s.calls hw name method ids remote headers with h | ⟨hne, h⟩
    · exact .inl h
    · exact .inr ⟨hne, name, _, _, .server, method, ids, rfl, by simp [Action.opening],
        by simp [Action.openingSide], h⟩
  | operate name op =>
    cases hc : s.calls name with
    | none =>
      rw [perform_operate_skipped (by simp [hc]), hw]
      exact .inl untouched_nil
    | some c =>
      obtain ⟨method, ids, hlast, hside, hr⟩ := hopened hc
      rcases operate_records table hw hc hr.stacked hr.aliased op with
        h | ⟨hne, kind, content, hevent, h⟩
      · exact .inl h
      · exact .inr ⟨hne, name, kind, content, c.side, method, ids, by simp [Action.event, hevent],
          hlast, hside, h⟩
  | openClient | peer | setPeer | isCancelled | setCancelled | methodName | resolve | entries
    | drain => exact .inl (perform_untouched table s.calls hw rfl (by simp))

/-- An entry that a step hands over is of the event that the step is, and under an id with which the
call of this event was last opened. -/
theorem origin_of_handed (table : Config.RuleTable) (sink : Sink) (before : List Step) (st : Step)
    {e : Entry} (he : e ∈ handed (((start table sink).run before).2.step st).1.trace) :
    ∃ name content method ids, st.action.event = some (name, e.kind, content) ∧
      lastOpening name (before ++ [st]) = some (method, ids) ∧ e.callId ∈ ids := by
  rcases step_records table sink before st with
    huntouched | ⟨hne, name, kind, content, side, method, ids, hevent, hlast, -, hrecords⟩
  · rw [huntouched.handed_eq_nil] at he
    cases he
  · obtain ⟨limits, -, hids, hentries⟩ := hrecords.of_taps hne
    obtain ⟨rfl, -⟩ := hentries e he
    have hid : e.callId ∈ (handed _).map Entry.callId := List.mem_map_of_mem he
    refine ⟨name, content, method, ids, hevent, hlast, ?_⟩
    rcases hids with hids | hids
    · exact hids.subset hid
    · exact List.mem_reverse.1 (hids.subset hid)

/-- **Every entry is well formed and within the limits of its call's rule.** In a run of any script,
a step leaves the sink alone, or it is an event of a call whose method the rule table has limits for
and hands over entries of this event: each on the call's side and well formed within the limits, and
all under ids of the call's levels, in the order of the levels from one end or the other. So calls
whose method has no limits leave the sink alone. -/
theorem entries_of_run (table : Config.RuleTable) (sink : Sink) (before after : List Step)
    (st : Step) :
    ∃ r, ((start table sink).run (before ++ st :: after)).1[before.length]? = some r ∧
      (SinkUntouched r.trace ∨ ∃ name kind content side method ids limits,
        st.action.event = some (name, kind, content) ∧
        lastOpening name (before ++ [st]) = some (method, ids) ∧
        lastSide name (before ++ [st]) = some side ∧ table.lookup method = some limits ∧
        (((handed r.trace).map Entry.callId).Sublist ids ∨
          ((handed r.trace).map Entry.callId).Sublist ids.reverse) ∧
        ∀ e ∈ handed r.trace, e.kind = kind ∧ e.side = side ∧ e.WellFormed limits content) := by
  refine ⟨_, run_reports _ before after st, ?_⟩
  rcases step_records table sink before st with
    h | ⟨hne, name, kind, content, side, method, ids, hevent, hlast, hside, hrecords⟩
  · exact .inl h
  · obtain ⟨limits, hlookup, hids, hentries⟩ := hrecords.of_taps hne
    exact .inr ⟨name, kind, content, side, method, ids, limits, hevent, hlast, hside, hlookup, hids,
      hentries⟩

/-- Two levels record a message of two octets within a limit of one. -/
example :
    let script : List Step := [⟨.openClient "c" "a/b" [⟨0, 1⟩, ⟨0, 2⟩] none, none, none⟩,
      ⟨.operate "c" (.sendMessage [7, 8]), none, none⟩]
    ((start ⟨[⟨.all, ⟨3, 1⟩⟩], []⟩ (.memory [])).run script).1.map (handed ·.trace) =
      [[], [⟨.sendMessage, .client, ⟨0, 1⟩, none, .message ⟨0, 2, [7]⟩⟩,
        ⟨.sendMessage, .client, ⟨0, 2⟩, none, .message ⟨0, 2, [7]⟩⟩]] := by
  decide

end Session

end BinaryLog
