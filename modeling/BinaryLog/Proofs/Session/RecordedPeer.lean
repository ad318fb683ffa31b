import BinaryLog.Proofs.Session.Plan
import Mathlib.Data.List.Basic

/-!
# The recorded peer

The transport, a call, whoever asks the call, and the levels on its listener have handles onto the
attributes of the call. These hold the first remote address that is offered to them: when the call
is opened, or at any time after that, through any of the handles. Received headers are logged with
the address that the attributes hold at that moment, and with the stand-in as long as they hold
none.

* `remote_recordAll`: attributes hold the first address that is offered to them.
* `remote_of_run`: so do the attributes of a call, whatever else a script does.
* `handles_of_run`: this is what all handles of the call see, and only they do.
* `peer_of_handed`: the peer of every entry for received headers.
* `recorded_peer_is_first_offered`: these together, with what becomes of later offers.
-/

namespace BinaryLog

/-! ## Attributes -/

namespace Attributes

/-- The attributes after addresses were offered to them in order. -/
def recordAll (attrs : Attributes) (offers : List PeerAddress) : Attributes :=
  offers.foldl (fun attrs address => (attrs.record address).2) attrs

theorem recordAll_concat (attrs : Attributes) (offers : List PeerAddress) (address : PeerAddress) :
    attrs.recordAll (offers ++ [address]) = ((attrs.recordAll offers).record address).2 :=
  List.foldl_concat ..

/-- An offer succeeds just if it is the first, and it changes nothing if it is not. -/
theorem record_of_offers {attrs : Attributes} {offers : List PeerAddress}
    (h : attrs.remote = offers.head?) (address : PeerAddress) :
    (attrs.record address).1 = offers.isEmpty ∧
      (attrs.record address).2.remote = (offers ++ [address]).head? ∧
      (offers ≠ [] → (attrs.record address).2 = attrs) := by
  cases offers with
  | nil => simp [record, show attrs.remote = none from h]
  | cons first offers => simp [record, show attrs.remote = some first from h]

/-- **Attributes hold the first address that is offered to them.** -/
theorem remote_recordAll (offers : List PeerAddress) :
    (empty.recordAll offers).remote = offers.head? := by
  induction offers using List.reverseRecOn with
  | nil => rfl
  | append_singleton offers address ih =>
    rw [recordAll_concat]
    exact (record_of_offers ih address).2.1

end Attributes

/-- The peer to be recorded when these addresses have been offered: the first one, or the
stand-in. -/
def firstOffered (offers : List PeerAddress) : PeerAddress := offers.head?.getD .dummy

/-- A store after addresses were offered through a handle in order. -/
def AttributeStore.recordAll (s : AttributeStore) (h : AttributeHandle)
    (offers : List PeerAddress) : AttributeStore :=
  offers.foldl (fun s address => (s.record h address).2) s

theorem AttributeStore.get_recordAll {s : AttributeStore} {h : AttributeHandle} (hs : s.Has h)
    (offers : List PeerAddress) :
    (s.recordAll h offers).get h = (s.get h).recordAll offers := by
  induction offers generalizing s with
  | nil => rfl
  | cons address offers ih =>
    have hfirst := AttributeStore.get_record hs address h
    rw [if_pos rfl] at hfirst
    show ((s.record h address).2.recordAll h offers).get h = _
    rw [ih (hs.record h address), hfirst]
    rfl

theorem Attributes.peer_of_offers {attrs : Attributes} {offers : List PeerAddress}
    (h : attrs.remote = offers.head?) : attrs.peer = firstOffered offers :=
  congrArg (Option.getD · _) h

/-! ## Calls -/

theorem Records.kind_eq {stack : List Tap} {side : Side} {kind : EventKind} {content : Content}
    {entries : List Entry} (h : Records stack side kind content entries) {e : Entry}
    (he : e ∈ entries) : e.kind = kind := by
  obtain ⟨event, levels, -, rfl, -, -, rfl⟩ := h
  obtain ⟨tap, -, rfl⟩ := List.mem_map.1 he
  rfl

namespace Call

/-- Received headers are logged with the peer that the attributes hold. -/
theorem peer_of_toLog {c : Call} {attrs : Attributes} {stack : List Tap} {op : Operation}
    {entries : List Entry} (hc : c.Stacked stack) (h : c.toLog attrs stack op = some entries)
    {e : Entry} (he : e ∈ entries) (hkind : e.kind = .recvInitialMetadata) :
    e.peer = some attrs.peer.record := by
  rcases Call.records_of_toLog hc h with rfl | ⟨kind, content, hevent, hrecords⟩
  · cases he
  · -- the operation is a callback with response headers, and these only a client's listener gets
    rw [← hrecords.kind_eq he, hkind] at hevent
    cases op <;> simp [Operation.event] at hevent
    cases c with
    | server c => cases h
    | client c =>
      obtain ⟨l, -, rfl⟩ := Option.map_eq_some_iff.1 h
      obtain ⟨tap, -, rfl⟩ := List.mem_map.1 he
      rfl

end Call

namespace Session

/-! ## Offers -/

/-- The addresses offered to the attributes of a call after an action, when `offers` were before:
opening the call begins anew with the address that is known then, if there is one. -/
def Action.offer (name : String) (offers : List PeerAddress) : Action → List PeerAddress
  | openClient call _ _ remote | openServer call _ _ remote _ =>
    if call = name then remote.toList else offers
  | setPeer call _ address => if call = name then offers ++ [address] else offers
  | _ => offers

/-- The addresses that a script offers to the attributes of a call since it last opened the call. -/
def offered (name : String) (script : List Step) : List PeerAddress :=
  script.foldl (fun offers st => st.action.offer name offers) []

theorem offered_concat (name : String) (script : List Step) (st : Step) :
    offered name (script ++ [st]) = st.action.offer name (offered name script) :=
  List.foldl_concat ..

theorem Action.offer_of_call_ne {a : Action} {name : String} (h : a.call ≠ some name)
    (offers : List PeerAddress) : a.offer name offers = offers := by
  cases a <;> simp only [call, ne_eq, Option.some.injEq] at h <;> simp [offer, h]

/-! ## Plans -/

/-- An operation on a call is skipped, or it is a pass over the levels that have to log it. -/
theorem Action.operate_plan (table : Config.RuleTable) (fresh : AttributeHandle) (name : String)
    (op : Operation) (σ : CallState) :
    (operate name op).plan table fresh (some σ) = .answer .skipped (some σ) ∨
      ∃ logs, σ.call.toLog σ.attributes σ.call.stack op = some logs ∧
        (operate name op).plan table fresh (some σ) = .pass logs (.operation op) .ofResult
          fun n result => some { σ with call := σ.call.after op n result } := by
  cases hlog : σ.call.toLog σ.attributes σ.call.stack op with
  | none => simp [plan, hlog]
  | some logs => simp [plan, hlog]

section
variable {table : Config.RuleTable} {fresh : AttributeHandle} {a : Action} {name : String}
  {state next : Option CallState} {offers : List PeerAddress} {w w' : Surroundings}
  {outcome : Outcome}

/-- If the attributes of a call hold the first offer, they do so after an action on it. -/
theorem plan_remote (ha : a.call = some name)
    (hstate : ∀ σ ∈ state, σ.attributes.remote = offers.head?) {σ : CallState}
    (hruns : (a.plan table fresh state).Runs w outcome (some σ) w') :
    σ.attributes.remote = (a.offer name offers).head? := by
  cases a with
  | openClient =>
    cases ha
    cases hruns
    simp [Action.offer]
  | openServer =>
    cases ha
    obtain ⟨n, result, -, -, hσ⟩ := hruns.of_pass
    cases result <;> cases hσ
    simp [Action.offer]
  | setPeer _ holder address =>
    cases ha
    cases state with
    | none => cases hruns
    | some σ₀ =>
      cases hruns
      rw [Action.offer, if_pos rfl]
      exact (Attributes.record_of_offers (hstate σ₀ rfl) address).2.1
  | operate _ op =>
    cases ha
    cases state with
    | none => cases hruns
    | some σ₀ =>
      rcases Action.operate_plan table fresh name op σ₀ with hplan | ⟨logs, -, hplan⟩ <;>
        rw [hplan] at hruns <;> cases hruns
      · exact hstate σ rfl
      · exact hstate σ₀ rfl
  | setCancelled =>
    cases ha
    rcases state with _ | ⟨c | c, attrs⟩ <;> cases hruns
    · exact hstate _ rfl
    · exact hstate ⟨.server c, attrs⟩ rfl
  | peer | isCancelled | methodName =>
    cases ha
    rcases state with _ | ⟨_ | _, attrs⟩ <;> cases hruns <;> exact hstate _ rfl
  | resolve | entries | drain => cases ha

/-- The entries that levels have to log in a plan. -/
def Plan.entries : Plan → List Entry
  | pass entries _ _ _ => entries
  | answer _ _ | note _ _ _ => []

theorem Plan.Runs.mem_entries {plan : Plan} (h : plan.Runs w outcome next w') (hw : w.trace = [])
    {e : Entry} (he : e ∈ handed w'.trace) : e ∈ plan.entries := by
  cases h with
  | answer =>
    rw [hw] at he
    cases he
  | note =>
    rw [Surroundings.note, hw] at he
    cases he
  | pass hp =>
    rw [hp.handed_eq, hw] at he
    exact List.mem_of_mem_take he

/-- The peer in an entry for received headers is the one that is known after the action. -/
theorem peer_of_plan (ha : a.call = some name) (hs : ∀ σ ∈ state, σ.call.Stacked σ.call.stack)
    (hstate : ∀ σ ∈ state, σ.attributes.remote = offers.head?) {e : Entry}
    (he : e ∈ (a.plan table fresh state).entries) (hkind : e.kind = .recvInitialMetadata) :
    e.peer = some (firstOffered (a.offer name offers)).record := by
  cases a with
  | openServer =>
    cases ha
    obtain ⟨tap, -, rfl⟩ := List.mem_map.1 he
    rw [Action.offer, if_pos rfl, firstOffered, Option.head?_toList]
    rfl
  | operate _ op =>
    cases ha
    cases state with
    | none => cases he
    | some σ =>
      rcases Action.operate_plan table fresh name op σ with hplan | ⟨logs, hlog, hplan⟩ <;>
        rw [hplan] at he
      · cases he
      · rw [Call.peer_of_toLog (hs σ rfl) hlog he hkind, Attributes.peer_of_offers (hstate σ rfl)]
        rfl
  | openClient | resolve | entries | drain => cases he
  | peer | setPeer | isCancelled | setCancelled | methodName =>
    rcases state with _ | ⟨_ | _, attrs⟩ <;> cases he

end

/-! ## Steps and runs -/

section
variable {s : Session} {st : Step} {name : String} {offers : List PeerAddress}

theorem step_remote (hs : s.Reachable)
    (hoffers : ∀ σ ∈ s.calls.state name, σ.attributes.remote = offers.head?) {σ : CallState}
    (hσ : (s.step st).2.calls.state name = some σ) :
    σ.attributes.remote = (st.action.offer name offers).head? := by
  by_cases hcall : st.action.call = some name
  · obtain ⟨w', hruns, -, -⟩ := step_plan hcall hs.sound
    rw [hσ] at hruns
    exact plan_remote hcall hoffers hruns
  · rw [step_other_state hs.sound hcall] at hσ
    rw [Action.offer_of_call_ne hcall, hoffers σ hσ]

theorem step_peer (hs : s.Reachable)
    (hoffers : ∀ σ ∈ s.calls.state name, σ.attributes.remote = offers.head?)
    (hcall : st.action.call = some name) {e : Entry} (he : e ∈ handed (s.step st).1.trace)
    (hkind : e.kind = .recvInitialMetadata) :
    e.peer = some (firstOffered (st.action.offer name offers)).record := by
  obtain ⟨w', hruns, htrace, -⟩ := step_plan hcall hs.sound
  rw [htrace] at he
  have hstacked : ∀ σ ∈ s.calls.state name, σ.call.Stacked σ.call.stack :=
    fun σ hσ => hs.sound.stacked (Calls.of_state hσ).1
  exact peer_of_plan hcall hstacked hoffers (hruns.mem_entries rfl he) hkind

/-- An offer is answered by whether it is the first, and if not it leaves the session alone,
whoever makes it. -/
theorem step_setPeer (hs : s.Reachable) {holder : Holder} {address : PeerAddress}
    (ha : st.action = .setPeer name holder address) {c : Call} (hc : s.calls name = some c)
    (hoffers : (s.calls.attributes.get c.attributes).remote = offers.head?) :
    (s.step st).1.outcome = .answered (.flag offers.isEmpty) ∧
      (offers ≠ [] → (s.step st).2 = s) := by
  have hhandle := (hs.sound.aliased hc).handle_eq holder
  rw [step, ha]
  simp only [perform, hc, hhandle]
  refine ⟨?_, fun hne => ?_⟩
  · rw [AttributeStore.fresh_record, hoffers]
    cases offers <;> rfl
  · obtain ⟨first, rest, rfl⟩ := List.exists_cons_of_ne_nil hne
    rw [AttributeStore.record_of_some (hs.sound.has hc) hoffers]

end

/-- **The attributes of a call hold the first address that was offered to them** since the call was
opened, whatever a script does. -/
theorem remote_of_run {table : Config.RuleTable} {sink : Sink} {script : List Step} {name : String}
    {σ : CallState} (h : ((start table sink).run script).2.calls.state name = some σ) :
    σ.attributes.remote = (offered name script).head? := by
  induction script using List.reverseRecOn generalizing σ with
  | nil => cases h
  | append_singleton script st ih =>
    rw [run_append] at h
    rw [offered_concat]
    exact step_remote (.of_run table sink script) (fun σ => ih) h

/-- **All handles of a call see the first address that was offered through any of them**, and they
are onto one cell, which no other call has a handle onto. -/
theorem handles_of_run (table : Config.RuleTable) (sink : Sink) (script : List Step) :
    let calls := ((start table sink).run script).2.calls
    ∀ name c, calls name = some c →
      (∀ h ∈ c.handles, h.cell = c.attributes.cell ∧
        (calls.attributes.get h).remote = (offered name script).head?) ∧
      ∀ name' c', calls name' = some c' → name' ≠ name →
        ∀ h ∈ c.handles, ∀ h' ∈ c'.handles, h.cell ≠ h'.cell := by
  intro calls name c hc
  have hsound : calls.Sound := (Reachable.of_run table sink script).sound
  have hone : ∀ h ∈ c.handles, h = c.attributes := hsound.aliased hc
  refine ⟨fun h hh => ?_, fun name' c' hc' hne h hh h' hh' hcell => ?_⟩
  · rw [hone h hh]
    exact ⟨rfl, remote_of_run (Calls.state_of_some hc)⟩
  · rw [hone h hh, hsound.aliased hc' h' hh'] at hcell
    exact hsound.apart hc hc' hne.symm (congrArg AttributeHandle.mk hcell)

/-- The entries for received headers of a step in a run. -/
theorem peer_of_handed (table : Config.RuleTable) (sink : Sink) (before : List Step) (st : Step)
    {e : Entry} (he : e ∈ handed (((start table sink).run before).2.step st).1.trace)
    (hkind : e.kind = .recvInitialMetadata) :
    ∃ name method ids, st.action.call = some name ∧
      lastOpening name (before ++ [st]) = some (method, ids) ∧ e.callId ∈ ids ∧
      e.peer = some (firstOffered (offered name (before ++ [st]))).record := by
  obtain ⟨name, content, method, ids, hevent, hlast, hid⟩ :=
    origin_of_handed table sink before st he
  have hcall := Action.call_of_event hevent
  refine ⟨name, method, ids, hcall, hlast, hid, ?_⟩
  rw [offered_concat]
  exact step_peer (.of_run table sink before) (fun σ => remote_of_run) hcall he hkind

/-- **The recorded peer is the first address that was offered.** In a run of any script, each entry
for received headers that a step hands to the sink has the peer that was first offered to the
attributes of its call since this was opened, or the stand-in if none was up to this step. It does
not matter who offers it: the transport's handle, the call's own, the one that the call gives out
through its taps and those that the levels on its listener took when it was started are onto one
cell, and see the address there, and no other call has a handle onto that cell. An offer is answered
by whether it is the first, and it changes nothing if it is not. And the entries for a call that
arrives have the peer that was first offered to its attributes before, or the stand-in. -/
theorem recorded_peer_is_first_offered (table : Config.RuleTable) (sink : Sink)
    (before after : List Step) (st : Step) :
    let s := ((start table sink).run before).2
    (∃ r, ((start table sink).run (before ++ st :: after)).1[before.length]? = some r ∧
      (∀ e ∈ handed r.trace, e.kind = .recvInitialMetadata →
        ∃ name method ids, st.action.call = some name ∧
          lastOpening name (before ++ [st]) = some (method, ids) ∧ e.callId ∈ ids ∧
          e.peer = some (firstOffered (offered name (before ++ [st]))).record) ∧
      ∀ name holder address, st.action = .setPeer name holder address →
        ∀ c, s.calls name = some c →
          r.outcome = .answered (.flag (offered name before).isEmpty) ∧
          (offered name before ≠ [] → ((start table sink).run (before ++ [st])).2 = s)) ∧
    (∀ name c, s.calls name = some c →
      (∀ h ∈ c.handles, h.cell = c.attributes.cell ∧
        (s.calls.attributes.get h).remote = (offered name before).head?) ∧
      ∀ name' c', s.calls name' = some c' → name' ≠ name →
        ∀ h ∈ c.handles, ∀ h' ∈ c'.handles, h.cell ≠ h'.cell) ∧
    ∀ method store offers headers stack w, ∃ entries,
      let (transport, store) := AttributeStore.create store .empty
      handed (ServerCall.intercept method (store.recordAll transport offers) transport headers stack
        w).2.trace = handed w.trace ++ entries ∧
      ∀ e ∈ entries, e.kind = .recvInitialMetadata ∧
        e.peer = some (firstOffered offers).record := by
  intro s
  refine ⟨⟨_, run_reports _ before after st, fun e => peer_of_handed table sink before st, ?_⟩,
    handles_of_run table sink before, ?_⟩
  · intro name holder address ha c hc
    rw [run_append]
    exact step_setPeer (.of_run table sink before) ha hc (remote_of_run (Calls.state_of_some hc))
  · intro method store offers headers stack w
    have hget : ((store.create .empty).2.recordAll store.fresh offers).get store.fresh =
        Attributes.empty.recordAll offers := by
      rw [AttributeStore.get_recordAll (store.has_fresh _), AttributeStore.get_create, if_pos rfl]
    obtain ⟨n, result, w', hp, heq⟩ := ServerCall.intercept_pass method
      ((store.create .empty).2.recordAll store.fresh offers) store.fresh headers stack w
    rw [hget] at hp
    refine ⟨_, (congrArg (handed ·.2.trace) heq).trans hp.handed_eq, fun e he => ?_⟩
    obtain ⟨tap, -, rfl⟩ := List.mem_map.1 (List.mem_of_mem_take he)
    have hpeer := Attributes.peer_of_offers (Attributes.remote_recordAll offers)
    exact ⟨rfl, congrArg (fun peer => some (PeerAddress.record peer)) hpeer⟩

/-- The peer becomes known to the transport after the response headers could not be logged. When
they come again, both levels record it, and a later offer through the call has made no difference.
The two levels took their handles when the call was started; they see the peer as the transport
does, and not that of another call. -/
theorem recorded_peer_is_first_offered_of_two :
    let ids : List CallId := [⟨0, 1⟩, ⟨0, 2⟩]
    let table : Config.RuleTable := ⟨[⟨.all, .unbounded⟩], []⟩
    let address (last : UInt8) : PeerAddress := .inet (.v4 ⟨127, 0, 0, last⟩ 80)
    let headers : Step := ⟨.operate "c" (.onHeaders []), none, none⟩
    let late : Step := ⟨.setPeer "c" .application (address 2), none, none⟩
    let known : List Step := [⟨.openClient "c" "a/b" ids none, none, none⟩,
      ⟨.operate "c" (.start []), none, none⟩, { headers with sinkFault := some "disk full" },
      ⟨.openClient "d" "a/b" [⟨0, 3⟩] (some (address 3)), none, none⟩,
      ⟨.setPeer "c" .transport (address 1), none, none⟩]
    let after (script : List Step) : Session := ((start table (.memory [])).run script).2
    let retried := handed ((after (known ++ [late])).step headers).1.trace
    (retried.map Entry.callId = ids.reverse ∧ (∀ e ∈ retried, e.kind = .recvInitialMetadata) ∧
      ∀ e ∈ retried, e.peer = some (address 1).record) ∧
    ((after known).step late).1.outcome = .answered (.flag false) ∧
      after (known ++ [late]) = after known ∧
    ∃ c d, (after known).calls "c" = some c ∧ (after known).calls "d" = some d ∧
      c.handles.length = 5 ∧
      (∀ h ∈ c.handles, ((after known).calls.attributes.get h).remote = some (address 1)) ∧
      ∀ h ∈ c.handles, ∀ h' ∈ d.handles, h.cell ≠ h'.cell := by
  intro ids table address headers late known after retried
  have hids : retried.map Entry.callId = ids.reverse := by decide +kernel
  have hkind : ∀ e ∈ retried, e.kind = .recvInitialMetadata := by decide +kernel
  have hc : ((after known).calls "c").isSome := by decide +kernel
  have hd : ((after known).calls "d").isSome := by decide +kernel
  have hlevels : ∀ c ∈ (after known).calls "c", c.handles.length = 5 := by decide +kernel
  have hoffered : offered "c" known = [address 1] := rfl
  obtain ⟨c, hc⟩ := Option.isSome_iff_exists.1 hc
  obtain ⟨d, hd⟩ := Option.isSome_iff_exists.1 hd
  obtain ⟨⟨r, hr, hpeer, -⟩, -⟩ :=
    recorded_peer_is_first_offered table (.memory []) (known ++ [late]) [] headers
  obtain ⟨⟨r', hr', -, hset⟩, hhandles, -⟩ :=
    recorded_peer_is_first_offered table (.memory []) known [] late
  obtain rfl := Option.some.inj (hr.symm.trans (run_reports _ _ [] headers))
  obtain rfl := Option.some.inj (hr'.symm.trans (run_reports _ _ [] late))
  obtain ⟨houtcome, hsame⟩ := hset "c" .application (address 2) rfl c hc
  obtain ⟨hsees, hapart⟩ := hhandles "c" c hc
  rw [hoffered] at houtcome hsame hsees
  refine ⟨⟨hids, hkind, fun e he => ?_⟩, houtcome, hsame (List.cons_ne_nil _ _), c, d, hc, hd,
    hlevels c hc, fun h hh => (hsees h hh).2, hapart "d" d hd (by decide)⟩
  obtain ⟨name, method, ids', hname, -, -, heq⟩ := hpeer e he (hkind e he)
  cases hname
  exact heq

end Session

end BinaryLog
