import BinaryLog.Proofs.Session.Paired
import BinaryLog.Proofs.Session.Received
import Mathlib.Data.List.Pairwise

/-!
# Calls do not disturb each other

When calls with names and ids of their own are made over one sink in memory that refuses nothing,
what the log holds of each is what it would hold if the others were not there.

* `own_steps_alike`: the steps of a call log what they do when they are run alone.
* `filter_logOf`: nothing else is logged under the ids of the call.
* `calls_logged_apart`: so the entries under these ids are those of the run of these steps, in the
  order of the call's events.
-/

namespace BinaryLog

/-- Where in the life of a call an event belongs. -/
def EventKind.stage : EventKind → Nat
  | sendInitialMetadata | recvInitialMetadata => 0
  | sendMessage | recvMessage => 1
  | sendTrailingMetadata | recvTrailingMetadata => 2

namespace Session

/-- Whether a step is about a call. -/
def Step.isAbout (name : String) (st : Step) : Bool := st.action.call = some name

/-- The steps of a script that are about a call. -/
def stepsOf (name : String) (script : List Step) : List Step := script.filter (·.isAbout name)

/-- The events that a script consists of, in order. -/
def eventKinds (script : List Step) : List EventKind :=
  script.filterMap fun st => st.action.event.map fun event => event.2.1

/-- The name and the ids of the call that an action opens. -/
def Action.opens : Action → Option (String × List CallId)
  | .openClient name _ ids _ | .openServer name _ ids _ _ => some (name, ids)
  | _ => none

/-- The calls that a script opens, by name and ids. -/
def openings (script : List Step) : List (String × List CallId) :=
  script.filterMap fun st => st.action.opens

/-- Two calls have names and ids of their own. -/
def Apart (c d : String × List CallId) : Prop := c.1 ≠ d.1 ∧ ∀ id ∈ c.2, id ∉ d.2

instance : DecidableRel Apart := fun _ _ => inferInstanceAs (Decidable (_ ∧ _))

/-! ## The steps of a call run alone -/

/-- The steps of a run that are about a call, with what they report. -/
def ownSteps (name : String) (script : List Step) (reports : List Report) : List (Step × Report) :=
  (script.zip reports).filter fun p => p.1.isAbout name

section
variable {s s' : Session} {name : String}

theorem ownSteps_cons_of_call {st : Step} (h : st.action.call = some name) (script : List Step)
    (r : Report) (reports : List Report) :
    ownSteps name (st :: script) (r :: reports) = (st, r) :: ownSteps name script reports :=
  List.filter_cons_of_pos (decide_eq_true h)

theorem ownSteps_cons_of_call_ne {st : Step} (h : st.action.call ≠ some name) (script : List Step)
    (r : Report) (reports : List Report) :
    ownSteps name (st :: script) (r :: reports) = ownSteps name script reports :=
  List.filter_cons_of_neg (by simpa [Step.isAbout] using h)

theorem stepsOf_cons_of_call {st : Step} (h : st.action.call = some name) (script : List Step) :
    stepsOf name (st :: script) = st :: stepsOf name script :=
  List.filter_cons_of_pos (decide_eq_true h)

theorem stepsOf_cons_of_call_ne {st : Step} (h : st.action.call ≠ some name)
    (script : List Step) : stepsOf name (st :: script) = stepsOf name script :=
  List.filter_cons_of_neg (by simpa [Step.isAbout] using h)

/-- Calls in the same state, though their handles may lead to different cells, or none. -/
abbrev SameState : Option CallState → Option CallState → Prop := Option.Rel (CallState.Paired Eq)

/-- **The steps of a call log what they do when they are run alone**, over a sink in memory: the
call is in the same state before each of them. -/
theorem own_steps_alike {held : List Entry} (hs : s.Reachable) (hs' : s'.Reachable)
    (htable : s.table = s'.table) (hstate : SameState (s.calls.state name) (s'.calls.state name))
    (hheld : s'.sink = .memory held) (script : List Step)
    (hok : ∀ r ∈ (s.run script).1, noneRefused r.trace) :
    (ownSteps name script (s.run script).1).map (accepted ·.2.trace) =
      (s'.run (stepsOf name script)).1.map (accepted ·.trace) := by
  -- the other steps leave the call in the state in which the run alone has it
  induction script generalizing s s' held with
  | nil => rfl
  | cons st script ih =>
    have hfirst : noneRefused (s.step st).1.trace := hok _ List.mem_cons_self
    have hrest : ∀ r ∈ ((s.step st).2.run script).1, noneRefused r.trace :=
      fun r hr => hok r (List.mem_cons_of_mem _ hr)
    show (ownSteps name (st :: script) ((s.step st).1 :: ((s.step st).2.run script).1)).map _ = _
    by_cases hcall : st.action.call = some name
    case pos =>
      have hplan : Plan.Alike Eq SameState (s.planOf name st) (s'.planOf name st) := by
        refine (Action.Alike.refl st.action).plan_alike recorded_eq hcall (fun method ids _ => ?_)
          fun _ => hstate
        rw [htable, List.forall₂_eq_eq_eq]
      have hfirst' := step_noneRefused hs hs' hcall hplan hheld hfirst
      obtain ⟨-, hnext, hhanded⟩ := steps_alike hs hs' hcall hcall hplan rfl hfirst hfirst'
      rw [List.forall₂_eq_eq_eq, ← accepted_eq_handed hfirst, ← accepted_eq_handed hfirst']
        at hhanded
      have hlater := ih (hs.step st) (hs'.step st) htable hnext (step_held hs' hheld) hrest
      rw [ownSteps_cons_of_call hcall, stepsOf_cons_of_call hcall, List.map_cons, hhanded, hlater]
      rfl
    case neg =>
      have hsame : SameState ((s.step st).2.calls.state name) (s'.calls.state name) := by
        rw [step_other_state hs.sound hcall]
        exact hstate
      have hlater := ih (hs.step st) hs' htable hsame hheld hrest
      rw [ownSteps_cons_of_call_ne hcall, stepsOf_cons_of_call_ne hcall, hlater]

/-! ## What is logged under the ids of a call -/

theorem mem_openings {script : List Step} {method : String} {ids : List CallId}
    (h : lastOpening name script = some (method, ids)) : (name, ids) ∈ openings script := by
  obtain ⟨st, hst, hopen⟩ := List.exists_of_findSome?_eq_some h
  refine List.mem_filterMap.2 ⟨st, List.mem_reverse.1 hst, ?_⟩
  cases ha : st.action with
  | openClient | openServer =>
    simp only [ha, Action.opening, Option.ite_none_right_eq_some, Option.some.injEq,
      Prod.mk.injEq] at hopen
    obtain ⟨rfl, -, rfl⟩ := hopen
    rfl
  | operate | peer | setPeer | isCancelled | setCancelled | methodName | resolve | entries
    | drain =>
    rw [ha] at hopen
    cases hopen

/-- An entry that a sink takes is of the event that the step is, and under an id of its call. -/
theorem origin_of_accepted (table : Config.RuleTable) (sink : Sink) {script : List Step}
    {p : Step × Report} (hp : p ∈ script.zip ((start table sink).run script).1) {e : Entry}
    (he : e ∈ accepted p.2.trace) :
    ∃ name content ids, p.1.action.event = some (name, e.kind, content) ∧
      (name, ids) ∈ openings script ∧ e.callId ∈ ids := by
  obtain ⟨before, after, rfl, hreport⟩ := mem_zip_run hp
  rw [hreport] at he
  obtain ⟨name, content, method, ids, hevent, hlast, hid⟩ :=
    origin_of_handed table sink before p.1 (accepted_subset_handed _ he)
  refine ⟨name, content, ids, hevent, ?_, hid⟩
  have hopened := mem_openings hlast
  simp only [openings, List.filterMap_append, List.mem_append, List.filterMap_cons] at hopened ⊢
  rcases hopened with hopened | hopened
  · exact .inl hopened
  · right
    split <;> simp_all

theorem filter_flatMap_of_eq {α β : Type} {l : List α} {f : α → List β} {p : α → Bool}
    {q : β → Bool} (h : ∀ a ∈ l, ∀ b ∈ f a, q b = p a) :
    (l.flatMap f).filter q = (l.filter p).flatMap f := by
  induction l with
  | nil => rfl
  | cons a l ih =>
    have hrest := ih fun a' ha' => h a' (List.mem_cons_of_mem _ ha')
    have hfirst := h a List.mem_cons_self
    rw [List.flatMap_cons, List.filter_append, hrest]
    cases hp : p a with
    | true =>
      rw [List.filter_cons_of_pos hp, List.flatMap_cons, List.filter_eq_self.2]
      exact fun b hb => (hfirst b hb).trans hp
    | false =>
      rw [List.filter_cons_of_neg (by simp [hp]), List.filter_eq_nil_iff.2, List.nil_append]
      exact fun b hb => by simp [hfirst b hb, hp]

instance : Std.Symm Apart := ⟨fun _ _ h => ⟨Ne.symm h.1, fun id hid hid' => h.2 id hid' hid⟩⟩

theorem ids_unique {script : List Step} (hapart : (openings script).Pairwise Apart)
    {ids ids' : List CallId} (h : (name, ids) ∈ openings script)
    (h' : (name, ids') ∈ openings script) : ids = ids' := by
  by_contra hne
  have hother : (name, ids) ≠ (name, ids') := fun heq => hne (Prod.mk.inj heq).2
  exact (hapart.forall h h' hother).1 rfl

/-- **Under ids of its own nothing is logged but by the steps of the call.** -/
theorem filter_logOf (table : Config.RuleTable) (sink : Sink) {script : List Step}
    {ids : List CallId} (hapart : (openings script).Pairwise Apart)
    (hopened : (name, ids) ∈ openings script) :
    let reports := ((start table sink).run script).1
    (logOf reports).filter (·.callId ∈ ids) =
      (ownSteps name script reports).flatMap (accepted ·.2.trace) := by
  intro reports
  have hown : ∀ p ∈ script.zip reports, ∀ e ∈ accepted p.2.trace,
      decide (e.callId ∈ ids) = p.1.isAbout name := by
    intro p hp e he
    obtain ⟨other, content, ids', hevent, hopened', hid⟩ := origin_of_accepted table sink hp he
    have hcall : p.1.action.call = some other := Action.call_of_event hevent
    by_cases hname : other = name
    · subst hname
      have hids := ids_unique hapart hopened hopened'
      simp [Step.isAbout, hcall, hids, hid]
    · have hother : (other, ids') ≠ (name, ids) := fun heq => hname (Prod.mk.inj heq).1
      have hnot := (hapart.forall hopened' hopened hother).2 _ hid
      simp [Step.isAbout, hcall, hname, hnot]
  have hlog : logOf reports = (script.zip reports).flatMap (accepted ·.2.trace) := by
    have hreports : (script.zip reports).map Prod.snd = reports :=
      List.map_snd_zip (Nat.le_of_eq (length_run _ script))
    rw [logOf, ← hreports, List.flatMap_map, hreports]
  rw [hlog]
  exact filter_flatMap_of_eq hown

theorem pairwise_stage {script : List Step} {reports : List Report}
    (hlen : reports.length = script.length)
    (hkind : ∀ p ∈ ownSteps name script reports, ∀ e ∈ accepted p.2.trace,
      ∃ content, p.1.action.event = some (name, e.kind, content))
    (h : (eventKinds (stepsOf name script)).Pairwise (·.stage ≤ ·.stage)) :
    ((ownSteps name script reports).flatMap (accepted ·.2.trace)).Pairwise
      (·.kind.stage ≤ ·.kind.stage) := by
  have hsteps : (ownSteps name script reports).map Prod.fst = stepsOf name script := by
    calc (ownSteps name script reports).map Prod.fst
      _ = ((script.zip reports).map Prod.fst).filter (·.isAbout name) := by
        rw [List.filter_map, ownSteps]
        rfl
      _ = stepsOf name script := by rw [List.map_fst_zip (Nat.le_of_eq hlen.symm), stepsOf]
  rw [← hsteps, eventKinds, List.filterMap_map, List.pairwise_filterMap] at h
  -- one step logs one event at every level, and two steps log two events of the call
  refine List.pairwise_flatMap.2 ⟨fun p hp => ?_, h.imp_of_mem fun {p q} hp hq hstages => ?_⟩
  · refine List.pairwise_of_forall_mem_list fun e he e' he' => ?_
    obtain ⟨content, hevent⟩ := hkind p hp e he
    obtain ⟨content', hevent'⟩ := hkind p hp e' he'
    rw [hevent, Option.some.injEq, Prod.mk.injEq, Prod.mk.injEq] at hevent'
    exact Nat.le_of_eq (congrArg EventKind.stage hevent'.2.1)
  · intro e he e' he'
    obtain ⟨content, hevent⟩ := hkind p hp e he
    obtain ⟨content', hevent'⟩ := hkind q hq e' he'
    exact hstages _ (by simp [hevent]) _ (by simp [hevent'])

end

/-- **Calls do not disturb each other in the log.** Let a script open calls with names and ids of
their own over one sink in memory that refuses nothing. Of all that the sink receives, the entries
under the ids of one call are just what it receives when the steps of this call are run alone. They
are what these steps log, step by step and each its own event, so that they follow the life of a
call if the steps do. -/
theorem calls_logged_apart (table : Config.RuleTable) (script : List Step) (name : String)
    (ids : List CallId) :
    let empty := start table (.memory [])
    let reports := (empty.run script).1
    let own := ownSteps name script reports
    let log := (empty.received script).filter (·.callId ∈ ids)
    (∀ r ∈ reports, noneRefused r.trace) → (openings script).Pairwise Apart →
    (name, ids) ∈ openings script →
    log = empty.received (stepsOf name script) ∧
      log = own.flatMap (accepted ·.2.trace) ∧
      (∀ p ∈ own, ∀ e ∈ accepted p.2.trace,
        ∃ content, p.1.action.event = some (name, e.kind, content)) ∧
      ((eventKinds (stepsOf name script)).Pairwise (·.stage ≤ ·.stage) →
        log.Pairwise (·.kind.stage ≤ ·.kind.stage)) := by
  intro empty reports own log hok hapart hopened
  have hempty : empty.Reachable := .of_run table (.memory []) []
  have hown : log = own.flatMap (accepted ·.2.trace) := by
    simp only [log, received_eq hempty rfl, List.nil_append]
    exact filter_logOf table (.memory []) hapart hopened
  have halone : empty.received (stepsOf name script) = own.flatMap (accepted ·.2.trace) := by
    have halike : own.map (accepted ·.2.trace) =
        (empty.run (stepsOf name script)).1.map (accepted ·.trace) :=
      own_steps_alike hempty hempty rfl .none rfl script hok
    rw [received_eq hempty rfl, List.nil_append, logOf, List.flatMap_def, ← halike,
      List.flatMap_def]
  have hkind : ∀ p ∈ own, ∀ e ∈ accepted p.2.trace,
      ∃ content, p.1.action.event = some (name, e.kind, content) := by
    intro p hp e he
    obtain ⟨hzip, habout⟩ := List.mem_filter.1 hp
    obtain ⟨other, content, -, hevent, -⟩ := origin_of_accepted table (.memory []) hzip he
    have hother := Action.call_of_event hevent
    rw [of_decide_eq_true habout] at hother
    cases hother
    exact ⟨content, hevent⟩
  refine ⟨hown.trans halone.symm, hown, hkind, fun hstages => ?_⟩
  rw [hown]
  exact pairwise_stage (length_run _ script) hkind hstages

/-- A client and a server call take turns, and the sink is drained in between. -/
theorem calls_logged_apart_of_two :
    let table : Config.RuleTable := ⟨[⟨.all, ⟨3, 1⟩⟩], []⟩
    let script : List Step := [⟨.openClient "c" "a/b" [⟨0, 1⟩, ⟨0, 2⟩] none, none, none⟩,
      ⟨.operate "c" (.start [⟨[1], [2]⟩]), none, none⟩,
      ⟨.openServer "s" "a/b" [⟨0, 3⟩] none [⟨[1], [2]⟩], none, none⟩,
      ⟨.operate "c" (.onHeaders []), none, none⟩,
      ⟨.operate "s" (.onMessage [7, 8]), some "down", none⟩,
      ⟨.drain, none, none⟩,
      ⟨.operate "c" (.sendMessage [7, 8]), none, none⟩,
      ⟨.operate "s" (.close .ok []), none, none⟩,
      ⟨.operate "c" (.onClose .ok []), none, none⟩]
    let empty := start table (.memory [])
    let reports := (empty.run script).1
    let own := ownSteps "c" script reports
    let log := (empty.received script).filter (·.callId ∈ [⟨0, 1⟩, ⟨0, 2⟩])
    ((∀ r ∈ reports, noneRefused r.trace) ∧ (openings script).Pairwise Apart ∧
      ("c", [⟨0, 1⟩, ⟨0, 2⟩]) ∈ openings script ∧
      (eventKinds (stepsOf "c" script)).Pairwise (·.stage ≤ ·.stage)) ∧
    log = empty.received (stepsOf "c" script) ∧
      log = own.flatMap (accepted ·.2.trace) ∧
      (∀ p ∈ own, ∀ e ∈ accepted p.2.trace,
        ∃ content, p.1.action.event = some ("c", e.kind, content)) ∧
      log.Pairwise (·.kind.stage ≤ ·.kind.stage) := by
  intro table script empty reports own log
  have hok : ∀ r ∈ reports, noneRefused r.trace := by decide
  have hapart : (openings script).Pairwise Apart := by decide
  have hopened : ("c", [⟨0, 1⟩, ⟨0, 2⟩]) ∈ openings script := by decide
  have hstages : (eventKinds (stepsOf "c" script)).Pairwise (·.stage ≤ ·.stage) := by decide
  obtain ⟨halone, hown, hkind, hlife⟩ :=
    calls_logged_apart table script "c" [⟨0, 1⟩, ⟨0, 2⟩] hok hapart hopened
  exact ⟨⟨hok, hapart, hopened, hstages⟩, halone, hown, hkind, hlife hstages⟩

end Session

end BinaryLog
