import BinaryLog.Proofs.Attributes.Store
import BinaryLog.Proofs.Interception.Stack
import Mathlib.Data.List.Induction

/-!
# The calls of a session

What the steps of a script make of the calls, one by one: a step opens a call, or leaves a call of
that name in a state that follows from the one before, or leaves none (`perform_calls`). So every
call of a session is on the side on which the script last opened it, in a state that it can reach on
the stack with which it did so (`opened_of_run`, `reachable_of_run`).
-/

namespace BinaryLog.Session

/-- The method and the ids with which an action opens a call of this name. -/
def Action.opening (name : String) : Action → Option (String × List CallId)
  | .openClient call method ids _ | .openServer call method ids _ _ =>
    if call = name then some (method, ids) else none
  | _ => none

/-- The method and the ids with which a script last opens a call of this name. -/
def lastOpening (name : String) (script : List Step) : Option (String × List CallId) :=
  script.reverse.findSome? (·.action.opening name)

/-- The side on which an action opens a call of this name. -/
def Action.openingSide (name : String) : Action → Option Side
  | .openClient call _ _ _ => if call = name then some .client else none
  | .openServer call _ _ _ _ => if call = name then some .server else none
  | _ => none

/-- The side on which a script last opens a call of this name. -/
def lastSide (name : String) (script : List Step) : Option Side :=
  script.reverse.findSome? (·.action.openingSide name)

theorem Action.openingSide_eq_none {name : String} {a : Action} (h : a.opening name = none) :
    a.openingSide name = none := by
  cases a <;> simp [opening, openingSide] at h ⊢ <;> exact h

/-! ## Runs -/

theorem run_append (s : Session) (script script' : List Step) :
    (s.run (script ++ script')).2 = ((s.run script).2.run script').2 := by
  induction script generalizing s with
  | nil => rfl
  | cons st script ih => exact ih (s.step st).2

theorem run_append_reports (s : Session) (script script' : List Step) :
    (s.run (script ++ script')).1 = (s.run script).1 ++ ((s.run script).2.run script').1 := by
  induction script generalizing s with
  | nil => rfl
  | cons st script ih => exact congrArg ((s.step st).1 :: ·) (ih (s.step st).2)

theorem length_run (s : Session) (script : List Step) :
    (s.run script).1.length = script.length := by
  induction script generalizing s with
  | nil => rfl
  | cons st script ih => exact congrArg (· + 1) (ih (s.step st).2)

theorem run_table (s : Session) (script : List Step) : (s.run script).2.table = s.table := by
  induction script generalizing s with
  | nil => rfl
  | cons st script ih => exact ih (s.step st).2

/-- The report of a step in a run. -/
theorem run_reports (s : Session) (before after : List Step) (st : Step) :
    (s.run (before ++ st :: after)).1[before.length]? = some ((s.run before).2.step st).1 := by
  induction before generalizing s with
  | nil => rfl
  | cons first before ih => exact ih (s.step first).2

/-- A step that leaves the session as it was can be left out of a run. -/
theorem run_eraseIdx {s : Session} {before : List Step} {st : Step}
    (h : ((s.run before).2.step st).2 = (s.run before).2) (after : List Step) :
    (s.run (before ++ st :: after)).1.eraseIdx before.length = (s.run (before ++ after)).1 ∧
      (s.run (before ++ st :: after)).2 = (s.run (before ++ after)).2 := by
  have hlength := length_run s before
  have hreports : ((s.run before).2.run (st :: after)).1 =
      ((s.run before).2.step st).1 :: (((s.run before).2.step st).2.run after).1 := rfl
  have hlast : ((s.run before).2.run (st :: after)).2 =
      (((s.run before).2.step st).2.run after).2 := rfl
  rw [h] at hreports hlast
  constructor
  · rw [run_append_reports, run_append_reports, hreports,
      List.eraseIdx_append_of_length_le (Nat.le_of_eq hlength), hlength, Nat.sub_self,
      List.eraseIdx_cons_zero]
  · rw [run_append, run_append, hlast]

/-! ## Calls -/

theorem Calls.set_apply (calls : Calls) (name : String) (call : Option Call) (other : String) :
    calls.set name call other = if other = name then call else calls other := rfl

theorem set_eq_some {calls : Calls} {name other : String} {call : Option Call} {c : Call}
    (h : calls.set name call other = some c) :
    other = name ∧ call = some c ∨ other ≠ name ∧ calls other = some c := by
  rw [Calls.set_apply] at h
  split at h
  · exact .inl ⟨‹_›, h⟩
  · exact .inr ⟨‹_›, h⟩

/-- A call that is put in the place of one from which it follows. -/
theorem exists_of_set {calls : Calls} {call name : String} {c₀ c₁ c : Call}
    (h : calls.set call (some c₁) name = some c) (hc₀ : calls call = some c₀)
    (hfollows : c₀.Follows c₁) : ∃ c₀, calls name = some c₀ ∧ c₀.Follows c := by
  rcases set_eq_some h with ⟨rfl, hc⟩ | ⟨-, hc⟩
  · cases hc
    exact ⟨c₀, hc₀, hfollows⟩
  · exact ⟨c, hc, .refl c⟩

/-- What an action makes of the call of a name: it opens one, with attributes that are created for
it, or a call is there before it from which the state that it is left in follows. -/
def Leaves (table : Config.RuleTable) (calls : Calls) (a : Action) (name : String) (c : Call) :
    Prop :=
  (∃ method ids, a.opening name = some (method, ids) ∧ a.openingSide name = some c.side ∧
    c.attributes = calls.attributes.fresh ∧ c.Reachable (table.taps method ids)) ∨
  a.opening name = none ∧ ∃ c₀, calls name = some c₀ ∧ c₀.Follows c

section
variable {table : Config.RuleTable} {calls : Calls} {a : Action} {name : String} {c : Call}

theorem leaves_of_opening {call method : String} {ids : List CallId} {side : Side}
    {opened : Option Call} (h : calls.set call opened name = some c)
    (ha : a.opening name = if call = name then some (method, ids) else none)
    (hside : a.openingSide name = if call = name then some side else none)
    (hopened : ∀ c ∈ opened, c.side = side ∧ c.attributes = calls.attributes.fresh ∧
      c.Reachable (table.taps method ids)) :
    Leaves table calls a name c := by
  rcases set_eq_some h with ⟨rfl, hc⟩ | ⟨hne, hc⟩
  · obtain ⟨rfl, hfresh⟩ := hopened c hc
    exact .inl ⟨method, ids, by rw [ha, if_pos rfl], by rw [hside, if_pos rfl], hfresh⟩
  · exact .inr ⟨by rw [ha, if_neg (Ne.symm hne)], c, hc, .refl c⟩

theorem perform_calls {w : Surroundings} (h : (perform table calls w a).2.1 name = some c) :
    Leaves table calls a name c := by
  have hsame : ∀ {c}, calls name = some c → ∃ c₀, calls name = some c₀ ∧ c₀.Follows c :=
    fun hc => ⟨_, hc, .refl _⟩
  cases a with
  | openClient call method ids remote =>
    refine leaves_of_opening h rfl rfl fun c hc => ?_
    cases hc
    exact ⟨rfl, rfl, .opened _⟩
  | openServer call method ids remote headers =>
    simp only [perform] at h
    split at h
    · rename_i hopen
      refine leaves_of_opening h rfl rfl fun c hc => ?_
      cases hc
      refine ⟨rfl, ?_, .accepted hopen⟩
      rw [Call.eq_of_accepted hopen]
      rfl
    · exact leaves_of_opening h rfl rfl fun c hc => by cases hc
  | operate call op =>
    rw [perform] at h
    split at h
    · rename_i hop
      obtain ⟨c₀, hc₀, hperform⟩ := Option.bind_eq_some_iff.1 hop
      exact .inr ⟨rfl, exists_of_set h hc₀ (.performed hperform)⟩
    · exact .inr ⟨rfl, hsame h⟩
  | setCancelled call =>
    rw [perform] at h
    split at h
    · rename_i hc₀
      exact .inr ⟨rfl, exists_of_set h hc₀ (.cancelled _)⟩
    · exact .inr ⟨rfl, hsame h⟩
  | resolve | entries | drain => exact .inr ⟨rfl, hsame h⟩
  | peer call | setPeer call | isCancelled call | methodName call =>
    refine .inr ⟨rfl, hsame ?_⟩
    rw [perform] at h
    split at h <;> exact h

end

/-! ## What actions do -/

section
variable {table : Config.RuleTable} {calls : Calls} {w : Surroundings} {name : String}

/-- An operation on a call is a pass over the levels of its stack. -/
theorem perform_operate (table : Config.RuleTable) (w : Surroundings) {op : Operation} {c : Call}
    {stack : List Tap} {entries : List Entry} (hc : calls name = some c) (hs : c.Stacked stack)
    (ha : c.Aliased)
    (hlog : c.toLog (calls.attributes.get c.attributes) stack op = some entries) :
    ∃ n result w', Pass entries (.operation op) w n result w' ∧
      perform table calls w (.operate name op) =
        (.ofResult result, calls.set name (some (c.after op n result)), w') := by
  obtain ⟨n, result, w', hp, heq⟩ := Call.perform_pass hs ha hlog w
  exact ⟨n, result, w', hp, by simp [perform, hc, heq]⟩

/-- An operation without anything to do it on is skipped. -/
theorem perform_operate_skipped {op : Operation}
    (h : ∀ c, calls name = some c → ∃ attrs stack, c.toLog attrs stack op = none) :
    perform table calls w (.operate name op) = (.skipped, calls, w) := by
  cases hc : calls name with
  | none => simp [perform, hc]
  | some c =>
    obtain ⟨attrs, stack, hlog⟩ := h c hc
    simp [perform, hc, Call.perform_eq_none hlog calls.attributes w]

/-- The arrival of a call is a pass over the levels of its stack. -/
theorem perform_openServer (table : Config.RuleTable) (calls : Calls) (w : Surroundings)
    (name method : String) (ids : List CallId) (remote : Option PeerAddress) (headers : Metadata) :
    ∃ n result w', Pass ((table.taps method ids).map
        (·.entry .server (.receivedHeaders headers (Attributes.mk remote).peer)))
        (.startCall headers) w n result w' ∧
      perform table calls w (.openServer name method ids remote headers) =
        match result with
        | .ok _ => (.answered (.opened ((table.taps method ids).head?.map Tap.id)),
          (calls.create remote).2.set name (some (.server
            { methodName := method, transport := calls.attributes.fresh,
              attributes := calls.attributes.fresh, cancelled := false,
              callTaps := (table.taps method ids).reverse,
              listenerTaps := table.taps method ids })), w')
        | .error e => (.failed e, (calls.create remote).2.set name none, w') := by
  obtain ⟨n, result, w', hp, heq⟩ := ServerCall.intercept_pass method
    (calls.create remote).2.attributes (calls.create remote).1 headers (table.taps method ids) w
  have hremote :
      (calls.create remote).2.attributes.get (calls.create remote).1 = ⟨remote⟩ := by
    show (calls.attributes.create ⟨remote⟩).2.get calls.attributes.fresh = _
    rw [AttributeStore.get_create, if_pos rfl]
  rw [hremote] at hp
  refine ⟨n, result, w', hp, ?_⟩
  cases result <;> simp only [perform, heq] <;> rfl

end

/-! ## The stack of a call -/

theorem lastOpening_append (name : String) (script : List Step) (st : Step) :
    lastOpening name (script ++ [st]) =
      (st.action.opening name).or (lastOpening name script) := by
  rw [lastOpening, List.reverse_append, List.findSome?_append]
  simp [lastOpening]

theorem lastSide_append (name : String) (script : List Step) (st : Step) :
    lastSide name (script ++ [st]) = (st.action.openingSide name).or (lastSide name script) := by
  rw [lastSide, List.reverse_append, List.findSome?_append]
  simp [lastSide]

/-- **Every call of a session is on the side on which the script last opened a call of that name**,
in a state that it can reach on the stack with which it did so. -/
theorem opened_of_run {table : Config.RuleTable} {sink : Sink} {script : List Step}
    {name : String} {c : Call} (h : ((start table sink).run script).2.calls name = some c) :
    ∃ method ids, lastOpening name script = some (method, ids) ∧
      lastSide name script = some c.side ∧ c.Reachable (table.taps method ids) := by
  induction script using List.reverseRecOn generalizing c with
  | nil => cases h
  | append_singleton script st ih =>
    rw [run_append] at h
    rw [lastOpening_append, lastSide_append]
    rcases perform_calls h with ⟨method, ids, hopen, hside, -, hr⟩ | ⟨hopen, c₀, hc₀, hfollows⟩
    · rw [run_table] at hr
      exact ⟨method, ids, by rw [hopen, Option.some_or], by rw [hside, Option.some_or], hr⟩
    · obtain ⟨method, ids, hlast, hside, hr⟩ := ih hc₀
      rw [hopen, Action.openingSide_eq_none hopen, Option.none_or, Option.none_or, hfollows.side]
      exact ⟨method, ids, hlast, hside, hfollows.reachable _ hr⟩

theorem reachable_of_run {table : Config.RuleTable} {sink : Sink} {script : List Step}
    {name : String} {c : Call} (h : ((start table sink).run script).2.calls name = some c) :
    ∃ method ids, lastOpening name script = some (method, ids) ∧
      c.Reachable (table.taps method ids) := by
  obtain ⟨method, ids, hlast, -, hr⟩ := opened_of_run h
  exact ⟨method, ids, hlast, hr⟩

end BinaryLog.Session
