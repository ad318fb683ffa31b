import BinaryLog.Call.Client
import BinaryLog.Call.Server

/-!
# Passing the levels of a stack

`Pass entries beyond w n result w'`: from `w`, the levels of a stack that have `entries` to log hand
them to the sink one after another, `n` writes return ok, and either that is all of them and
`beyond` is reached, or the next write fails and ends it. What a pass adds to the trace is part of
it, the doings of a writer behind the sink aside (`milestones`): what is passed on (`passedOn`) and
what the sink is handed (`handed`, `Pass.handed_eq`).

Every way through a stack is a pass:

* `relay_pass`, `relay_none_pass`: most operations, those that are an event and those that are none.
* `startThrough_pass`: starting a call, which wraps the listener once per level.
* `onHeaders_pass`: response headers, logged by the levels that have not logged any (`pending`);
  those that do so are marked (`marked`).
* `interceptThrough_pass`: an incoming call on its way to the handler.

The levels on a listener see the attributes of the call through handles that they were given by the
levels within them. Each got a copy of the call's own handle.
-/

namespace BinaryLog

/-! ## Writes -/

/-- A happening other than what a writer behind the sink does. -/
def Happening.isMilestone : Happening → Bool
  | wrote _ => false
  | logged _ | refused _ | reached _ => true

/-- What happened at the levels and beyond them. -/
def milestones (trace : List Happening) : List Happening := trace.filter Happening.isMilestone

/-- What the party beyond all taps itself answers when it is reached. -/
def Surroundings.own (w : Surroundings) : Except Error Unit :=
  match w.callFault with
  | some reason => .error (.callFailure reason)
  | none => .ok ()

/-- The entries are handed to the sink in order, and each write returns ok. -/
inductive Writes : Surroundings → List Entry → Surroundings → Prop
  | nil {w : Surroundings} : Writes w [] w
  | cons {w w₁ w₂ : Surroundings} {e : Entry} {es : List Entry} :
      w.log e = (.ok (), w₁) → Writes w₁ es w₂ → Writes w (e :: es) w₂

@[simp] theorem milestones_append (t t' : List Happening) :
    milestones (t ++ t') = milestones t ++ milestones t' := List.filter_append ..

@[simp] theorem milestones_wrote (events : List WriterEvent) :
    milestones (events.map .wrote) = [] := by
  simp [milestones, Happening.isMilestone]

@[simp] theorem milestones_singleton_logged (e : Entry) :
    milestones [.logged e] = [.logged e] := rfl

@[simp] theorem milestones_singleton_refused (e : Entry) :
    milestones [.refused e] = [.refused e] := rfl

@[simp] theorem milestones_singleton_reached (what : Reached) :
    milestones [.reached what] = [.reached what] := rfl

namespace Surroundings

variable {w w₁ w₂ : Surroundings} {e : Entry} {es : List Entry} {what : Reached}

theorem log_ok (h : w.log e = (.ok (), w₁)) :
    milestones w₁.trace = milestones w.trace ++ [.logged e] ∧ w₁.callFault = w.callFault := by
  unfold log at h
  split at h
  · cases h
  · split at h
    · cases h
      simp
    · cases h

theorem log_error {err : Error} (h : w.log e = (.error err, w₁)) :
    milestones w₁.trace = milestones w.trace ++ [.refused e] ∧ w₁.callFault = w.callFault := by
  unfold log at h
  split at h
  · cases h
    simp
  · split at h
    · cases h
    · cases h
      simp

theorem reach_fst (w : Surroundings) (what : Reached) : (w.reach what).1 = w.own := by
  unfold reach own
  cases w.callFault <;> rfl

theorem trace_reach (w : Surroundings) (what : Reached) :
    (w.reach what).2.trace = w.trace ++ [.reached what] := by
  unfold reach
  split <;> rfl

theorem milestones_reach (w : Surroundings) (what : Reached) :
    milestones (w.reach what).2.trace = milestones w.trace ++ [.reached what] := by
  rw [trace_reach, milestones_append, milestones_singleton_reached]

theorem own_eq_of_callFault_eq (h : w₁.callFault = w.callFault) : w₁.own = w.own := by
  unfold own
  rw [h]

end Surroundings

/-! ## Passes -/

/-- How a pass over the levels that have `entries` to log ends, and after how many writes that
return ok (module doc). -/
inductive Pass (entries : List Entry) (beyond : Reached) (w : Surroundings) :
    Nat → Except Error Unit → Surroundings → Prop
  | forwarded {w₁ w₂ : Surroundings} :
      Writes w entries w₁ → w₁.reach beyond = (w.own, w₂) →
      milestones w₂.trace = milestones w.trace ++ entries.map .logged ++ [.reached beyond] →
      Pass entries beyond w entries.length w.own w₂
  | stopped {n : Nat} {e : Entry} {err : Error} {w₁ w₂ : Surroundings} :
      entries[n]? = some e → Writes w (entries.take n) w₁ → w₁.log e = (.error err, w₂) →
      milestones w₂.trace = milestones w.trace ++ (entries.take n).map .logged ++ [.refused e] →
      Pass entries beyond w n (.error err) w₂

namespace Pass

variable {w w₁ w' : Surroundings} {e : Entry} {es : List Entry} {beyond : Reached} {n : Nat}
  {result : Except Error Unit}

theorem nil (w : Surroundings) (beyond : Reached) :
    Pass [] beyond w 0 (w.reach beyond).1 (w.reach beyond).2 := by
  rw [w.reach_fst beyond]
  exact .forwarded .nil (by rw [← w.reach_fst beyond]) (by simp [w.milestones_reach beyond])

theorem refused {err : Error} (h : w.log e = (.error err, w')) :
    Pass (e :: es) beyond w 0 (.error err) w' :=
  .stopped rfl .nil h (by simp [(Surroundings.log_error h).1])

theorem cons (h : w.log e = (.ok (), w₁)) (hp : Pass es beyond w₁ n result w') :
    Pass (e :: es) beyond w (n + 1) result w' := by
  obtain ⟨htrace, hfault⟩ := Surroundings.log_ok h
  cases hp with
  | forwarded hw hr ht =>
    rw [Surroundings.own_eq_of_callFault_eq hfault] at hr ⊢
    exact .forwarded (.cons h hw) hr (by simp [ht, htrace])
  | stopped hn hw hl ht =>
    exact .stopped (by simpa using hn) (by simpa using .cons h hw) hl (by simp [ht, htrace])

end Pass

/-! ## What was passed on -/

/-- Whether a happening is an entry being refused. -/
def Happening.isRefusal : Happening → Bool
  | refused _ => true
  | wrote _ | logged _ | reached _ => false

/-- Whether the sink took every entry that it was handed. -/
def noneRefused (trace : List Happening) : Bool := trace.all (!·.isRefusal)

/-- What was reached beyond the levels, in a happening. -/
def Happening.beyond? : Happening → Option Reached
  | reached what => some what
  | wrote _ | logged _ | refused _ => none

/-- What was reached beyond the levels, in order. -/
def passedOn (trace : List Happening) : List Reached := trace.filterMap Happening.beyond?

theorem filterMap_milestones {α : Type} {f : Happening → Option α}
    (hf : ∀ event, f (.wrote event) = none) (trace : List Happening) :
    (milestones trace).filterMap f = trace.filterMap f := by
  rw [milestones, List.filterMap_filter]
  congr 1
  funext h
  cases h with
  | wrote event => exact (hf event).symm
  | logged | refused | reached => rfl

theorem passedOn_milestones (trace : List Happening) :
    passedOn (milestones trace) = passedOn trace := filterMap_milestones (fun _ => rfl) trace

@[simp] theorem passedOn_append (t t' : List Happening) :
    passedOn (t ++ t') = passedOn t ++ passedOn t' := List.filterMap_append ..

@[simp] theorem passedOn_logged (es : List Entry) : passedOn (es.map .logged) = [] := by
  simp [passedOn, Happening.beyond?]

@[simp] theorem passedOn_reached (what : Reached) : passedOn [.reached what] = [what] := rfl

namespace Pass

variable {w w' : Surroundings} {entries : List Entry} {beyond : Reached} {n : Nat}
  {result : Except Error Unit}

theorem le_length (h : Pass entries beyond w n result w') : n ≤ entries.length := by
  cases h with
  | forwarded => exact Nat.le_refl _
  | stopped hn => exact Nat.le_of_lt (List.getElem?_eq_some_iff.1 hn).1

/-- If as many writes return ok as there are levels that log, the party beyond is reached. -/
theorem of_eq_length (h : Pass entries beyond w n result w') (hn : n = entries.length) :
    result = w.own ∧ passedOn w'.trace = passedOn w.trace ++ [beyond] := by
  cases h with
  | forwarded _ _ ht =>
    refine ⟨rfl, ?_⟩
    rw [← passedOn_milestones w'.trace, ht]
    simp [passedOn_milestones]
  | stopped he =>
    simp [hn] at he

/-- If no write is refused, the party beyond is reached. -/
theorem eq_length_of_not_refused (h : Pass entries beyond w n result w')
    (hok : noneRefused w'.trace) : n = entries.length := by
  cases h with
  | forwarded => rfl
  | @stopped _ e _ _ _ _ _ _ ht =>
    have hmem : .refused e ∈ milestones w'.trace := by simp [ht]
    have htaken := List.all_eq_true.1 hok _ (List.mem_filter.1 hmem).1
    cases htaken

end Pass

/-! ## What was handed to the sink -/

/-- The entry that was handed to the sink, in a happening. -/
def Happening.handed? : Happening → Option Entry
  | logged e | refused e => some e
  | wrote _ | reached _ => none

/-- The entries that were handed to the sink, in order, whether it took them or not. -/
def handed (trace : List Happening) : List Entry := trace.filterMap Happening.handed?

/-- The sink was left alone: it was handed no entry, and a writer behind it did nothing. -/
def SinkUntouched (trace : List Happening) : Prop := ∀ h ∈ trace, ∃ what, h = .reached what

theorem untouched_nil : SinkUntouched [] := by simp [SinkUntouched]

theorem SinkUntouched.handed_eq_nil {trace : List Happening} (h : SinkUntouched trace) :
    handed trace = [] := by
  refine List.filterMap_eq_nil_iff.2 fun happening hmem => ?_
  obtain ⟨what, rfl⟩ := h happening hmem
  rfl

theorem handed_milestones (trace : List Happening) : handed (milestones trace) = handed trace :=
  filterMap_milestones (fun _ => rfl) trace

@[simp] theorem handed_append (t t' : List Happening) :
    handed (t ++ t') = handed t ++ handed t' := List.filterMap_append ..

@[simp] theorem handed_logged (es : List Entry) : handed (es.map .logged) = es := by
  simp [handed, Happening.handed?, Function.comp_def]

@[simp] theorem handed_refused (e : Entry) : handed [.refused e] = [e] := rfl

@[simp] theorem handed_reached (what : Reached) : handed [.reached what] = [] := rfl

namespace Pass

variable {w w' : Surroundings} {entries : List Entry} {beyond : Reached} {n : Nat}
  {result : Except Error Unit}

/-- The levels hand over their entries up to the first write that fails. -/
theorem handed_eq (h : Pass entries beyond w n result w') :
    handed w'.trace = handed w.trace ++ entries.take (n + 1) := by
  cases h with
  | forwarded _ _ ht =>
    rw [← handed_milestones w'.trace, ht, List.take_of_length_le (Nat.le_succ _)]
    simp [handed_milestones]
  | stopped he _ _ ht =>
    rw [← handed_milestones w'.trace, ht, handed_append, handed_append, handed_milestones,
      handed_logged, handed_refused, List.take_add_one, he, Option.toList_some, List.append_assoc]

/-- From an empty trace, a pass hands over entries, or nobody has any and the sink is left alone. -/
theorem untouched_or_handed (h : Pass entries beyond w n result w') (hw : w.trace = []) :
    SinkUntouched w'.trace ∨ handed w'.trace ≠ [] ∧ handed w'.trace = entries.take (n + 1) := by
  have heq := h.handed_eq
  rw [hw] at heq
  cases entries with
  | cons e es => exact .inr ⟨by simp [heq], heq⟩
  | nil =>
    cases h with
    | stopped he => simp at he
    | forwarded hwrites hreach _ =>
      cases hwrites
      have htrace : w'.trace = [.reached beyond] := by
        have := w.trace_reach beyond
        rwa [hreach, hw] at this
      exact .inl fun h hmem => ⟨beyond, by simpa [htrace] using hmem⟩

end Pass

/-! ## Ways through a stack -/

theorem reach_pass (w : Surroundings) (beyond : Reached) :
    ∃ n result w', Pass [] beyond w n result w' ∧ w.reach beyond = (result, w') :=
  ⟨0, _, _, Pass.nil w beyond, rfl⟩

theorem relay_pass (side : Side) (event : CallEvent) (op : Operation) (taps : List Tap)
    (w : Surroundings) :
    ∃ n result w', Pass (taps.map (·.entry side event)) (.operation op) w n result w' ∧
      w.relay side (some event) op taps = (result, w') := by
  induction taps generalizing w with
  | nil => exact reach_pass w _
  | cons tap taps ih =>
    rw [Surroundings.relay, Option.map_some, Surroundings.logAny]
    split
    · rename_i w₁ hlog
      obtain ⟨n, result, w', hp, heq⟩ := ih w₁
      exact ⟨n + 1, result, w', hp.cons hlog, heq⟩
    · rename_i e w₁ hlog
      exact ⟨0, .error e, w₁, Pass.refused hlog, rfl⟩

theorem relay_none_pass (side : Side) (op : Operation) (taps : List Tap) (w : Surroundings) :
    ∃ n result w', Pass [] (.operation op) w n result w' ∧
      w.relay side none op taps = (result, w') := by
  induction taps with
  | nil => exact reach_pass w _
  | cons tap taps ih => exact ih

/-- The transport is given the listener wrapped once per level, the innermost level outermost, and
each with the handle of the call itself. -/
theorem startThrough_pass (own : AttributeHandle) (headers : Metadata) (taps : List Tap)
    (listener : ClientListener) (w : Surroundings) :
    ∃ n result w', Pass (taps.map (·.entry .client (.sentHeaders headers)))
        (.operation (.start headers)) w n result w' ∧
      ClientCall.startThrough own headers taps listener w =
        (result.map fun _ => taps.reverse.map (⟨·, own, false⟩) ++ listener, w') := by
  induction taps generalizing listener w with
  | nil => exact ⟨0, _, _, Pass.nil w _, rfl⟩
  | cons tap taps ih =>
    rw [ClientCall.startThrough]
    split
    · rename_i e w₁ hlog
      exact ⟨0, .error e, w₁, Pass.refused hlog, rfl⟩
    · rename_i w₁ hlog
      rw [Tap.askThrough_eq, AttributeHandle.share_eq]
      obtain ⟨n, result, w', hp, heq⟩ := ih (⟨tap, own, false⟩ :: listener) w₁
      refine ⟨n + 1, result, w', hp.cons hlog, ?_⟩
      rw [heq]
      simp

/-- The handler is given the call with the innermost level first to act on it, and the listener
has the outermost level first. -/
theorem interceptThrough_pass (store : AttributeStore) (own : AttributeHandle) (headers : Metadata)
    (taps wrapped : List Tap) (w : Surroundings) :
    ∃ n result w',
      Pass (taps.map (·.entry .server (.receivedHeaders headers (store.get own).peer)))
        (.startCall headers) w n result w' ∧
      ServerCall.interceptThrough store own headers taps wrapped w =
        (result.map fun _ => (taps.reverse ++ wrapped, taps), w') := by
  induction taps generalizing wrapped w with
  | nil => exact ⟨0, _, _, Pass.nil w _, rfl⟩
  | cons tap taps ih =>
    rw [ServerCall.interceptThrough, Tap.askThrough_eq, AttributeHandle.share_eq]
    split
    · rename_i e w₁ hlog
      exact ⟨0, .error e, w₁, Pass.refused hlog, rfl⟩
    · rename_i w₁ hlog
      obtain ⟨n, result, w', hp, heq⟩ := ih (tap :: wrapped) w₁
      refine ⟨n + 1, result, w', hp.cons hlog, ?_⟩
      rw [heq]
      cases result <;> simp [Except.map]

/-! ## Response headers -/

namespace ClientListener

/-- The levels that have not logged response headers, in the order in which callbacks pass them. -/
def pending (l : ClientListener) : List Tap := (l.filter fun level => !level.sawHeaders).map (·.tap)

/-- The listener after the first `n` levels that had not logged response headers have done so. -/
def marked : Nat → ClientListener → ClientListener
  | _, [] => []
  | 0, l => l
  | n + 1, level :: l =>
    if level.sawHeaders then level :: marked (n + 1) l
    else { level with sawHeaders := true } :: marked n l

@[simp] theorem marked_zero (l : ClientListener) : marked 0 l = l := by
  cases l <;> rfl

@[simp] theorem marked_nil (n : Nat) : marked n [] = [] := by
  cases n <;> rfl

theorem marked_cons_of_saw {level : ListenerTap} (h : level.sawHeaders = true) (n : Nat)
    (l : ClientListener) : marked n (level :: l) = level :: marked n l := by
  cases n <;> simp [marked, h]

theorem attributes_of_mem_marked {n : Nat} {l : ClientListener} {level' : ListenerTap}
    (h : level' ∈ l.marked n) : ∃ level ∈ l, level.attributes = level'.attributes := by
  fun_induction marked n l with
  | case1 => cases h
  | case2 l => exact ⟨level', h, rfl⟩
  | case3 n level l hsaw ih =>
    rcases List.mem_cons.1 h with rfl | h
    · exact ⟨_, List.mem_cons_self, rfl⟩
    · obtain ⟨other, hother, heq⟩ := ih h
      exact ⟨other, List.mem_cons_of_mem _ hother, heq⟩
  | case4 n level l hsaw ih =>
    rcases List.mem_cons.1 h with rfl | h
    · exact ⟨level, List.mem_cons_self, rfl⟩
    · obtain ⟨other, hother, heq⟩ := ih h
      exact ⟨other, List.mem_cons_of_mem _ hother, heq⟩

@[simp] theorem taps_marked (n : Nat) (l : ClientListener) : (marked n l).taps = l.taps := by
  induction l generalizing n with
  | nil => simp
  | cons level l ih =>
    cases n with
    | zero => simp
    | succ n =>
      have ih₁ := ih (n + 1)
      have ih₀ := ih n
      simp only [taps] at ih₀ ih₁
      cases hsaw : level.sawHeaders <;> simp [marked, taps, hsaw, ih₀, ih₁]

theorem onHeaders_pass (store : AttributeStore) {h : AttributeHandle} (headers : Metadata)
    {l : ClientListener} (hl : ∀ level ∈ l, level.attributes = h) (w : Surroundings) :
    ∃ n result w',
      Pass (l.pending.map (·.entry .client (.receivedHeaders headers (store.get h).peer)))
        (.operation (.onHeaders headers)) w n result w' ∧
      l.onHeaders store headers w = (result, l.marked n, w') := by
  induction l generalizing w with
  | nil => exact ⟨0, _, _, Pass.nil w _, rfl⟩
  | cons level l ih =>
    obtain ⟨hlevel, hl⟩ := List.forall_mem_cons.1 hl
    have ih := ih hl
    rw [onHeaders]
    split
    · -- this level has logged headers before
      rename_i hsaw
      obtain ⟨n, result, w', hp, heq⟩ := ih w
      refine ⟨n, result, w', by simpa [pending, hsaw] using hp, ?_⟩
      rw [heq, marked_cons_of_saw hsaw]
    · rename_i hsaw
      simp only [hlevel]
      split
      · rename_i e w₁ hlog
        exact ⟨0, .error e, w₁, by simpa [pending, hsaw] using Pass.refused hlog, by simp⟩
      · rename_i w₁ hlog
        obtain ⟨n, result, w', hp, heq⟩ := ih w₁
        refine ⟨n + 1, result, w', by simpa [pending, hsaw] using hp.cons hlog, ?_⟩
        rw [heq]
        simp [marked, hsaw, hlevel]

end ClientListener

end BinaryLog
