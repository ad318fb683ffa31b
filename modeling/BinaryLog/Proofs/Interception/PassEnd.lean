import BinaryLog.Proofs.Interception.Pass

/-!
# How a pass ends

What decides how a pass over the levels of a stack ends, so that two passes can be compared.

* `Pass.unique`: from the same surroundings, passes over the same entries go alike, whatever they
  pass on.
* `Pass.of_noneRefused`: if no write is refused, only what is beyond the levels decides.
* `Pass.held`, `Pass.noneRefused_of_memory`: a sink in memory keeps what it takes, and it refuses
  nothing unless a failure is planned for the first write.
-/

namespace BinaryLog

/-- The entry that the sink took, in a happening. -/
def Happening.accepted? : Happening → Option Entry
  | logged e => some e
  | wrote _ | refused _ | reached _ => none

/-- The entries that the sink took, in order. -/
def accepted (trace : List Happening) : List Entry := trace.filterMap Happening.accepted?

@[simp] theorem accepted_append (t t' : List Happening) :
    accepted (t ++ t') = accepted t ++ accepted t' := List.filterMap_append ..

theorem accepted_milestones (trace : List Happening) :
    accepted (milestones trace) = accepted trace := filterMap_milestones (fun _ => rfl) trace

@[simp] theorem accepted_logged (es : List Entry) : accepted (es.map .logged) = es := by
  simp [accepted, Happening.accepted?, Function.comp_def]

theorem accepted_subset_handed (trace : List Happening) : accepted trace ⊆ handed trace := by
  intro e he
  obtain ⟨happening, hmem, htaken⟩ := List.mem_filterMap.1 he
  refine List.mem_filterMap.2 ⟨happening, hmem, ?_⟩
  cases happening with
  | logged => exact htaken
  | wrote | refused | reached => cases htaken

/-- A sink that refuses nothing takes what it is handed. -/
theorem accepted_eq_handed {trace : List Happening} (h : noneRefused trace) :
    accepted trace = handed trace := by
  induction trace with
  | nil => rfl
  | cons happening trace ih =>
    obtain ⟨htaken, hrest⟩ := Bool.and_eq_true_iff.1 h
    have hsame : happening.accepted? = happening.handed? := by
      cases happening with
      | refused e => cases htaken
      | wrote | logged | reached => rfl
    have hrest := ih hrest
    rw [accepted, handed] at hrest ⊢
    rw [List.filterMap_cons, List.filterMap_cons, hsame, hrest]

namespace Surroundings

theorem sink_reach (w : Surroundings) (what : Reached) : (w.reach what).2.sink = w.sink := by
  unfold reach
  split <;> rfl

theorem sinkFault_eq_none_of_log_ok {w w₁ : Surroundings} {e : Entry}
    (h : w.log e = (.ok (), w₁)) : w.sinkFault = none := by
  unfold log at h
  split at h
  · cases h
  · assumption

section
variable {w w₁ : Surroundings} {held : List Entry} {e : Entry}

theorem log_memory (hw : w.sink = .memory held) (e : Entry) (hfault : w.sinkFault = none) :
    w.log e =
      (.ok (), { w with sink := .memory (held ++ [e]), trace := w.trace ++ [.logged e] }) := by
  simp [log, hfault, hw, Sink.write]

theorem sink_of_log_error {err : Error} (hw : w.sink = .memory held)
    (h : w.log e = (.error err, w₁)) : w₁.sink = w.sink := by
  cases hfault : w.sinkFault with
  | some reason =>
    rw [log, hfault] at h
    cases h
    rfl
  | none =>
    rw [log_memory hw e hfault] at h
    cases h

end

end Surroundings

namespace Pass

variable {w w₁ w' w₁' : Surroundings} {e : Entry} {es : List Entry} {beyond beyond' : Reached}
  {n n' : Nat} {result result' : Except Error Unit}

/-- The first write of a pass fails and ends it, or the pass goes on after it. -/
theorem cases_cons (h : Pass (e :: es) beyond w n result w') :
    (∃ err, w.log e = (.error err, w') ∧ n = 0 ∧ result = .error err) ∨
    ∃ w₁ m, w.log e = (.ok (), w₁) ∧ n = m + 1 ∧ Pass es beyond w₁ m result w' := by
  cases h with
  | forwarded hwrites hreach htrace =>
    cases hwrites with
    | cons hlog hwrites =>
      obtain ⟨hlogged, hfault⟩ := Surroundings.log_ok hlog
      rw [← Surroundings.own_eq_of_callFault_eq hfault] at hreach ⊢
      exact .inr ⟨_, _, hlog, rfl, .forwarded hwrites hreach (by simp [htrace, hlogged])⟩
  | stopped he hwrites hlog htrace =>
    cases n with
    | zero =>
      cases hwrites
      cases he
      exact .inl ⟨_, hlog, rfl, rfl⟩
    | succ n =>
      cases hwrites with
      | cons hfirst hwrites =>
        obtain ⟨hlogged, -⟩ := Surroundings.log_ok hfirst
        exact .inr ⟨_, n, hfirst, rfl, .stopped (by simpa using he) hwrites hlog
          (by simp [htrace, hlogged])⟩

/-- If the first write returns ok, the pass goes on from there. -/
theorem of_log_ok (h : Pass (e :: es) beyond w n result w') (hlog : w.log e = (.ok (), w₁)) :
    ∃ m, n = m + 1 ∧ Pass es beyond w₁ m result w' := by
  rcases h.cases_cons with ⟨err, heq, -⟩ | ⟨w₂, m, heq, hn, hp⟩ <;> rw [hlog] at heq <;> cases heq
  exact ⟨m, hn, hp⟩

/-- If the first write fails, that is the end of the pass. -/
theorem of_log_error {err : Error} (h : Pass (e :: es) beyond w n result w')
    (hlog : w.log e = (.error err, w₁)) : n = 0 ∧ result = .error err ∧ w' = w₁ := by
  rcases h.cases_cons with ⟨err', heq, hn, hresult⟩ | ⟨w₂, m, heq, -⟩ <;> rw [hlog] at heq <;>
    cases heq
  exact ⟨hn, hresult, rfl⟩

/-- What a pass adds to the milestones: the entries of the writes that return ok, and then the one
that is refused or what is reached beyond. -/
theorem milestones_eq (h : Pass es beyond w n result w') :
    milestones w'.trace = milestones w.trace ++ (es.take n).map .logged ++
      [(es[n]?).elim (.reached beyond) .refused] := by
  cases h with
  | forwarded _ _ htrace =>
    rw [htrace, List.take_length, List.getElem?_eq_none (Nat.le_refl _), Option.elim_none]
  | stopped he _ _ htrace => rw [htrace, he, Option.elim_some]

/-- The sink takes the entries of the writes that return ok. -/
theorem accepted_eq (h : Pass es beyond w n result w') :
    accepted w'.trace = accepted w.trace ++ es.take n := by
  rw [← accepted_milestones w'.trace, h.milestones_eq, accepted_append, accepted_append,
    accepted_milestones, accepted_logged]
  cases es[n]? <;> exact List.append_nil _

/-- A pass over nobody who logs reaches beyond at once. -/
theorem of_nil (h : Pass [] beyond w n result w') :
    n = 0 ∧ result = w.own ∧ w'.sink = w.sink ∧ w'.trace = w.trace ++ [.reached beyond] := by
  cases h with
  | stopped he => simp at he
  | forwarded hwrites hreach =>
    cases hwrites
    have hsink := w.sink_reach beyond
    have htrace := w.trace_reach beyond
    rw [hreach] at hsink htrace
    exact ⟨rfl, rfl, hsink, htrace⟩

/-- **How a pass goes depends on the entries and on where it starts**, not on what it passes on. -/
theorem unique (h : Pass es beyond w n result w₁) (h' : Pass es beyond' w n' result' w₁') :
    n = n' ∧ result = result' ∧ w₁.sink = w₁'.sink := by
  induction es generalizing w n n' with
  | nil =>
    obtain ⟨rfl, rfl, hsink, -⟩ := h.of_nil
    obtain ⟨rfl, rfl, hsink', -⟩ := h'.of_nil
    exact ⟨rfl, rfl, hsink.trans hsink'.symm⟩
  | cons e es ih =>
    rcases h.cases_cons with ⟨err, hlog, rfl, rfl⟩ | ⟨w₂, m, hlog, rfl, hp⟩ <;>
      rcases h'.cases_cons with ⟨err', hlog', rfl, rfl⟩ | ⟨w₂', m', hlog', rfl, hp'⟩ <;>
      rw [hlog] at hlog' <;> cases hlog'
    · exact ⟨rfl, rfl, rfl⟩
    · obtain ⟨rfl, hresult, hsink⟩ := ih hp hp'
      exact ⟨rfl, hresult, hsink⟩

/-- If no write is refused, all entries are handed over and the party beyond answers. -/
theorem of_noneRefused (h : Pass es beyond w n result w') (hok : noneRefused w'.trace) :
    n = es.length ∧ result = w.own ∧ handed w'.trace = handed w.trace ++ es := by
  have hn := h.eq_length_of_not_refused hok
  refine ⟨hn, (h.of_eq_length hn).1, ?_⟩
  rw [h.handed_eq, hn, List.take_of_length_le (Nat.le_succ _)]

theorem sinkFault_eq_none (h : Pass (e :: es) beyond w n result w') (hok : noneRefused w'.trace) :
    w.sinkFault = none := by
  rcases h.cases_cons with ⟨err, hlog, rfl, rfl⟩ | ⟨w₁, m, hlog, -⟩
  · have hn := h.eq_length_of_not_refused hok
    cases hn
  · exact Surroundings.sinkFault_eq_none_of_log_ok hlog

/-- A sink in memory keeps what it takes. -/
theorem held {entries : List Entry} (h : Pass es beyond w n result w')
    (hw : w.sink = .memory entries) :
    w'.sink = .memory (entries ++ es.take n) ∧
      accepted w'.trace = accepted w.trace ++ es.take n := by
  refine ⟨?_, h.accepted_eq⟩
  induction es generalizing w n entries with
  | nil =>
    obtain ⟨-, -, hsink, -⟩ := h.of_nil
    rw [hsink, List.take_nil, List.append_nil]
    exact hw
  | cons e es ih =>
    rcases h.cases_cons with ⟨err, hlog, rfl, -⟩ | ⟨w₁, m, hlog, rfl, hp⟩
    · -- a failure was planned for the write, which so did not come to the sink
      rw [List.take_zero, List.append_nil]
      exact (Surroundings.sink_of_log_error hw hlog).trans hw
    · rw [Surroundings.log_memory hw e (Surroundings.sinkFault_eq_none_of_log_ok hlog)] at hlog
      cases hlog
      rw [ih hp rfl, List.take_succ_cons, List.append_assoc]
      rfl

/-- A sink in memory refuses no write, unless the first one is planned to fail. -/
theorem noneRefused_of_memory (h : Pass es beyond w n result w')
    (hw : ∃ entries, w.sink = .memory entries) (hok : noneRefused w.trace)
    (hfault : es = [] ∨ w.sinkFault = none) : noneRefused w'.trace := by
  induction es generalizing w n with
  | nil =>
    obtain ⟨-, -, -, htrace⟩ := h.of_nil
    rw [htrace]
    simpa [noneRefused, Happening.isRefusal] using hok
  | cons e es ih =>
    obtain ⟨entries, hentries⟩ := hw
    have hnone : w.sinkFault = none := hfault.resolve_left (by simp)
    rcases h.cases_cons with ⟨err, hlog, -⟩ | ⟨w₁, m, hlog, -, hp⟩ <;>
      rw [Surroundings.log_memory hentries e hnone] at hlog <;> cases hlog
    exact ih hp ⟨_, rfl⟩ (by simpa [noneRefused, Happening.isRefusal] using hok) (.inr hnone)

end Pass

end BinaryLog
