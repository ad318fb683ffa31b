import BinaryLog.Proofs.Session.AlikePlans

/-!
# Paired calls

Two calls in the same state on stacks of related taps, and actions on them that are the same but for
some contents.

* `Action.Alike M B`: two actions are the same, except that headers are related by `M` and messages
  by `B`, and that status, reason for cancelling and number of requested messages may differ.
* `CallState.Paired T`: two calls are in the same state, with the same attributes, on stacks of taps
  that are related by `T`. Their handles may lead to different cells.
* `Recorded T M B R`: what related taps record of alike events is related by `R`.
* `Action.Alike.plan_alike`: so alike actions on paired calls have alike plans.
-/

namespace BinaryLog

/-! ## Alike operations and events -/

section
variable (M : Metadata → Metadata → Prop) (B : Bytes → Bytes → Prop)

/-- Operations of one kind, with headers related by `M` and messages by `B`. What no level looks at
may be anything. -/
def Operation.Alike : Operation → Operation → Prop
  | .start md, .start md' | .sendHeaders md, .sendHeaders md' | .onHeaders md, .onHeaders md'
  | .close _ md, .close _ md' | .onClose _ md, .onClose _ md' => M md md'
  | .sendMessage data, .sendMessage data' | .onMessage data, .onMessage data' => B data data'
  | .request _, .request _ | .cancel _, .cancel _ | .halfClose, .halfClose | .onReady, .onReady
  | .onHalfClose, .onHalfClose | .onCancel, .onCancel | .onComplete, .onComplete => True
  | _, _ => False

/-- Events of one kind, with headers related by `M` and messages by `B`. -/
def CallEvent.Alike : CallEvent → CallEvent → Prop
  | .sentHeaders md, .sentHeaders md' | .sentTrailers md, .sentTrailers md'
  | .receivedTrailers md, .receivedTrailers md' => M md md'
  | .receivedHeaders md peer, .receivedHeaders md' peer' => M md md' ∧ peer = peer'
  | .sentMessage compressed data, .sentMessage compressed' data'
  | .receivedMessage compressed data, .receivedMessage compressed' data' =>
    compressed = compressed' ∧ B data data'
  | _, _ => False

/-- The same action, except that headers are related by `M` and messages by `B`. -/
def Session.Action.Alike : Action → Action → Prop
  | .openServer name method ids remote md, .openServer name' method' ids' remote' md' =>
    (name, method, ids, remote) = (name', method', ids', remote') ∧ M md md'
  | .operate name op, .operate name' op' => name = name' ∧ op.Alike M B op'
  | a, a' => a = a'

end

/-! ## Paired taps and calls -/

/-- Two taps under one id, within `l` and `l'`. -/
def Tap.Paired (l l' : Option Limits) (t t' : Tap) : Prop :=
  t.id = t'.id ∧ l = some t.limits ∧ l' = some t'.limits

section
variable (T : Tap → Tap → Prop)

/-- Two taps on listeners, which both have logged response headers or both have not. -/
def ListenerTap.Paired (t t' : ListenerTap) : Prop :=
  T t.tap t'.tap ∧ t.sawHeaders = t'.sawHeaders

/-- Calls in the same state, on stacks of related taps. -/
inductive Call.Paired : Call → Call → Prop
  | client {c c' : ClientCall} : List.Forall₂ T c.taps c'.taps →
      Option.Rel (List.Forall₂ (ListenerTap.Paired T)) c.listener c'.listener →
      Paired (.client c) (.client c')
  | server {c c' : ServerCall} : List.Forall₂ T c.listenerTaps c'.listenerTaps →
      c.methodName = c'.methodName → c.cancelled = c'.cancelled → Paired (.server c) (.server c')

/-- Calls in the same state and with the same attributes, on stacks of related taps. -/
structure CallState.Paired (σ σ' : CallState) : Prop where
  call : σ.call.Paired T σ'.call
  attributes : σ.attributes = σ'.attributes

/-- Related taps have the same id, and what they record of alike events is related by `R`. -/
structure Recorded (M : Metadata → Metadata → Prop) (B : Bytes → Bytes → Prop)
    (R : Entry → Entry → Prop) : Prop where
  id : ∀ t t', T t t' → t.id = t'.id
  entry : ∀ (t t' : Tap) (side : Side) (event event' : CallEvent), T t t' →
    event.Alike M B event' → R (t.entry side event) (t'.entry side event')

end

theorem CallEvent.Alike.eq {event event' : CallEvent} (h : event.Alike Eq Eq event') :
    event = event' := by
  cases event <;> cases event' <;> try exact h.elim
  case sentHeaders | sentTrailers | receivedTrailers => exact congrArg _ h
  case receivedHeaders | sentMessage | receivedMessage => exact congrArg₂ _ h.1 h.2

/-- A tap records the same of the same event. -/
theorem recorded_eq : Recorded Eq Eq Eq Eq where
  id _ _ h := congrArg Tap.id h
  entry _ _ side _ _ ht hevent := by rw [ht, hevent.eq]

section
variable {T : Tap → Tap → Prop} {l l' : Option Limits} {M : Metadata → Metadata → Prop}
  {B : Bytes → Bytes → Prop} {R : Entry → Entry → Prop}

theorem rel_map {α β γ δ : Type} {P : α → β → Prop} {Q : γ → δ → Prop} {f : α → γ} {g : β → δ}
    {a : Option α} {b : Option β} (h : Option.Rel P a b) (hfg : ∀ x y, P x y → Q (f x) (g y)) :
    Option.Rel Q (a.map f) (b.map g) := by
  cases h with
  | none => exact .none
  | some hxy => exact .some (hfg _ _ hxy)

theorem Config.RuleTable.taps_paired {table table' : RuleTable} {method : String}
    (h : (table.lookup method).isSome = (table'.lookup method).isSome) (ids : List CallId) :
    List.Forall₂ (Tap.Paired (table.lookup method) (table'.lookup method))
      (table.taps method ids) (table'.taps method ids) := by
  unfold taps
  cases hl : table.lookup method with
  | none =>
    rw [hl] at h
    rw [Option.isSome_eq_false_iff.1 h.symm |> Option.isNone_iff_eq_none.1]
    exact .nil
  | some limits =>
    rw [hl] at h
    obtain ⟨limits', hl'⟩ := Option.isSome_iff_exists.1 h.symm
    rw [hl', List.forall₂_map_left_iff, List.forall₂_map_right_iff]
    exact List.forall₂_same.2 fun _ _ => ⟨rfl, rfl, rfl⟩

theorem Recorded.entries (hrec : Recorded T M B R) {levels levels' : List Tap}
    (hlevels : List.Forall₂ T levels levels') (side : Side)
    {event event' : CallEvent} (hevent : event.Alike M B event') :
    List.Forall₂ R (levels.map (·.entry side event)) (levels'.map (·.entry side event')) := by
  rw [List.forall₂_map_left_iff, List.forall₂_map_right_iff]
  exact hlevels.imp fun t t' ht => hrec.entry t t' side event event' ht hevent

theorem Recorded.head_id_eq (hrec : Recorded T M B R) {levels levels' : List Tap}
    (hlevels : List.Forall₂ T levels levels') :
    levels.head?.map Tap.id = levels'.head?.map Tap.id := by
  cases hlevels with
  | nil => rfl
  | cons ht => exact congrArg some (hrec.id _ _ ht)

namespace ClientListener

variable {listener listener' : ClientListener}

theorem pending_paired (h : List.Forall₂ (ListenerTap.Paired T) listener listener') :
    List.Forall₂ T listener.pending listener'.pending := by
  induction h with
  | nil => exact .nil
  | @cons t t' _ _ ht _ ih =>
    obtain ⟨htap, hsaw⟩ := ht
    unfold pending at ih ⊢
    cases hlogged : t.sawHeaders with
    | true => simpa [hlogged, ← hsaw] using ih
    | false =>
      rw [List.filter_cons_of_pos (by simp [hlogged]),
        List.filter_cons_of_pos (by simp [← hsaw, hlogged])]
      exact .cons htap ih

theorem marked_paired (h : List.Forall₂ (ListenerTap.Paired T) listener listener') (n : Nat) :
    List.Forall₂ (ListenerTap.Paired T) (listener.marked n) (listener'.marked n) := by
  induction h generalizing n with
  | nil => simp
  | @cons t t' _ _ ht hrest ih =>
    obtain ⟨htap, hsaw⟩ := ht
    cases n with
    | zero => simpa using ⟨⟨htap, hsaw⟩, hrest⟩
    | succ n =>
      simp only [marked, ← hsaw]
      split
      · exact .cons ⟨htap, hsaw⟩ (ih _)
      · exact .cons ⟨htap, rfl⟩ (ih _)

end ClientListener

/-! ## Alike plans -/

theorem Call.Paired.stack {c c' : Call} (h : c.Paired T c') :
    List.Forall₂ T c.stack c'.stack := by
  cases h with
  | client htaps => exact htaps
  | server htaps => exact htaps

/-- Paired calls are on one side, and two server calls have the same method and are both cancelled
or both not. -/
theorem CallState.Paired.cases {σ σ' : CallState} (h : σ.Paired T σ') :
    (∃ c c' attrs, σ = ⟨.client c, attrs⟩ ∧ σ' = ⟨.client c', attrs⟩) ∨
    ∃ c c' attrs, σ = ⟨.server c, attrs⟩ ∧ σ' = ⟨.server c', attrs⟩ ∧
      List.Forall₂ T c.listenerTaps c'.listenerTaps ∧ c.methodName = c'.methodName ∧
      c.cancelled = c'.cancelled := by
  obtain ⟨call, attrs⟩ := σ
  obtain ⟨call', attrs'⟩ := σ'
  obtain ⟨hcall, rfl⟩ := h
  cases hcall with
  | client => exact .inl ⟨_, _, _, rfl, rfl⟩
  | server htaps hmethod hcancelled =>
    exact .inr ⟨_, _, _, rfl, rfl, htaps, hmethod, hcancelled⟩

section
variable {c c' : Call} {op op' : Operation}

/-- What the levels of paired calls have to log of alike operations is related one by one. -/
theorem Call.Paired.toLog (h : c.Paired T c') (attrs : Attributes) (hrec : Recorded T M B R)
    (hop : op.Alike M B op') :
    Option.Rel (List.Forall₂ R) (c.toLog attrs c.stack op) (c'.toLog attrs c'.stack op') := by
  have hin := h.stack
  have hout := List.rel_reverse hin
  cases h with
  | @client c c' htaps hlistener =>
    cases op <;> cases op' <;> try exact hop.elim
    case start => exact .some (hrec.entries hin .client hop)
    case sendMessage => exact .some (hrec.entries hin .client ⟨rfl, hop⟩)
    case request | halfClose | cancel => exact .some .nil
    case sendHeaders | close | onHalfClose | onCancel | onComplete => exact .none
    -- the rest are callbacks, which come to a listener
    all_goals refine rel_map hlistener fun _ _ hlistener => ?_
    case onHeaders =>
      exact hrec.entries (ClientListener.pending_paired hlistener) .client ⟨hop, rfl⟩
    case onMessage => exact hrec.entries hout .client ⟨rfl, hop⟩
    case onClose => exact hrec.entries hout .client hop
    case onReady => exact .nil
  | server =>
    cases op <;> cases op' <;> try exact hop.elim
    case sendHeaders => exact .some (hrec.entries hout .server hop)
    case sendMessage => exact .some (hrec.entries hout .server ⟨rfl, hop⟩)
    case close => exact .some (hrec.entries hout .server hop)
    case onMessage => exact .some (hrec.entries hin .server ⟨rfl, hop⟩)
    case request | onReady | onHalfClose | onCancel | onComplete => exact .some .nil
    case start | halfClose | cancel | onHeaders | onClose => exact .none

/-- Paired calls are paired after alike operations. -/
theorem Call.Paired.after (h : c.Paired T c') (hop : op.Alike M B op') (n : Nat)
    (result : Except Error Unit) : (c.after op n result).Paired T (c'.after op' n result) := by
  have hsame := h
  cases h with
  | server => exact hsame
  | client htaps hlistener =>
    cases op <;> cases op' <;> try exact hop.elim
    case start =>
      cases result with
      | error => exact hsame
      | ok =>
        refine .client htaps (.some ?_)
        rw [List.forall₂_map_left_iff, List.forall₂_map_right_iff]
        exact (List.rel_reverse htaps).imp fun t t' ht => ⟨ht, rfl⟩
    case onHeaders =>
      exact .client htaps
        (rel_map hlistener fun _ _ hlistener => ClientListener.marked_paired hlistener n)
    all_goals exact hsame

end

namespace Session

variable {a a' : Action} {name : String}

theorem Action.Alike.refl (a : Action) : a.Alike Eq Eq a := by
  cases a with
  | openServer => exact ⟨rfl, rfl⟩
  | operate name op => cases op <;> exact ⟨rfl, by first | rfl | trivial⟩
  | openClient | peer | setPeer | isCancelled | setCancelled | methodName | resolve | entries
    | drain => rfl

/-- Alike actions are the same, or bring related headers or messages to the same call. -/
theorem Action.Alike.cases (h : a.Alike M B a') :
    (∃ name method ids remote md md', a = .openServer name method ids remote md ∧
      a' = .openServer name method ids remote md' ∧ M md md') ∨
    (∃ name op op', a = .operate name op ∧ a' = .operate name op' ∧ op.Alike M B op') ∨
    a = a' := by
  unfold Action.Alike at h
  split at h
  · obtain ⟨hsame, hmd⟩ := h
    cases hsame
    exact .inl ⟨_, _, _, _, _, _, rfl, rfl, hmd⟩
  · obtain ⟨rfl, hop⟩ := h
    exact .inr (.inl ⟨_, _, _, rfl, rfl, hop⟩)
  · exact .inr (.inr h)

theorem Action.Alike.call_eq (h : a.Alike M B a') : a.call = a'.call := by
  rcases h.cases with ⟨_, _, _, _, _, _, rfl, rfl, -⟩ | ⟨_, _, _, rfl, rfl, -⟩ | rfl <;> rfl

section
variable {table table' : Config.RuleTable} {fresh fresh' : AttributeHandle}
  {state state' : Option CallState}

theorem operate_plan_alike (hrec : Recorded T M B R) {op op' : Operation}
    (hop : op.Alike M B op') (h : Option.Rel (CallState.Paired T) state state') :
    Plan.Alike R (Option.Rel (CallState.Paired T))
      ((Action.operate name op).plan table fresh state)
      ((Action.operate name op').plan table' fresh' state') := by
  cases h with
  | none => exact .answer .none
  | @some σ σ' hσ =>
    have hlogs := hσ.call.toLog σ.attributes hrec hop
    rw [hσ.attributes] at hlogs
    simp only [Action.plan, hσ.attributes]
    -- either both calls take the operation or neither does
    generalize σ.call.toLog σ'.attributes σ.call.stack op = logs at hlogs ⊢
    generalize σ'.call.toLog σ'.attributes σ'.call.stack op' = logs' at hlogs ⊢
    cases hlogs with
    | none => exact .answer (.some hσ)
    | some hentries =>
      exact .pass hentries fun n result => .some ⟨hσ.call.after hop n result, rfl⟩

/-- **Alike actions on paired calls have alike plans.** An action that opens a call need not find a
paired one, if it opens it on a paired stack. -/
theorem Action.Alike.plan_alike (h : a.Alike M B a') (hrec : Recorded T M B R)
    (ha : a.call = some name)
    (hopen : ∀ method ids, a.opening name = some (method, ids) →
      List.Forall₂ T (table.taps method ids) (table'.taps method ids))
    (hpaired : a.opening name = none → Option.Rel (CallState.Paired T) state state') :
    Plan.Alike R (Option.Rel (CallState.Paired T)) (a.plan table fresh state)
      (a'.plan table' fresh' state') := by
  cases a with
  | openClient _ method ids remote =>
    cases ha
    cases h
    have htaps := hopen method ids (if_pos rfl)
    simp only [Action.plan, hrec.head_id_eq htaps]
    exact .note (.some ⟨.client htaps .none, rfl⟩)
  | openServer _ method ids remote md =>
    cases a' with
    | openServer =>
      obtain ⟨hsame, hmd⟩ := h
      cases hsame
      cases ha
      have htaps := hopen method ids (if_pos rfl)
      simp only [Action.plan, hrec.head_id_eq htaps]
      refine .pass (hrec.entries htaps .server ⟨hmd, rfl⟩) fun n result => ?_
      cases result with
      | error => exact .none
      | ok => exact .some ⟨.server htaps rfl rfl, rfl⟩
    | _ => cases h
  | operate _ op =>
    cases a' with
    | operate _ op' =>
      obtain ⟨rfl, hop⟩ := h
      exact operate_plan_alike hrec hop (hpaired rfl)
    | _ => cases h
  | peer =>
    cases h
    cases hpaired rfl with
    | none => exact .answer .none
    | some hσ =>
      simp only [Action.plan, hσ.attributes]
      exact .answer (.some hσ)
  | setPeer _ _ address =>
    cases h
    cases hpaired rfl with
    | none => exact .answer .none
    | some hσ =>
      simp only [Action.plan, hσ.attributes]
      exact .answer (.some ⟨hσ.call, rfl⟩)
  | isCancelled | methodName =>
    cases h
    cases hpaired rfl with
    | none => exact .answer .none
    | some hσ =>
      rcases hσ.cases with ⟨c, c', attrs, rfl, rfl⟩ |
        ⟨c, c', attrs, rfl, rfl, -, hmethod, hcancelled⟩
      · exact .answer (.some hσ)
      · simp only [Action.plan, hmethod, hcancelled]
        exact .answer (.some hσ)
  | setCancelled =>
    cases h
    cases hpaired rfl with
    | none => exact .answer .none
    | some hσ =>
      rcases hσ.cases with ⟨c, c', attrs, rfl, rfl⟩ | ⟨c, c', attrs, rfl, rfl, htaps, hmethod, -⟩
      · exact .answer (.some hσ)
      · exact .answer (.some ⟨.server htaps hmethod rfl, rfl⟩)
  | resolve | entries | drain => cases ha

end

end Session

end

end BinaryLog
