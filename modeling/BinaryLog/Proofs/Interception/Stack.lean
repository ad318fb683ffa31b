import BinaryLog.Proofs.Interception.Pass
import BinaryLog.Session.Run

/-!
# Calls on a stack

A call that was opened on a stack of taps, outermost first, keeps them in the order of the stack or
in reverse order, depending on which way its operations go (`Call.Stacked`). All handles onto its
attributes are onto the same: the transport's, its own and that of each level on its listener
(`Call.Aliased`). `Call.toLog` is what the levels of the stack have to log for an operation when the
attributes hold something, in order, and `Call.after` the call after it.

* `Call.perform_pass`: an operation passes the levels that have to log it.
* `Call.Reachable`: the states of a call opened on a stack; they are all `Stacked` and `Aliased`.
* `Call.Follows`: one state of a call may come after another.
-/

namespace BinaryLog

/-! ## What the levels have to log -/

/-- What the levels of `stack` log of an operation on a client call, in order, when its attributes
are `attrs`; `none` if there is nothing to do it on. The application's operations go inwards and the
listener's callbacks outwards. -/
def ClientCall.toLog (attrs : Attributes) (stack : List Tap) (c : ClientCall) :
    Operation → Option (List Entry)
  | .start headers => some (stack.map (·.entry .client (.sentHeaders headers)))
  | .sendMessage data => some (stack.map (·.entry .client (.sent data)))
  | .onHeaders headers => c.listener.map fun l =>
    l.pending.map (·.entry .client (.receivedHeaders headers attrs.peer))
  | .onMessage data => c.listener.map fun _ =>
    stack.reverse.map (·.entry .client (.received data))
  | .onClose _ trailers => c.listener.map fun _ =>
    stack.reverse.map (·.entry .client (.receivedTrailers trailers))
  | .onReady => c.listener.map fun _ => []
  | .request _ | .halfClose | .cancel _ => some []
  | .sendHeaders _ | .close _ _ | .onHalfClose | .onCancel | .onComplete => none

/-- What the levels of `stack` log of an operation on a server call, in order; `none` if it is none
of its operations. What the handler does with the call goes outwards and the listener's callbacks
inwards. -/
def ServerCall.toLog (stack : List Tap) : Operation → Option (List Entry)
  | .sendHeaders headers => some (stack.reverse.map (·.entry .server (.sentHeaders headers)))
  | .sendMessage data => some (stack.reverse.map (·.entry .server (.sent data)))
  | .close _ trailers => some (stack.reverse.map (·.entry .server (.sentTrailers trailers)))
  | .onMessage data => some (stack.map (·.entry .server (.received data)))
  | .request _ | .onReady | .onHalfClose | .onCancel | .onComplete => some []
  | .start _ | .halfClose | .cancel _ | .onHeaders _ | .onClose _ _ => none

/-- A client call after an operation for which `n` writes returned ok: starting registers a listener
that has logged no headers yet, each level with a handle of the call, and the levels that log
response headers are marked. -/
def ClientCall.after (op : Operation) (n : Nat) (result : Except Error Unit) (c : ClientCall) :
    ClientCall :=
  match op, result with
  | .start _, .ok () => { c with listener := some (c.taps.reverse.map (⟨·, c.attributes, false⟩)) }
  | .onHeaders _, _ => { c with listener := c.listener.map (·.marked n) }
  | _, _ => c

namespace Call

def toLog (attrs : Attributes) (stack : List Tap) (op : Operation) : Call → Option (List Entry)
  | client c => c.toLog attrs stack op
  | server _ => ServerCall.toLog stack op

def after (op : Operation) (n : Nat) (result : Except Error Unit) : Call → Call
  | client c => client (c.after op n result)
  | server c => server c

/-- The taps on the call and on its listener are those of `stack`, in the order in which operations
pass them. -/
def Stacked (stack : List Tap) : Call → Prop
  | client c => c.taps = stack ∧ ∀ l ∈ c.listener, l.taps = stack.reverse
  | server c => c.callTaps = stack.reverse ∧ c.listenerTaps = stack

/-- The handles onto the attributes of the call: the transport's, the call's own, the one that it
gives out through its taps, and those that the levels on its listener took. -/
def handles : Call → List AttributeHandle
  | client c => [c.transport, c.attributes, c.handle] ++ (c.listener.getD []).map (·.attributes)
  | server c => [c.transport, c.attributes, c.handle]

/-- All handles of the call are onto the same attributes. -/
def Aliased (c : Call) : Prop := ∀ h ∈ c.handles, h = c.attributes

end Call

/-! ## Handles -/

@[simp] theorem ClientCall.handle_eq (c : ClientCall) : c.handle = c.attributes := by simp [handle]

@[simp] theorem ServerCall.handle_eq (c : ServerCall) : c.handle = c.attributes := by simp [handle]

namespace Call

theorem aliased_client_iff {c : ClientCall} :
    (client c).Aliased ↔ c.transport = c.attributes ∧
      ∀ l ∈ c.listener, ∀ level ∈ l, level.attributes = c.attributes := by
  cases hl : c.listener <;> simp [Aliased, handles, attributes, hl]

theorem aliased_server_iff {c : ServerCall} :
    (server c).Aliased ↔ c.transport = c.attributes := by
  simp [Aliased, handles, attributes]

theorem Aliased.handle_eq {c : Call} (h : c.Aliased) (holder : Session.Holder) :
    c.handle holder = c.attributes := by
  cases c <;> cases holder <;> exact h _ (by simp [handles, handle])

end Call

/-! ## Operations -/

section
variable {stack : List Tap} {op : Operation} {entries : List Entry}

theorem ClientCall.perform_eq_none {c : ClientCall} {attrs : Attributes}
    (h : c.toLog attrs stack op = none) (store : AttributeStore) (w : Surroundings) :
    c.perform store op w = none := by
  cases op <;> simp [toLog, perform] at h ⊢ <;> exact h

theorem ServerCall.perform_eq_none {c : ServerCall} (h : toLog stack op = none)
    (w : Surroundings) : c.perform op w = none := by
  cases op <;> simp [toLog, perform] at h ⊢

theorem ServerCall.perform_pass {c : ServerCall} (hc : (Call.server c).Stacked stack)
    (h : toLog stack op = some entries) (w : Surroundings) :
    ∃ n result w', Pass entries (.operation op) w n result w' ∧
      c.perform op w = some (result, w') := by
  obtain ⟨hcall, hlistener⟩ := hc
  cases op <;> simp only [toLog, Option.some.injEq, reduceCtorEq] at h <;> subst h <;>
    simp only [perform, hcall, hlistener, Option.some.injEq]
  case request | onReady | onHalfClose | onCancel | onComplete => exact relay_none_pass ..
  all_goals exact relay_pass ..

theorem ClientCall.perform_pass {c : ClientCall} {store : AttributeStore}
    (hc : (Call.client c).Stacked stack) (ha : (Call.client c).Aliased)
    (h : c.toLog (store.get c.attributes) stack op = some entries) (w : Surroundings) :
    ∃ n result w', Pass entries (.operation op) w n result w' ∧
      c.perform store op w = some (result, c.after op n result, w') := by
  obtain ⟨rfl, hlistener⟩ := hc
  cases op with
  | start headers =>
    obtain ⟨n, result, w', hp, heq⟩ := startThrough_pass c.attributes headers c.taps [] w
    obtain rfl := Option.some.inj h
    refine ⟨n, result, w', hp, ?_⟩
    cases result <;> simp [perform, heq, after, Except.map]
  | sendMessage data =>
    obtain ⟨n, result, w', hp, heq⟩ := relay_pass .client (.sent data) (.sendMessage data) c.taps w
    obtain rfl := Option.some.inj h
    exact ⟨n, result, w', hp, by simp [perform, heq, after]⟩
  | request | halfClose | cancel =>
    obtain rfl := Option.some.inj h
    obtain ⟨n, result, w', hp, heq⟩ := relay_none_pass .client _ c.taps w
    exact ⟨n, result, w', hp, by simp [perform, heq, after]⟩
  | onHeaders headers =>
    obtain ⟨l, hl, rfl⟩ := Option.map_eq_some_iff.1 h
    obtain ⟨n, result, w', hp, heq⟩ :=
      ClientListener.onHeaders_pass store headers ((Call.aliased_client_iff.1 ha).2 l hl) w
    exact ⟨n, result, w', hp, by simp [perform, hl, heq, after]⟩
  | onMessage data =>
    obtain ⟨l, hl, rfl⟩ := Option.map_eq_some_iff.1 h
    obtain ⟨n, result, w', hp, heq⟩ :=
      relay_pass .client (.received data) (.onMessage data) l.taps w
    rw [hlistener l hl] at hp heq
    exact ⟨n, result, w', hp, by simp [perform, hl, hlistener l hl, heq, after]⟩
  | onClose status trailers =>
    obtain ⟨l, hl, rfl⟩ := Option.map_eq_some_iff.1 h
    obtain ⟨n, result, w', hp, heq⟩ :=
      relay_pass .client (.receivedTrailers trailers) (.onClose status trailers) l.taps w
    rw [hlistener l hl] at hp heq
    exact ⟨n, result, w', hp, by
      simp [perform, hl, hlistener l hl, CallEvent.passedTrailers, heq, after]⟩
  | onReady =>
    obtain ⟨l, hl, rfl⟩ := Option.map_eq_some_iff.1 h
    obtain ⟨n, result, w', hp, heq⟩ := relay_none_pass .client .onReady l.taps w
    exact ⟨n, result, w', hp, by simp [perform, hl, heq, after]⟩
  | sendHeaders | close | onHalfClose | onCancel | onComplete => cases h

namespace Call

variable {c : Call} {store : AttributeStore}

theorem perform_eq_none {attrs : Attributes} (h : c.toLog attrs stack op = none)
    (store : AttributeStore) (w : Surroundings) : c.perform store op w = none := by
  cases c with
  | client c => simp [perform, ClientCall.perform_eq_none h store w]
  | server c => simp [perform, ServerCall.perform_eq_none h w]

/-- **An operation on a call passes the levels that have to log it.** -/
theorem perform_pass (hc : c.Stacked stack) (ha : c.Aliased)
    (h : c.toLog (store.get c.attributes) stack op = some entries) (w : Surroundings) :
    ∃ n result w', Pass entries (.operation op) w n result w' ∧
      c.perform store op w = some (result, c.after op n result, w') := by
  cases c with
  | client c =>
    obtain ⟨n, result, w', hp, heq⟩ := ClientCall.perform_pass hc ha h w
    exact ⟨n, result, w', hp, by simp [perform, heq, after]⟩
  | server c =>
    obtain ⟨n, result, w', hp, heq⟩ := ServerCall.perform_pass hc h w
    exact ⟨n, result, w', hp, by simp [perform, heq, after]⟩

end Call

end

/-- **An incoming call passes the levels of its stack**, and the handler takes it up on that
stack. -/
theorem ServerCall.intercept_pass (methodName : String) (store : AttributeStore)
    (transport : AttributeHandle) (headers : Metadata) (stack : List Tap) (w : Surroundings) :
    ∃ n result w',
      Pass (stack.map (·.entry .server (.receivedHeaders headers (store.get transport).peer)))
        (.startCall headers) w n result w' ∧
      intercept methodName store transport headers stack w =
        (result.map fun _ =>
          { methodName, transport, attributes := transport, cancelled := false,
            callTaps := stack.reverse, listenerTaps := stack }, w') := by
  obtain ⟨n, result, w', hp, heq⟩ := interceptThrough_pass store transport headers stack [] w
  refine ⟨n, result, w', hp, ?_⟩
  cases result <;> simp [intercept, heq, Except.map]

/-! ## Reachable states -/

namespace Call

/-- The states of a call that was opened on a stack of taps: any operations may have been performed
on it, in any surroundings and whatever its attributes held, and the transport may have cancelled
it. -/
inductive Reachable (stack : List Tap) : Call → Prop
  | opened (transport : AttributeHandle) : Reachable stack (client (.opened stack transport))
  | accepted {methodName : String} {store : AttributeStore} {transport : AttributeHandle}
      {headers : Metadata} {w w' : Surroundings} {c : ServerCall} :
      ServerCall.intercept methodName store transport headers stack w = (.ok c, w') →
      Reachable stack (server c)
  | performed {c c' : Call} {store : AttributeStore} {op : Operation} {w w' : Surroundings}
      {result : Except Error Unit} :
      Reachable stack c → c.perform store op w = some (result, c', w') → Reachable stack c'
  | cancelled {c : ServerCall} :
      Reachable stack (server c) → Reachable stack (server { c with cancelled := true })

variable {stack : List Tap} {c : Call}

theorem Stacked.after (h : c.Stacked stack) (op : Operation) (n : Nat)
    (result : Except Error Unit) : (c.after op n result).Stacked stack := by
  cases c with
  | server c => exact h
  | client c =>
    obtain ⟨rfl, hlistener⟩ := h
    refine ⟨?_, fun l hl => ?_⟩
    · simp only [ClientCall.after]
      split <;> rfl
    · simp only [ClientCall.after] at hl ⊢
      split at hl
      · cases hl
        simp [ClientListener.taps, Function.comp_def]
      · obtain ⟨l', hl', rfl⟩ := Option.map_eq_some_iff.1 hl
        simpa using hlistener l' hl'
      · exact hlistener l hl

@[simp] theorem attributes_after (op : Operation) (n : Nat) (result : Except Error Unit)
    (c : Call) : (c.after op n result).attributes = c.attributes := by
  cases c with
  | server c => rfl
  | client c =>
    simp only [after, attributes, ClientCall.after]
    split <;> rfl

/-- The levels of a new listener take handles of the call, and otherwise no handle changes. -/
theorem Aliased.after (h : c.Aliased) (op : Operation) (n : Nat) (result : Except Error Unit) :
    (c.after op n result).Aliased := by
  cases c with
  | server c => exact h
  | client c =>
    obtain ⟨htransport, hlistener⟩ := aliased_client_iff.1 h
    simp only [Call.after, ClientCall.after]
    split
    · refine aliased_client_iff.2 ⟨htransport, fun l hl level hlevel => ?_⟩
      cases hl
      obtain ⟨tap, -, rfl⟩ := List.mem_map.1 hlevel
      rfl
    · refine aliased_client_iff.2 ⟨htransport, fun l hl level hlevel => ?_⟩
      obtain ⟨l', hl', rfl⟩ := Option.map_eq_some_iff.1 hl
      obtain ⟨level', hlevel', heq⟩ := ClientListener.attributes_of_mem_marked hlevel
      rw [← heq]
      exact hlistener l' hl' level' hlevel'
    · exact h

/-- What a handler takes up is the call on its stack, with the handles of the transport. -/
theorem eq_of_accepted {methodName : String} {store : AttributeStore} {transport : AttributeHandle}
    {headers : Metadata} {w w' : Surroundings} {c : ServerCall}
    (h : ServerCall.intercept methodName store transport headers stack w = (.ok c, w')) :
    c = ⟨methodName, transport, transport, false, stack.reverse, stack⟩ := by
  obtain ⟨n, result, w'', -, heq⟩ :=
    ServerCall.intercept_pass methodName store transport headers stack w
  rw [h] at heq
  cases result with
  | error e => cases heq
  | ok =>
    cases heq
    rfl

/-- Every reachable state has the taps of the stack in place, and one place for its attributes. -/
theorem Reachable.stacked_aliased (h : Reachable stack c) : c.Stacked stack ∧ c.Aliased := by
  induction h with
  | opened transport =>
    exact ⟨⟨rfl, by simp [ClientCall.opened]⟩,
      aliased_client_iff.2 ⟨rfl, by simp [ClientCall.opened]⟩⟩
  | accepted h =>
    obtain rfl := eq_of_accepted h
    exact ⟨⟨rfl, rfl⟩, aliased_server_iff.2 rfl⟩
  | @performed c c' store op w w' result _ h ih =>
    obtain ⟨hstacked, haliased⟩ := ih
    cases hlog : c.toLog (store.get c.attributes) stack op with
    | none =>
      rw [perform_eq_none hlog store w] at h
      cases h
    | some entries =>
      obtain ⟨n, result', w'', -, heq⟩ := perform_pass hstacked haliased hlog w
      rw [heq] at h
      cases h
      exact ⟨hstacked.after op n _, haliased.after op n _⟩
  | cancelled _ ih => exact ih

theorem Reachable.stacked (h : Reachable stack c) : c.Stacked stack := h.stacked_aliased.1

/-- **All handles onto the attributes of a call are onto the same**, those that the levels on its
listener took through the stack included. -/
theorem Reachable.aliased (h : Reachable stack c) : c.Aliased := h.stacked_aliased.2

def side : Call → Side
  | client _ => .client
  | server _ => .server

/-- A later state of a call: on the same side, with the same handle onto its attributes, and reached
on every stack on which the earlier one is. -/
structure Follows (c₀ c : Call) : Prop where
  side : c.side = c₀.side
  attributes : c.attributes = c₀.attributes
  reachable : ∀ stack, c₀.Reachable stack → c.Reachable stack

theorem Follows.refl (c : Call) : c.Follows c := ⟨rfl, rfl, fun _ h => h⟩

theorem attributes_perform {c c' : Call} {store : AttributeStore} {op : Operation}
    {w w' : Surroundings} {result : Except Error Unit}
    (h : c.perform store op w = some (result, c', w')) : c'.attributes = c.attributes := by
  cases c with
  | server c =>
    obtain ⟨_, -, heq⟩ := Option.map_eq_some_iff.1 h
    cases heq
    rfl
  | client c =>
    obtain ⟨⟨result₁, c₁, w₁⟩, hperform, heq⟩ := Option.map_eq_some_iff.1 h
    cases heq
    cases op with
    | start headers =>
      rw [ClientCall.perform] at hperform
      split at hperform <;> cases hperform <;> rfl
    | sendMessage | request | halfClose | cancel =>
      cases hperform
      rfl
    | onHeaders | onMessage | onClose | onReady =>
      obtain ⟨l, -, heq⟩ := Option.map_eq_some_iff.1 hperform
      cases heq
      rfl
    | sendHeaders | close | onHalfClose | onCancel | onComplete => cases hperform

theorem Follows.performed {c c' : Call} {store : AttributeStore} {op : Operation}
    {w w' : Surroundings} {result : Except Error Unit}
    (h : c.perform store op w = some (result, c', w')) : c.Follows c' := by
  refine ⟨?_, attributes_perform h, fun _ hr => .performed hr h⟩
  cases c <;> obtain ⟨_, -, heq⟩ := Option.map_eq_some_iff.1 h <;> cases heq <;> rfl

theorem Follows.cancelled (c : ServerCall) :
    (server c).Follows (server { c with cancelled := true }) :=
  ⟨rfl, rfl, fun _ hr => .cancelled hr⟩

end Call

end BinaryLog
