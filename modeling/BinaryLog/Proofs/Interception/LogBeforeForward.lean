import BinaryLog.Proofs.Session.Opening

/-!
# Every level logs before anything is forwarded

`levels_log_before_forwarding`: on a stack of taps of any height, the arrival of a call and every
operation on a call, in any state it can get into, is a `Pass` over the entries that `Call.toLog`
gives. So either each level has logged, in the order in which the operation goes, and the party
beyond is reached once and answers; or the first write that fails is the end of it. The calls of a
session are such calls.
-/

namespace BinaryLog

/-- **Every level logs before anything is forwarded.** -/
theorem levels_log_before_forwarding (stack : List Tap) :
    (∀ methodName store transport headers w, ∃ n result w',
      Pass (stack.map (·.entry .server (.receivedHeaders headers (store.get transport).peer)))
        (.startCall headers) w n result w' ∧
      ServerCall.intercept methodName store transport headers stack w =
        (result.map fun _ =>
          { methodName, transport, attributes := transport, cancelled := false,
            callTaps := stack.reverse, listenerTaps := stack }, w')) ∧
    (∀ c : Call, c.Reachable stack → c.Stacked stack ∧ ∀ store op w,
      let attrs := store.get c.attributes
      c.toLog attrs stack op = none ∧ c.perform store op w = none ∨
      ∃ entries n result w', c.toLog attrs stack op = some entries ∧
        Pass entries (.operation op) w n result w' ∧
        c.perform store op w = some (result, c.after op n result, w')) ∧
    ∀ table sink script name c,
      ((Session.start table sink).run script).2.calls name = some c →
      ∃ method ids, Session.lastOpening name script = some (method, ids) ∧
        c.Reachable (table.taps method ids) := by
  refine ⟨fun methodName store transport headers w => ?_,
    fun c hc => ⟨hc.stacked, fun store op w => ?_⟩,
    fun table sink script name c hc => Session.reachable_of_run hc⟩
  · exact ServerCall.intercept_pass methodName store transport headers stack w
  · intro attrs
    cases hlog : c.toLog attrs stack op with
    | none => exact .inl ⟨rfl, Call.perform_eq_none hlog store w⟩
    | some entries =>
      obtain ⟨n, result, w', hp, heq⟩ := Call.perform_pass hc.stacked hc.aliased hlog w
      exact .inr ⟨entries, n, result, w', rfl, hp, heq⟩

/-- The inner one of two levels logs after the outer one, and then the transport fails. -/
theorem levels_log_before_forwarding_of_two :
    let taps : List Tap := [⟨.unbounded, ⟨0, 1⟩⟩, ⟨.headersOnly 4, ⟨0, 2⟩⟩]
    let store : AttributeStore := ⟨[.empty]⟩
    let transport : AttributeHandle := ⟨0⟩
    let c : Call := .client (.opened taps transport)
    let w : Surroundings := ⟨.memory [], none, some "down", []⟩
    c.Reachable taps ∧ ∃ w',
      Pass (taps.map (·.entry .client (.sent [7]))) (.operation (.sendMessage [7])) w 2
        (.error (.callFailure "down")) w' ∧
      c.perform store (.sendMessage [7]) w = some (.error (.callFailure "down"), c, w') := by
  intro taps store transport c w
  have hc : c.Reachable taps := .opened transport
  rcases ((levels_log_before_forwarding taps).2.1 c hc).2 store (.sendMessage [7]) w with
    ⟨h, -⟩ | ⟨entries, n, result, w', h, hp, heq⟩
  · cases h
  · cases h
    cases heq
    obtain rfl : n = 2 := hp.eq_length_of_not_refused rfl
    exact ⟨hc, _, hp, rfl⟩

end BinaryLog
