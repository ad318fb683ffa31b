import BinaryLog.Session.Script

/-!
# Running a session

`Session.step` performs one step of a script and `Session.run` a whole script. The state between
steps is the rule table, the sink, the calls by name, and the attributes of all calls there have
been, which handles lead to; the failures that a step plans do not outlast it.
-/

namespace BinaryLog

/-- A call on either side. -/
inductive Call where
  | client (call : ClientCall)
  | server (call : ServerCall)
  deriving DecidableEq, Repr

namespace Call

/-- The handle of the call itself onto its attributes. -/
def attributes : Call → AttributeHandle
  | client c => c.attributes
  | server c => c.attributes

/-- The handle through which a holder sees the attributes of the call. -/
def handle : Session.Holder → Call → AttributeHandle
  | .transport, client c => c.transport
  | .transport, server c => c.transport
  | .application, client c => c.handle
  | .application, server c => c.handle

/-- An operation on a call or its listener; `none` if there is nothing to do it on. -/
def perform (store : AttributeStore) (op : Operation) (w : Surroundings) :
    Call → Option (Except Error Unit × Call × Surroundings)
  | client c => (c.perform store op w).map fun (result, c, w) => (result, client c, w)
  | server c => (c.perform op w).map fun (result, w) => (result, server c, w)

end Call

/-- The calls of a session by name, and the attributes to which their handles lead. -/
@[ext]
structure Calls where
  named : String → Option Call
  attributes : AttributeStore

namespace Calls

instance : CoeFun Calls fun _ => String → Option Call := ⟨named⟩

/-- No calls. -/
protected def none : Calls := ⟨fun _ => none, .empty⟩

/-- The calls with one of them replaced, or removed. -/
def set (calls : Calls) (name : String) (call : Option Call) : Calls :=
  { calls with named := fun other => if other = name then call else calls other }

/-- The attributes of a new call are created: the transport's handle onto them, and the calls. -/
def create (calls : Calls) (remote : Option PeerAddress) : AttributeHandle × Calls :=
  let (transport, attributes) := calls.attributes.create ⟨remote⟩
  (transport, { calls with attributes })

end Calls

/-- The state of a session between steps. -/
structure Session where
  table : Config.RuleTable
  sink : Sink
  calls : Calls

namespace Session

/-- A session without calls. -/
def start (table : Config.RuleTable) (sink : Sink) : Session := ⟨table, sink, .none⟩

/-- Performs an action: what comes of it, the calls afterwards, and the surroundings afterwards. -/
def perform (table : Config.RuleTable) (calls : Calls) (w : Surroundings) :
    Action → Outcome × Calls × Surroundings
  | .openClient name method ids remote =>
    let taps := table.taps method ids
    let (transport, calls) := calls.create remote
    (.answered (.opened (taps.head?.map Tap.id)),
      calls.set name (some (.client (.opened taps transport))), w.note (.newCall method))
  | .openServer name method ids remote headers =>
    let taps := table.taps method ids
    let (transport, calls) := calls.create remote
    match ServerCall.intercept method calls.attributes transport headers taps w with
    | (.ok c, w) =>
      (.answered (.opened (taps.head?.map Tap.id)), calls.set name (some (.server c)), w)
    | (.error e, w) => (.failed e, calls.set name none, w)
  | .operate name op =>
    match (calls name).bind (Call.perform calls.attributes op w) with
    | some (result, c, w) => (.ofResult result, calls.set name (some c), w)
    | none => (.skipped, calls, w)
  | .peer name =>
    match calls name with
    | some c =>
      (.answered (.address (calls.attributes.get (c.handle .application)).peer), calls, w)
    | none => (.skipped, calls, w)
  | .setPeer name holder address =>
    match calls name with
    | some c =>
      let (fresh, attributes) := calls.attributes.record (c.handle holder) address
      (.answered (.flag fresh), { calls with attributes }, w)
    | none => (.skipped, calls, w)
  | .isCancelled name =>
    match calls name with
    | some (.server c) => (.answered (.flag (Tap.askThrough c.cancelled c.callTaps)), calls, w)
    | _ => (.skipped, calls, w)
  | .setCancelled name =>
    match calls name with
    | some (.server c) =>
      (.answered .done, calls.set name (some (.server { c with cancelled := true })), w)
    | _ => (.skipped, calls, w)
  | .methodName name =>
    match calls name with
    | some (.server c) => (.answered (.name (Tap.askThrough c.methodName c.callTaps)), calls, w)
    | _ => (.skipped, calls, w)
  | .resolve method => (.answered (.limits (table.lookup method)), calls, w)
  | .entries => (.answered (.entries w.sink.entries), calls, w)
  | .drain =>
    let (entries, sink) := w.sink.drain
    (.answered (.entries entries), calls, { w with sink })

/-- Performs a step. -/
def step (s : Session) (st : Step) : Report × Session :=
  let w : Surroundings := ⟨s.sink, st.sinkFault, st.callFault, []⟩
  let (outcome, calls, w) := perform s.table s.calls w st.action
  (⟨outcome, w.trace⟩, { s with sink := w.sink, calls })

/-- Performs the steps of a script in order. -/
def run (s : Session) : List Step → List Report × Session
  | [] => ([], s)
  | st :: script =>
    let (report, s) := s.step st
    let (reports, s) := s.run script
    (report :: reports, s)

end Session

end BinaryLog
