import BinaryLog.Attributes
import BinaryLog.Call.Surroundings

/-!
# Server calls with taps

An incoming call passes a stack of taps from outside to inside until it reaches the handler. Each
tap logs the request headers and then wraps the call; the listener that the handler returns is
wrapped on the way back. So what the handler does with its call starts at the innermost tap and
passes the taps from inside to outside, and callbacks pass them from outside to inside.
-/

namespace BinaryLog

/-- A server call that a handler has taken up. -/
structure ServerCall where
  methodName : String
  /-- The transport's handle onto the attributes of the call. -/
  transport : AttributeHandle
  /-- The handle of the call itself, beyond its taps. -/
  attributes : AttributeHandle
  cancelled : Bool
  /-- The taps on the call, innermost first. -/
  callTaps : List Tap
  /-- The taps on the listener, outermost first. -/
  listenerTaps : List Tap
  deriving DecidableEq, Repr

namespace ServerCall

/-- The handle onto its attributes that the call gives out, through its taps. -/
def handle (c : ServerCall) : AttributeHandle := Tap.askThrough c.attributes.share c.callTaps

/-- An incoming call passes taps from outside to inside, `wrapped` being those it has passed,
innermost first, and `own` its own handle. Each tap logs the peer that is known to the call as it
gets it. Returns the taps on the call that the handler is given and those on its listener, each in
the order in which operations pass them. -/
def interceptThrough (store : AttributeStore) (own : AttributeHandle) (headers : Metadata) :
    List Tap → List Tap → Surroundings → Except Error (List Tap × List Tap) × Surroundings
  | [], wrapped, w =>
    let (result, w) := w.reach (.startCall headers)
    (result.map fun _ => (wrapped, []), w)
  | tap :: taps, wrapped, w =>
    let peer := (store.get (Tap.askThrough own.share wrapped)).peer
    match w.log (tap.entry .server (.receivedHeaders headers peer)) with
    | (.error e, w) => (.error e, w)
    | (.ok (), w) =>
      let (result, w) := interceptThrough store own headers taps (tap :: wrapped) w
      (result.map fun (onCall, onListener) => (onCall, tap :: onListener), w)

/-- An incoming call passes a stack of taps, outermost first, and is taken up by a handler;
`transport` is the transport's handle onto its attributes. -/
def intercept (methodName : String) (store : AttributeStore) (transport : AttributeHandle)
    (headers : Metadata) (taps : List Tap) (w : Surroundings) :
    Except Error ServerCall × Surroundings :=
  let attributes := transport.share
  let (result, w) := interceptThrough store attributes headers taps [] w
  (result.map fun (callTaps, listenerTaps) =>
    { methodName, transport, attributes, cancelled := false, callTaps, listenerTaps }, w)

/-- An operation on a server call or its listener; `none` if it is none of theirs. -/
def perform (c : ServerCall) (op : Operation) (w : Surroundings) :
    Option (Except Error Unit × Surroundings) :=
  match op with
  | .sendHeaders headers => some (w.relay .server (some (.sentHeaders headers)) op c.callTaps)
  | .sendMessage data => some (w.relay .server (some (.sent data)) op c.callTaps)
  | .close _ trailers =>
    some (w.relay .server (some (.passedTrailers .server trailers)) op c.callTaps)
  | .request _ => some (w.relay .server none op c.callTaps)
  | .onMessage data => some (w.relay .server (some (.received data)) op c.listenerTaps)
  | .onReady | .onHalfClose | .onCancel | .onComplete =>
    some (w.relay .server none op c.listenerTaps)
  | .start _ | .halfClose | .cancel _ | .onHeaders _ | .onClose _ _ => none

end ServerCall

end BinaryLog
