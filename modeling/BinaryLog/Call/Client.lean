import BinaryLog.Attributes
import BinaryLog.Call.Surroundings

/-!
# Client calls with taps

A client call has a stack of taps, outermost first. Operations of the application pass the stack
from outside to inside. Starting the call wraps the listener once per tap on the way in, so that
callbacks, which start at the innermost tap, pass the taps from inside to outside. Each tap on a
listener logs the response headers once, with the peer that is known by then: it does not know the
call, and sees its attributes through a handle that it took when the call was started.
-/

namespace BinaryLog

/-- A tap on a client's listener. -/
structure ListenerTap where
  tap : Tap
  /-- The handle onto the attributes of the call. -/
  attributes : AttributeHandle
  /-- Whether response headers have been logged. -/
  sawHeaders : Bool
  deriving DecidableEq, Repr

/-- The taps on a client's listener, in the order in which callbacks pass them. -/
abbrev ClientListener := List ListenerTap

namespace ClientListener

/-- Response headers pass a listener: each tap that has not logged any yet logs them and remembers
it, whatever comes of passing them on. Returns the listener as it is afterwards. -/
def onHeaders (store : AttributeStore) (headers : Metadata) :
    ClientListener → Surroundings → Except Error Unit × ClientListener × Surroundings
  | [], w =>
    let (result, w) := w.reach (.operation (.onHeaders headers))
    (result, [], w)
  | l :: ls, w =>
    if l.sawHeaders then
      let (result, ls, w) := onHeaders store headers ls w
      (result, l :: ls, w)
    else
      let peer := (store.get l.attributes).peer
      match w.log (l.tap.entry .client (.receivedHeaders headers peer)) with
      | (.error e, w) => (.error e, l :: ls, w)
      | (.ok (), w) =>
        let (result, ls, w) := onHeaders store headers ls w
        (result, { l with sawHeaders := true } :: ls, w)

/-- The taps alone. -/
def taps (l : ClientListener) : List Tap := l.map ListenerTap.tap

end ClientListener

/-- A client call. -/
structure ClientCall where
  /-- Outermost first. -/
  taps : List Tap
  /-- The transport's handle onto the attributes of the call. -/
  transport : AttributeHandle
  /-- The handle of the call itself, beyond its taps. -/
  attributes : AttributeHandle
  /-- The listener that the transport was last given. -/
  listener : Option ClientListener
  deriving DecidableEq, Repr

namespace ClientCall

/-- A new call with taps on it; `transport` is the transport's handle onto its attributes. -/
def opened (taps : List Tap) (transport : AttributeHandle) : ClientCall :=
  ⟨taps, transport, transport.share, none⟩

/-- The handle onto its attributes that the call gives out, through its taps. -/
def handle (c : ClientCall) : AttributeHandle := Tap.askThrough c.attributes.share c.taps

/-- Starting passes the taps from outside to inside, each logging the headers and then wrapping the
listener, with a handle that it takes from the call within it; `own` is the handle of the call
beyond all taps. Returns the listener that the transport is given. -/
def startThrough (own : AttributeHandle) (headers : Metadata) :
    List Tap → ClientListener → Surroundings → Except Error ClientListener × Surroundings
  | [], listener, w =>
    let (result, w) := w.reach (.operation (.start headers))
    (result.map fun _ => listener, w)
  | tap :: taps, listener, w =>
    match w.log (tap.entry .client (.sentHeaders headers)) with
    | (.error e, w) => (.error e, w)
    | (.ok (), w) =>
      let attributes := Tap.askThrough own.share taps
      startThrough own headers taps (⟨tap, attributes, false⟩ :: listener) w

/-- An operation on a client call or its listener; `none` if there is nothing to do it on. -/
def perform (store : AttributeStore) (c : ClientCall) (op : Operation) (w : Surroundings) :
    Option (Except Error Unit × ClientCall × Surroundings) :=
  match op with
  | .start headers =>
    match startThrough c.attributes headers c.taps [] w with
    | (.ok listener, w) => some (.ok (), { c with listener := some listener }, w)
    | (.error e, w) => some (.error e, c, w)
  | .sendMessage data =>
    let (result, w) := w.relay .client (some (.sent data)) op c.taps
    some (result, c, w)
  | .request _ | .halfClose | .cancel _ =>
    let (result, w) := w.relay .client none op c.taps
    some (result, c, w)
  | .onHeaders headers => c.listener.map fun listener =>
    let (result, listener, w) := listener.onHeaders store headers w
    (result, { c with listener := some listener }, w)
  | .onMessage data => c.listener.map fun listener =>
    let (result, w) := w.relay .client (some (.received data)) op listener.taps
    (result, c, w)
  | .onClose _ trailers => c.listener.map fun listener =>
    let (result, w) := w.relay .client (some (.passedTrailers .client trailers)) op listener.taps
    (result, c, w)
  | .onReady => c.listener.map fun listener =>
    let (result, w) := w.relay .client none op listener.taps
    (result, c, w)
  | .sendHeaders _ | .close _ _ | .onHalfClose | .onCancel | .onComplete => none

end ClientCall

end BinaryLog
