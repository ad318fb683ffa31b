import BinaryLog.Call.Client
import BinaryLog.Call.Server

/-!
# Session scripts

A session is a run of named client and server calls over one rule table and one sink. A script is
the list of its steps: each opens a call, does something with one, or looks at the rules or the
sink, and may make one sink write and one operation beyond the taps fail. `Report` is what a step
answers and what happened meanwhile.
-/

namespace BinaryLog.Session

/-- Who records the remote address of a call, each through a handle of its own: the transport, or
whoever asks the call for one, through its taps. -/
inductive Holder where
  | transport
  | application
  deriving DecidableEq, Repr

/-- What a step does. -/
inductive Action where
  /-- Opens a client call under a name, replacing an earlier call of that name. The ids are those
  of its taps, outermost first, in case its method is logged. -/
  | openClient (call methodName : String) (ids : List CallId) (remote : Option PeerAddress)
  /-- A server call arrives and is taken up under a name. -/
  | openServer (call methodName : String) (ids : List CallId) (remote : Option PeerAddress)
      (headers : Metadata)
  /-- An operation on a call or its listener. -/
  | operate (call : String) (op : Operation)
  /-- Asks a call for its peer. -/
  | peer (call : String)
  /-- The remote address of a call is recorded. -/
  | setPeer (call : String) (holder : Holder) (address : PeerAddress)
  /-- Asks a server call whether it is cancelled. -/
  | isCancelled (call : String)
  /-- The transport cancels a server call. -/
  | setCancelled (call : String)
  /-- Asks a server call for its method. -/
  | methodName (call : String)
  /-- Looks up a method. -/
  | resolve (methodName : String)
  /-- Asks for the entries in memory. -/
  | entries
  /-- Removes the entries in memory. -/
  | drain
  deriving DecidableEq, Repr

/-- An action with the failures planned for it, which lapse when it ends. -/
structure Step where
  action : Action
  /-- Why the first operation fails that reaches beyond the taps. -/
  callFault : Option String
  /-- Why the first entry is refused. -/
  sinkFault : Option String
  deriving DecidableEq, Repr

/-- What a step answers when nothing fails. -/
inductive Answer where
  | done
  /-- A call was opened: the id of its outermost tap, if it has one. -/
  | opened (logged : Option CallId)
  | address (address : PeerAddress)
  | flag (value : Bool)
  | name (text : String)
  | limits (limits : Option Limits)
  | entries (entries : List Entry)
  deriving DecidableEq, Repr

/-- What comes of a step. -/
inductive Outcome where
  | answered (answer : Answer)
  | failed (error : Error)
  /-- There was no call, or no listener, to do it on. -/
  | skipped
  deriving DecidableEq, Repr

/-- The outcome of an operation that answers nothing when it succeeds. -/
def Outcome.ofResult : Except Error Unit → Outcome
  | .ok () => answered .done
  | .error e => failed e

/-- A step's outcome, and what happened in the meantime. -/
structure Report where
  outcome : Outcome
  trace : List Happening
  deriving DecidableEq, Repr

end BinaryLog.Session
