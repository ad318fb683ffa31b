import BinaryLog.Metadata
import BinaryLog.Status

/-!
# Call operations

What can be done with a call or told to its listener, on either side, as data. A tap forwards an
operation as it is, so one type serves for what is asked of a call and for what reaches the
transport.
-/

namespace BinaryLog

/-- An operation on a call, or a callback of its listener. -/
inductive Operation where
  /-- The client starts the call and registers its listener. -/
  | start (headers : Metadata)
  /-- Asks for more messages. -/
  | request (count : Nat)
  | sendMessage (data : Bytes)
  /-- The client will send no more messages. -/
  | halfClose
  | cancel (reason : Option String)
  /-- The server sends its headers. -/
  | sendHeaders (headers : Metadata)
  /-- The server ends the call. -/
  | close (status : Status) (trailers : Metadata)
  /-- The client's listener learns of the server's headers. -/
  | onHeaders (headers : Metadata)
  | onMessage (data : Bytes)
  /-- The client's listener learns that the call is over. -/
  | onClose (status : Status) (trailers : Metadata)
  | onReady
  /-- The server's listener learns that the client will send no more messages. -/
  | onHalfClose
  | onCancel
  | onComplete
  deriving DecidableEq, Repr

/-- What reaches the transport or the application beyond all taps. -/
inductive Reached where
  /-- A channel is asked for a new call. -/
  | newCall (methodName : String)
  /-- A server's handler is given a call. -/
  | startCall (headers : Metadata)
  | operation (op : Operation)
  deriving DecidableEq, Repr

end BinaryLog
