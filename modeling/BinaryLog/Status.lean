/-!
# Call status

The status with which a call completes: a numeric code, zero for success, and perhaps a message.
-/

namespace BinaryLog

/-- The outcome a call is closed with. -/
structure Status where
  code : UInt32
  message : Option String
  deriving DecidableEq, Repr

namespace Status

/-- Success, without a message. -/
def ok : Status := ⟨0, none⟩

/-- A code with a message. -/
def ofCode (code : UInt32) (message : String) : Status := ⟨code, some message⟩

/-- Code zero is success, whatever the message. -/
def isOk (s : Status) : Bool := s.code == 0

end Status

end BinaryLog
