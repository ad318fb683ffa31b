import BinaryLog.Config.Count
import BinaryLog.Config.Selector

/-!
# Configuration diagnostics

What compiling a configuration and looking up methods report: each rule that comes into force, each
clause that is dropped with the reason, and each method that no rule covers.
-/

namespace BinaryLog.Config

/-- A selector with the limits in force for it. -/
structure Rule where
  selector : Selector
  limits : Limits
  deriving DecidableEq, Repr

/-- Why a clause was dropped while the rest of the configuration stays in force. -/
inductive Warning where
  /-- An earlier clause has the same selector. -/
  | duplicateSelector (clause : String)
  /-- A count cannot be used. -/
  | badCount (clause : String) (problem : BadCount)
  deriving DecidableEq, Repr

/-- The wording of a warning. -/
def Warning.text : Warning → String
  | duplicateSelector clause => "Ignoring duplicate entry: " ++ clause
  | badCount clause problem =>
    "Illegal log config pattern " ++ clause ++ ": " ++ problem.reason

/-- Something reported. -/
inductive Diagnostic where
  /-- A rule came into force. -/
  | bound (rule : Rule)
  /-- A clause was dropped. -/
  | dropped (warning : Warning)
  /-- A method was looked up that no rule covers. -/
  | unlogged (methodName : String)
  deriving DecidableEq, Repr

/-- How much a diagnostic matters. -/
inductive Level where
  | debug
  | info
  | warn
  deriving DecidableEq, Repr

namespace Diagnostic

/-- The level at which a diagnostic is reported. -/
def level : Diagnostic → Level
  | bound _ => .info
  | dropped _ => .warn
  | unlogged _ => .debug

/-- The message of a diagnostic. -/
def message : Diagnostic → String
  | bound ⟨.all, _⟩ => "Global binlog"
  | bound ⟨.service _, _⟩ => "Service binlog"
  | bound ⟨.method _ _, _⟩ => "Method binlog"
  | dropped warning => warning.text
  | unlogged _ => "no binlog"

/-- The named values that go with the message. -/
def fields : Diagnostic → List (String × String)
  | bound ⟨.all, limits⟩ => [("policy", limits.text)]
  | bound ⟨.service name, limits⟩ => [("service", name), ("policy", limits.text)]
  | bound ⟨.method service name, limits⟩ =>
    [("method", service ++ "/" ++ name), ("policy", limits.text)]
  | dropped _ => []
  | unlogged methodName => [("method", methodName)]

end Diagnostic

end BinaryLog.Config
