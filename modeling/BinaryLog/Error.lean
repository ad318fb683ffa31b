import BinaryLog.Text.Quoted

/-!
# Errors

What can go wrong: a configuration clause outside the grammar, a sink that cannot take an entry, an
underlying call that fails. The last two wrap a cause, which is another error or a failure outside
the library, known by its text only. `Error.message` is the wording and `Error.sources` the chain
of causes, outermost first.
-/

namespace BinaryLog

/-- A failure, by its cause. -/
inductive Error where
  /-- The clause is outside the clause grammar, and with it the whole configuration is refused. -/
  | configSyntax (clause : String)
  /-- The sink could not take an entry. -/
  | sink (source : Error)
  /-- The underlying call, its handler or its listener failed. -/
  | call (source : Error)
  /-- A failure outside the library. -/
  | external (text : String)
  deriving DecidableEq, Repr

namespace Error

/-- The text shown for an error. -/
def message : Error → String
  | configSyntax clause => "Bad binlog configuration clause: " ++ Text.quote clause
  | sink source => "While writing a log entry, got " ++ source.message
  | call source => "Underlying call failed: " ++ source.message
  | external text => text

/-- The messages of the cause, of its cause, and so on. -/
def sources : Error → List String
  | configSyntax _ | external _ => []
  | sink source | call source => source.message :: source.sources

/-- A failure outside the library that kept a sink from taking an entry. -/
def sinkFailure (text : String) : Error := sink (external text)

/-- A failure outside the library that stopped an underlying call. -/
def callFailure (text : String) : Error := call (external text)

end Error

end BinaryLog
