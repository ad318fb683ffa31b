import BinaryLog.Config.RuleTable
import BinaryLog.Event

/-!
# Taps

A tap is what makes a call log: the limits of the rule that covers the call, and the id under which
the call is logged. Any number of taps may sit on one call, and each logs on its own. A call is
asked through its taps (`Tap.askThrough`), and they add nothing to what it answers.
-/

namespace BinaryLog

/-- What one level of logging on a call needs to know. -/
structure Tap where
  limits : Limits
  id : CallId
  deriving DecidableEq, Repr

namespace Tap

/-- The entry of a tap for an event on its side of the call. -/
def entry (t : Tap) (side : Side) (event : CallEvent) : Entry := t.limits.record side t.id event

/-- What a call that itself answers `own` answers through its taps: each asks the next one. -/
def askThrough {α : Type} (own : α) : List Tap → α
  | [] => own
  | _ :: taps => askThrough own taps

@[simp] theorem askThrough_eq {α : Type} (own : α) (taps : List Tap) :
    askThrough own taps = own := by
  induction taps with
  | nil => rfl
  | cons tap taps ih => exact ih

end Tap

/-- The taps for a call to a method, one per id, outermost first; none if no rule covers it. -/
def Config.RuleTable.taps (t : RuleTable) (methodName : String) (ids : List CallId) : List Tap :=
  match t.lookup methodName with
  | none => []
  | some limits => ids.map fun id => ⟨limits, id⟩

end BinaryLog
