import BinaryLog.Config.Clause
import BinaryLog.Config.Diagnostic
import BinaryLog.Error

/-!
# Rule tables

`compile` turns a configuration, clauses with commas between, into a `RuleTable`. One clause outside
the grammar refuses the whole configuration, and then nothing is reported. Otherwise each clause in
turn is bound, or dropped with a warning: for a count that cannot be used, or for a selector that is
bound already. `RuleTable.lookup` finds the limits for a method: those of its own rule, else of its
service's rule, else of the rule for all methods.
-/

namespace BinaryLog.Config

/-- The rules in force, of different selectors, and the clauses dropped, both in clause order. -/
structure RuleTable where
  rules : List Rule
  warnings : List Warning
  deriving DecidableEq, Repr

namespace RuleTable

/-- No rules: nothing is logged. -/
def empty : RuleTable := ⟨[], []⟩

/-- Notes a dropped clause. -/
def drop (t : RuleTable) (warning : Warning) : RuleTable × Diagnostic :=
  ({ t with warnings := t.warnings ++ [warning] }, .dropped warning)

/-- Puts a rule in force. -/
def bind (t : RuleTable) (rule : Rule) : RuleTable × Diagnostic :=
  ({ t with rules := t.rules ++ [rule] }, .bound rule)

/-- Takes up one more clause, with one diagnostic. -/
def add (t : RuleTable) (c : Clause) : RuleTable × Diagnostic :=
  match c.limits with
  | .error problem => t.drop (.badCount c.text problem)
  | .ok limits =>
    if t.rules.any (·.selector == c.selector) then t.drop (.duplicateSelector c.text)
    else t.bind ⟨c.selector, limits⟩

/-- Takes up clauses in order, with one diagnostic each. -/
def addAll (t : RuleTable) : List Clause → RuleTable × List Diagnostic
  | [] => (t, [])
  | c :: cs =>
    let (t, diagnostic) := t.add c
    let (t, diagnostics) := t.addAll cs
    (t, diagnostic :: diagnostics)

/-- The limits of the first rule whose selector passes a test. -/
def find (t : RuleTable) (p : Selector → Bool) : Option Limits :=
  (t.rules.find? fun rule => p rule.selector).map Rule.limits

/-- The limits for a method, by its full name; `none` if it is not to be logged. -/
def lookup (t : RuleTable) (methodName : String) : Option Limits :=
  t.find (·.names methodName) <|> t.find (·.coversServiceOf methodName) <|> t.find (· == .all)

/-- The limits for a method, with what the look-up reports. -/
def resolve (t : RuleTable) (methodName : String) : Option Limits × List Diagnostic :=
  match t.lookup methodName with
  | some limits => (some limits, [])
  | none => (none, [.unlogged methodName])

/-- Looks up several methods, and collects what is reported. -/
def resolveAll (t : RuleTable) : List String → List (Option Limits) × List Diagnostic
  | [] => ([], [])
  | name :: names =>
    let (limits, reported) := t.resolve name
    let (rest, later) := t.resolveAll names
    (limits :: rest, reported ++ later)

end RuleTable

/-- Reads clauses in order; the first one outside the grammar is the error. -/
def readClauses : List (List Char) → Except Error (List Clause)
  | [] => .ok []
  | piece :: pieces =>
    match Clause.parse? piece with
    | none => .error (.configSyntax (String.ofList piece))
    | some c => (readClauses pieces).map (c :: ·)

/-- The clauses of a configuration. -/
def parse (config : String) : Except Error (List Clause) :=
  readClauses (config.toList.splitOn ',')

/-- Compiles a configuration, with what is reported meanwhile. -/
def compile (config : String) : Except Error RuleTable × List Diagnostic :=
  match parse config with
  | .error e => (.error e, [])
  | .ok clauses =>
    let (t, diagnostics) := RuleTable.empty.addAll clauses
    (.ok t, diagnostics)

end BinaryLog.Config
