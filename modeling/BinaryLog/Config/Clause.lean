import BinaryLog.Config.Count
import BinaryLog.Config.Selector

/-!
# Configuration clauses

A clause is a selector, perhaps followed by an option block: `{h:256}` limits headers and captures
no messages, `{m:256}` limits messages and captures no headers, `{h:256;m:256}` limits both. A
letter without a count has no limit, and a clause without a block captures everything.
`Clause.text` writes a clause and `Clause.parse?` reads one; `Clause.limits` is what it asks for.
-/

namespace BinaryLog.Config

/-- An option block, with its counts as they are written. -/
inductive Options where
  | headers (count : Option String)
  | messages (count : Option String)
  | both (headers messages : Option String)
  deriving DecidableEq, Repr

/-- The characters that a count may have, whether or not they make a number. -/
def isCountChar (c : Char) : Bool := c != ';' && c != '\x7b' && c != '\x7d'

/-- A count as it is written after its letter. -/
def countText : Option String → String
  | none => ""
  | some count => ":" ++ count

/-- Reads the count after a letter, and what follows it. -/
def readCount : List Char → Option String × List Char
  | ':' :: rest => (some (String.ofList (rest.takeWhile isCountChar)), rest.dropWhile isCountChar)
  | rest => (none, rest)

namespace Options

/-- An option block as it is written. -/
def text : Options → String
  | headers h => "\x7bh" ++ countText h ++ "\x7d"
  | messages m => "\x7bm" ++ countText m ++ "\x7d"
  | both h m => "\x7bh" ++ countText h ++ ";m" ++ countText m ++ "\x7d"

/-- Reads an option block that takes up the whole text. -/
def parse? : List Char → Option Options
  | '\x7b' :: 'h' :: rest =>
    match readCount rest with
    | (h, ['\x7d']) => some (headers h)
    | (h, ';' :: 'm' :: rest) =>
      match readCount rest with
      | (m, ['\x7d']) => some (both h m)
      | _ => none
    | _ => none
  | '\x7b' :: 'm' :: rest =>
    match readCount rest with
    | (m, ['\x7d']) => some (messages m)
    | _ => none
  | _ => none

/-- The limits that a block asks for; of two bad counts the first is reported. -/
def limits : Options → Except BadCount Limits
  | headers h => do return .headersOnly (← limitOf h)
  | messages m => do return .messagesOnly (← limitOf m)
  | both h m => do
    let headerBytes ← limitOf h
    let messageBytes ← limitOf m
    return ⟨headerBytes, messageBytes⟩

/-- The counts of a block, in the order in which they are written. -/
def counts : Options → List String
  | headers count | messages count => count.toList
  | both h m => h.toList ++ m.toList

/-- Whether the counts of a block are ones that can be written. -/
def WellFormed (o : Options) : Prop := ∀ count ∈ o.counts, ∀ c ∈ count.toList, isCountChar c

end Options

/-- One clause of a configuration. -/
structure Clause where
  selector : Selector
  options : Option Options
  deriving DecidableEq, Repr

namespace Clause

/-- A clause as it is written. -/
def text (c : Clause) : String :=
  match c.options with
  | none => c.selector.text
  | some options => c.selector.text ++ options.text

/-- Whether the names and counts of a clause are ones that can be written. -/
def WellFormed (c : Clause) : Prop :=
  c.selector.WellFormed ∧ ∀ options ∈ c.options, options.WellFormed

/-- Reads a clause that takes up the whole text. -/
def parse? (text : List Char) : Option Clause := do
  let selector ← Selector.parse? (text.takeWhile (· != '\x7b'))
  match text.dropWhile (· != '\x7b') with
  | [] => some ⟨selector, none⟩
  | block => (Options.parse? block).map fun options => ⟨selector, some options⟩

/-- The limits that a clause asks for. -/
def limits (c : Clause) : Except BadCount Limits :=
  match c.options with
  | none => .ok .unbounded
  | some options => options.limits

end Clause

end BinaryLog.Config
