/-!
# Selectors

The part of a clause that says which methods it is about: all of them, those of one service, or a
single one. Names in a selector are not empty and have no slash, star or brace. `Selector.text`
writes a selector and `Selector.parse?` reads it.
-/

namespace BinaryLog.Config

/-- Which methods a clause is about. -/
inductive Selector where
  /-- Every method. -/
  | all
  /-- Every method of a service. -/
  | service (name : String)
  /-- One method of a service. -/
  | method (ofService name : String)
  deriving DecidableEq, Repr

/-- The characters that a name in a selector may have. -/
def isNameChar (c : Char) : Bool := c != '/' && c != '*' && c != '\x7b' && c != '\x7d'

/-- The service part of a full method name: all before its last slash. -/
def serviceOf? (methodName : String) : Option String :=
  match methodName.toList.reverse.dropWhile (· != '/') with
  | [] => none
  | _ :: before => some (String.ofList before.reverse)

namespace Selector

/-- A selector as it is written. -/
def text : Selector → String
  | all => "*"
  | service name => name ++ "/*"
  | method ofService name => ofService ++ "/" ++ name

/-- Whether the names in a selector are ones that can be written. -/
def WellFormed : Selector → Prop
  | all => True
  | service name => name ≠ "" ∧ ∀ c ∈ name.toList, isNameChar c
  | method ofService name =>
    (ofService ≠ "" ∧ ∀ c ∈ ofService.toList, isNameChar c) ∧
      name ≠ "" ∧ ∀ c ∈ name.toList, isNameChar c

/-- Reads a selector that takes up the whole text. -/
def parse? (text : List Char) : Option Selector :=
  if text = ['*'] then some all
  else
    match text.takeWhile isNameChar, text.dropWhile isNameChar with
    | [], _ => none
    | s, ['/', '*'] => some (service (String.ofList s))
    | s, '/' :: t :: ts =>
      if (t :: ts).all isNameChar then some (method (String.ofList s) (String.ofList (t :: ts)))
      else none
    | _, _ => none

/-- Whether a selector names exactly this method. -/
def names (methodName : String) : Selector → Bool
  | method ofService name => ofService ++ "/" ++ name == methodName
  | _ => false

/-- Whether a selector is about the service of this method. -/
def coversServiceOf (methodName : String) : Selector → Bool
  | service name => serviceOf? methodName == some name
  | _ => false

end Selector

end BinaryLog.Config
