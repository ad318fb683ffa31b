import BinaryLog.Limits
import BinaryLog.Text.Quoted

/-!
# Counts

The limit written after a letter of an option block. A letter without a count has no limit; a count
is a string of ASCII digits, of any length but of a value at most `2 ^ 31 - 1`.
-/

namespace BinaryLog.Config

/-- Why a count cannot be used. -/
inductive BadCount where
  /-- It is empty or has a character other than an ASCII digit. -/
  | notANumber (text : String)
  /-- Its value is greater than any limit. -/
  | tooLarge (text : String)
  deriving DecidableEq, Repr

/-- The wording of the reason. -/
def BadCount.reason : BadCount → String
  | notANumber text => Text.quote text ++ " is not a byte count"
  | tooLarge text => text ++ " is too large a byte count"

/-- The decimal value of a string of digits. -/
def decimalValue (digits : List Char) : Nat := Nat.ofDigitChars 10 digits 0

/-- The limit that a count stands for, if there is a count. -/
def limitOf : Option String → Except BadCount Nat
  | none => .ok Limits.noLimit
  | some text =>
    if text.toList.isEmpty || !text.toList.all Char.isDigit then .error (.notANumber text)
    else if Limits.noLimit < decimalValue text.toList then .error (.tooLarge text)
    else .ok (decimalValue text.toList)

end BinaryLog.Config
