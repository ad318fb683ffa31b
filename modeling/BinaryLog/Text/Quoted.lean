import BinaryLog.Text.Combining
import BinaryLog.Text.Unprintable

/-!
# Quoted text

How a piece of configuration is shown inside a message: between double quotes, with the usual
escapes for quote, backslash, tab, line feed, carriage return and NUL, and `\u{…}` for every other
character that would not be seen for what it is. Single quotes stay as they are.
-/

namespace BinaryLog.Text

/-- The code point in as many hexadecimal digits as it needs, between braces after `\u`. -/
def escapeCode (c : Char) : List Char :=
  ['\\', 'u', '\x7b'] ++ Nat.toDigits 16 c.toNat ++ ['\x7d']

/-- A character as it stands between the quotes. -/
def quoteChar (c : Char) : List Char :=
  if c = '\x00' then ['\\', '0']
  else if c = '\t' then ['\\', 't']
  else if c = '\n' then ['\\', 'n']
  else if c = '\r' then ['\\', 'r']
  else if c = '"' then ['\\', '"']
  else if c = '\\' then ['\\', '\\']
  else if isCombining c || !isPrintable c then escapeCode c
  else [c]

/-- The text between double quotes. -/
def quote (text : String) : String :=
  String.ofList ('"' :: text.toList.flatMap quoteChar ++ ['"'])

end BinaryLog.Text
