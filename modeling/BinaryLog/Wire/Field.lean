import BinaryLog.Wire.Varint

/-!
# Fields of a record

A record is the concatenation of its fields in the order of their numbers. Each field starts with a
key that holds its number and the form of its value. Numbers that are zero and strings that are
empty are left out; a record inside a record is always written, even when it is empty.
-/

namespace BinaryLog.Wire

/-- The forms of a field's value, with their codes on the wire. -/
inductive Form where
  /-- A variable-length number. -/
  | number
  /-- Eight octets. -/
  | eight
  /-- A length and so many octets. -/
  | delimited
  deriving DecidableEq, Repr

/-- The code of a form. -/
def Form.code : Form → Nat
  | number => 0
  | eight => 1
  | delimited => 2

/-- What a field starts with: its number and its form. -/
def key (field : Nat) (form : Form) : Bytes := varint (field * 8 + form.code)

/-- The last `width` octets of a number, least octet first. -/
def littleEndian : Nat → Nat → Bytes
  | 0, _ => []
  | width + 1, n => UInt8.ofNat n :: littleEndian width (n / 256)

/-- A field that holds a number. -/
def numberField (field n : Nat) : Bytes :=
  if n = 0 then [] else key field .number ++ varint n

/-- A field that holds a code of an enumeration, negative codes as 64-bit two's complement. -/
def codeField (field : Nat) (code : Int32) : Bytes :=
  numberField field (code.toInt % UInt64.size).toNat

/-- A field that holds a 64-bit word in eight octets. -/
def wordField (field : Nat) (word : UInt64) : Bytes :=
  if word = 0 then [] else key field .eight ++ littleEndian 8 word.toNat

/-- A field that holds octets with their length before them, written whatever they are. -/
def recordField (field : Nat) (record : Bytes) : Bytes :=
  key field .delimited ++ varint record.length ++ record

/-- A field that holds a string of octets. -/
def bytesField (field : Nat) (bytes : Bytes) : Bytes :=
  if bytes.isEmpty then [] else recordField field bytes

end BinaryLog.Wire
