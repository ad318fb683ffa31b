import BinaryLog.Bytes

/-!
# Reading UTF-8 that may be ill formed

`decodeLossy` reads any octets as text: well-formed characters as themselves, and U+FFFD for each
ill-formed part, which is the longest piece that begins some character without finishing it, or
else a single octet.
-/

namespace BinaryLog.Text

/-- How many octets follow the first octet of a character, and the range of the first of them. -/
def leadOctet (b : UInt8) : Option (Nat × UInt8 × UInt8) :=
  if b < 0x80 then some (0, 0x80, 0xbf)
  else if b < 0xc2 then none
  else if b < 0xe0 then some (1, 0x80, 0xbf)
  else if b = 0xe0 then some (2, 0xa0, 0xbf)
  else if b = 0xed then some (2, 0x80, 0x9f)
  else if b < 0xf0 then some (2, 0x80, 0xbf)
  else if b = 0xf0 then some (3, 0x90, 0xbf)
  else if b < 0xf4 then some (3, 0x80, 0xbf)
  else if b = 0xf4 then some (3, 0x80, 0x8f)
  else none

/-- The octets at the front, at most `owed`, that continue a character; the range is that of the
first, and the others are any continuation octets. -/
def continuation : Nat → UInt8 → UInt8 → Bytes → Bytes
  | 0, _, _, _ | _, _, _, [] => []
  | owed + 1, low, high, b :: rest =>
    if low ≤ b && b ≤ high then b :: continuation owed 0x80 0xbf rest else []

/-- The character of a first octet and all its continuation octets, six bits from each. -/
def assemble (first : UInt8) (following : Bytes) : Char :=
  let lead := match following.length with
    | 0 => first.toNat
    | 1 => first.toNat % 32
    | 2 => first.toNat % 16
    | _ => first.toNat % 8
  Char.ofNat (following.foldl (fun n b => n * 64 + b.toNat % 64) lead)

/-- Reads from the front, adding to the text read so far. -/
def decodeOnto (text : String) : Bytes → String
  | [] => text
  | b :: rest =>
    match leadOctet b with
    | none => decodeOnto (text.push '\ufffd') rest
    | some (owed, low, high) =>
      let following := continuation owed low high rest
      let c := if following.length = owed then assemble b following else '\ufffd'
      decodeOnto (text.push c) (rest.drop following.length)
termination_by bytes => bytes.length
decreasing_by
  · simp
  · simp only [List.length_drop, List.length_cons]; omega

/-- The text of any octets, U+FFFD standing for each ill-formed part. -/
def decodeLossy (bytes : Bytes) : String := decodeOnto "" bytes

end BinaryLog.Text
