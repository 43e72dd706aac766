import Logline.Text.Bytes
/-!
# Octets in ASCII

Raw octets are shown in ASCII: graphic characters stand for themselves, tab, carriage return, line feed,
quotes and the backslash have an escape of two characters, all other octets one by their number.
-/

namespace Logline.Text

/-- One octet in ASCII. -/
def octetChars (b : UInt8) : List Char :=
  if b == 0x09 then ['\\', 't']
  else if b == 0x0A then ['\\', 'n']
  else if b == 0x0D then ['\\', 'r']
  else if b == 0x22 || b == 0x27 || b == 0x5C then ['\\', Char.ofNat b.toNat]
  else if 0x20 ≤ b && b ≤ 0x7E then [Char.ofNat b.toNat]
  else '\\' :: 'x' :: hexadecimal 2 b.toNat

/-- Octets in ASCII, between double quotes. -/
def quotedOctets (bs : Bytes) : Bytes := encode ('"' :: (bs.flatMap octetChars ++ ['"']))

end Logline.Text
