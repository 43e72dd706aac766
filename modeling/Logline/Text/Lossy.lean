import Logline.Text.Bytes
/-!
# Reading octets as text

Octets that are no UTF-8 are read with replacement characters: the longest start of a character that
the following octets do not complete becomes one replacement character, and so does an octet that starts
no character.
-/

namespace Logline.Text

/-- The character that stands for octets that are no text. -/
def replacement : Char := '\uFFFD'

/-- Whether an octet continues a character. -/
def isTail (b : UInt8) : Bool := 0x80 ≤ b && b ≤ 0xBF

/-- Whether `b` can follow the first octet `a` of a character of three octets. -/
def isSecondOfThree (a b : UInt8) : Bool :=
  if a == 0xE0 then 0xA0 ≤ b && b ≤ 0xBF
  else if a == 0xED then 0x80 ≤ b && b ≤ 0x9F
  else isTail b

/-- Whether `b` can follow the first octet `a` of a character of four octets. -/
def isSecondOfFour (a b : UInt8) : Bool :=
  if a == 0xF0 then 0x90 ≤ b && b ≤ 0xBF
  else if a == 0xF4 then 0x80 ≤ b && b ≤ 0x8F
  else isTail b

/-- How many octets the character has that starts with `a`. -/
def sequenceLength (a : UInt8) : Option Nat :=
  if a ≤ 0x7F then some 1
  else if 0xC2 ≤ a && a ≤ 0xDF then some 2
  else if 0xE0 ≤ a && a ≤ 0xEF then some 3
  else if 0xF0 ≤ a && a ≤ 0xF4 then some 4
  else none

/-- The character with the leading bits `lead` and the continuation octets `tails`. -/
def assembled (lead : Nat) (tails : List UInt8) : Char :=
  Char.ofNat (tails.foldl (fun n b => n * 64 + b.toNat % 64) lead)

/-- Octets as text, with replacement characters. -/
def decodeLossy : Bytes → List Char
  | [] => []
  | a :: r1 =>
    match sequenceLength a, r1 with
    | some 1, r1 => Char.ofNat a.toNat :: decodeLossy r1
    | some 2, b :: r2 =>
      if isTail b then assembled (a.toNat % 32) [b] :: decodeLossy r2
      else replacement :: decodeLossy (b :: r2)
    | some 3, b :: r2 =>
      if isSecondOfThree a b then
        match r2 with
        | c :: r3 =>
          if isTail c then assembled (a.toNat % 16) [b, c] :: decodeLossy r3
          else replacement :: decodeLossy (c :: r3)
        | [] => [replacement]
      else replacement :: decodeLossy (b :: r2)
    | some 4, b :: r2 =>
      if isSecondOfFour a b then
        match r2 with
        | c :: r3 =>
          if isTail c then
            match r3 with
            | d :: r4 =>
              if isTail d then assembled (a.toNat % 8) [b, c, d] :: decodeLossy r4
              else replacement :: decodeLossy (d :: r4)
            | [] => [replacement]
          else replacement :: decodeLossy (c :: r3)
        | [] => [replacement]
      else replacement :: decodeLossy (b :: r2)
    | _, r1 => replacement :: decodeLossy r1

/-- Octets as a text, with replacement characters. -/
def lossy (bs : Bytes) : String := String.ofList (decodeLossy bs)

end Logline.Text
