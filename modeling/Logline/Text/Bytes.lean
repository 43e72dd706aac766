/-!
# Octets and characters

Lines are octets: a destination takes octets, and a value that writes itself may write octets that are
no text. Everything else is text, and reaches a line through its UTF-8 form. Numbers are written in
decimal, and in hexadecimal of a fixed width inside escapes.

Main statements: `encode_append` (the UTF-8 form of a text is put together from its parts) and
`length_padded` (a padded field has its width, unless its content is wider).
-/

namespace Logline

/-- Octets, as they are written to a destination. -/
abbrev Bytes := List UInt8

namespace Text

/-! ### UTF-8 -/

/-- The UTF-8 form of characters. -/
def encode (cs : List Char) : Bytes := cs.flatMap String.utf8EncodeChar

@[simp] theorem encode_nil : encode [] = [] := rfl

@[simp] theorem encode_append (cs ds : List Char) : encode (cs ++ ds) = encode cs ++ encode ds := by
  simp [encode]

@[simp] theorem encode_cons (c : Char) (cs : List Char) :
    encode (c :: cs) = String.utf8EncodeChar c ++ encode cs := by
  simp [encode]

/-- The UTF-8 form of a text. -/
def utf8 (s : String) : Bytes := encode s.toList

/-! ### Numbers -/

/-- A natural number in decimal. -/
def decimal (n : Nat) : List Char := Nat.toDigits 10 n

/-- An integer in decimal, a minus sign before a negative one. -/
def signedDecimal : Int → List Char
  | .ofNat n => decimal n
  | .negSucc n => '-' :: decimal (n + 1)

/-- A field of `width` characters: `content`, filled up on the left. Wider content is not cut. -/
def padded (width : Nat) (fill : Char) (content : List Char) : List Char :=
  List.leftpad width fill content

theorem length_padded (width : Nat) (fill : Char) (content : List Char) :
    (padded width fill content).length = max width content.length := by
  simp [padded, List.leftpad]; omega

/-- A number in hexadecimal with lower-case digits, at least `width` of them. -/
def hexadecimal (width n : Nat) : List Char := padded width '0' (Nat.toDigits 16 n)

end Text

end Logline
