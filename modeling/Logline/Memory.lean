import Logline.Text.Lossy
/-!
# Memory destinations

A destination that keeps what it is given, and counts how often it was flushed. Its content can be asked
for as a text and line by line.

Main statements: `flatten_splitLines` (the lines of a text, with their line feeds, are the text) and
`bytes_append`.
-/

namespace Logline

namespace Text

/-- The lines of a text with their line feeds. Only the last one can lack it. -/
def splitLines : List Char → List (List Char)
  | [] => []
  | '\n' :: rest => ['\n'] :: splitLines rest
  | c :: rest =>
    match splitLines rest with
    | [] => [[c]]
    | line :: lines => (c :: line) :: lines

theorem flatten_splitLines (cs : List Char) : (splitLines cs).flatten = cs := by
  induction cs with
  | nil => rfl
  | cons c rest ih =>
    unfold splitLines
    split
    · next h => cases h
    · next h => cases h; simp [ih]
    · next h =>
      cases h
      split
      · next hs => simpa [hs] using ih
      · next hs => simpa [hs] using ih

/-- A line without the line feed at its end, and without a carriage return before that. -/
def withoutEnd (line : List Char) : List Char :=
  match line.reverse with
  | '\n' :: '\r' :: front => front.reverse
  | '\n' :: front => front.reverse
  | _ => line

/-- The lines of a text, without their ends. -/
def lines (cs : List Char) : List (List Char) := (splitLines cs).map withoutEnd

/-- Whether a text holds another one. -/
def holds (needle : List Char) : List Char → Bool
  | [] => needle.isEmpty
  | c :: rest => needle.isPrefixOf (c :: rest) || holds needle rest

end Text

/-- What a memory destination keeps. -/
structure Memory where
  /-- What was appended, the last piece first. -/
  pieces : List Bytes := []
  flushes : Nat := 0
  deriving DecidableEq, Repr, Inhabited

namespace Memory

/-- The octets in the order in which they were appended. -/
def bytes (m : Memory) : Bytes := m.pieces.reverse.flatten

/-- Adds octets. -/
def append (m : Memory) (bytes : Bytes) : Memory := { m with pieces := bytes :: m.pieces }

/-- Counts a flush. -/
def flush (m : Memory) : Memory := { m with flushes := m.flushes + 1 }

/-- Forgets the octets, but not the flushes. -/
def clear (m : Memory) : Memory := { m with pieces := [] }

@[simp] theorem bytes_append (m : Memory) (bytes : Bytes) :
    (m.append bytes).bytes = m.bytes ++ bytes := by
  simp [append, Memory.bytes]

@[simp] theorem bytes_flush (m : Memory) : m.flush.bytes = m.bytes := rfl

@[simp] theorem bytes_clear (m : Memory) : m.clear.bytes = [] := rfl

/-- Whether there are no octets. -/
def isEmpty (m : Memory) : Bool := m.bytes.isEmpty

/-- The octets as a text. -/
def text (m : Memory) : String := Text.lossy m.bytes

/-- The lines of the text. -/
def lines (m : Memory) : List String := (Text.lines m.text.toList).map String.ofList

/-- Whether the text holds another one. -/
def holds (m : Memory) (needle : String) : Bool := Text.holds needle.toList m.text.toList

end Memory

end Logline
