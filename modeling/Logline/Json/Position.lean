import Logline.Text.Bytes
/-!
# Positions in error texts

An error of reading or encoding may be attributed to a position in the document, a line and a column.
Where only the text of an error is at hand, a position at its very end is taken for that. A position on
line zero stands for no position at all and is not shown.

Main statement: `dropEnding?_eq_some_iff` (what is left is exactly what stands before the ending).
-/

namespace Logline.Json

/-- A position in a document. Line zero stands for no position. -/
structure Position where
  line : Nat
  column : Nat
  deriving DecidableEq, Repr

/-- A position as it stands at the end of an error text. -/
def Position.suffix (p : Position) : String :=
  if p.line = 0 then ""
  else " at line " ++ toString p.line ++ " column " ++ toString p.column

/-- The characters before an ending, if a text has it. -/
def dropEnding? (ending cs : List Char) : Option (List Char) :=
  if ending.isSuffixOf cs then some (cs.take (cs.length - ending.length)) else none

theorem dropEnding?_eq_some_iff {ending cs rest : List Char} :
    dropEnding? ending cs = some rest ↔ cs = rest ++ ending := by
  unfold dropEnding?
  split
  · next h =>
    obtain ⟨front, rfl⟩ := List.isSuffixOf_iff_suffix.1 h
    simp
  · next h =>
    have hne : cs ≠ rest ++ ending := by
      rintro rfl
      exact h (List.isSuffixOf_iff_suffix.2 ⟨rest, rfl⟩)
    simp [hne]

/-- Takes a decimal number below 2^64 off the end of a text. -/
def dropNumber? (cs : List Char) : Option (List Char × Nat) :=
  let digits := (cs.reverse.takeWhile Char.isDigit).reverse
  let n := digits.foldl (fun n d => n * 10 + (d.toNat - '0'.toNat)) 0
  if digits.isEmpty || UInt64.size ≤ n then none
  else some (cs.take (cs.length - digits.length), n)

/-- Takes a position off the end of a text. -/
def dropPosition? (cs : List Char) : Option (List Char × Position) := do
  let (rest, column) ← dropNumber? cs
  let rest ← dropEnding? " column ".toList rest
  let (rest, line) ← dropNumber? rest
  let rest ← dropEnding? " at line ".toList rest
  some (rest, ⟨line, column⟩)

/-- The text of an error whose position, if it has one, is the one at the end of its text. -/
def locatedText (text : String) : String :=
  match dropPosition? text.toList with
  | none => text
  | some (rest, p) => String.ofList rest ++ p.suffix

end Logline.Json
