import Logline.Text.Quoted
/-!
# Texts as values

After the equals sign, a text of a single line is quoted. A text with line feeds is a block: `<`, then
each of its lines indented by a tab, then ` >` on a line of its own. Lines are indented with a tab and
the end with a space, so no line of the text can be taken for the end.

A text that does not end with a line feed is written as if it did. `readText` reads both forms back.
-/

namespace Logline.Text

/-! ### Writing -/

/-- The rest of a block, from inside a line on. -/
def blockFrom : List Char → List Char
  | [] => ['\n', ' ', '>']
  | ['\n'] => ['\n', ' ', '>']
  | '\n' :: rest => '\n' :: '\t' :: blockFrom rest
  | c :: rest => c :: blockFrom rest

/-- A text as a value: quoted if it has a single line, else a block. -/
def valueChars (cs : List Char) : List Char :=
  if '\n' ∈ cs then '<' :: '\n' :: '\t' :: blockFrom cs else quotedChars cs

/-- A text as a value after the equals sign, in UTF-8. -/
def textValue (s : String) : Bytes := encode ('=' :: valueChars s.toList)

/-! ### Reading -/

/-- Reads the lines of a block up to its end. The flag tells whether the reader stands inside a line. -/
def readBlock : Bool → List Char → Option (List Char × List Char)
  | true, '\n' :: rest => (readBlock false rest).map fun r => ('\n' :: r.1, r.2)
  | true, c :: rest => (readBlock true rest).map fun r => (c :: r.1, r.2)
  | false, '\t' :: rest => readBlock true rest
  | false, ' ' :: '>' :: rest => some ([], rest)
  | _, _ => none

/-- Takes a text value, quoted or a block, off the front. -/
def readText : List Char → Option (List Char × List Char)
  | '<' :: '\n' :: rest => readBlock false rest
  | cs => readQuoted cs

/-- A text as a reader of blocks gets it back: with a final line feed if it has several lines. -/
def lineEnded (cs : List Char) : List Char :=
  if '\n' ∈ cs ∧ cs.getLast? ≠ some '\n' then cs ++ ['\n'] else cs

end Logline.Text
