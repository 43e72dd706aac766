import Logline.Trace
/-!
# Messages

A message is put together from texts and from arguments that are shown between them. Arguments are not
guarded: the first one that panics, or reports that it could not be shown, is the end of the message, after
any part of its own text. What was written until then has been written.

Main statements: `value_assemble_append` and `calls_assemble_append` (pieces that are shown to their end
leave the others as they are).
-/

namespace Logline

/-- A piece of a message. -/
inductive Piece where
  | literal (text : String)
  /-- A value that is shown in its place. -/
  | argument (h : ShowHook)
  deriving DecidableEq, Repr

namespace Piece

/-- The text of a piece, as far as it is shown. -/
def text : Piece → String
  | .literal text => text
  | .argument h => h.text

/-- How showing a piece ends. -/
def ending : Piece → Ending
  | .literal _ => .returns
  | .argument h => h.ending

/-- Runs the hook of a piece, if it has one. -/
def run : Piece → Traced Unit
  | .literal _ => pure ()
  | .argument h => Traced.call (.shown h)

end Piece

/-- A message, in its pieces. -/
structure Message where
  pieces : List Piece
  deriving DecidableEq, Repr

namespace Message

/-- Shows pieces in turn, up to the first that does not return: the text that there is then, and how the
last piece ended. -/
def assemble : List Piece → Traced (String × Ending)
  | [] => pure ("", .returns)
  | piece :: rest => do
    piece.run
    match piece.ending with
    | .returns => do
      let (text, ending) ← assemble rest
      pure (piece.text ++ text, ending)
    | ending => pure (piece.text, ending)

/-- Writes a message behind what is in a buffer, as far as it can be shown. -/
def write (m : Message) (buf : Bytes) : Traced (Bytes × Except Panic Unit) := do
  let (text, ending) ← assemble m.pieces
  pure (buf ++ Text.utf8 text, ending.inText)

/-- A message as a text of its own, or a panic. -/
def toText (m : Message) : Traced (Except Panic String) := do
  let (text, ending) ← assemble m.pieces
  match ending with
  | .returns => pure (.ok text)
  | .panics p => pure (.error p)
  | .fails => pure (.error (.message (formattingPanic ++ ": Error")))

variable {before : List Piece} (h : ∀ piece ∈ before, piece.ending = .returns) (rest : List Piece)

include h

theorem value_assemble_append :
    (assemble (before ++ rest)).value =
      (String.join (before.map Piece.text) ++ (assemble rest).value.1, (assemble rest).value.2) := by
  induction before with
  | nil => simp
  | cons piece before ih =>
    obtain ⟨hpiece, hbefore⟩ := List.forall_mem_cons.mp h
    rw [List.cons_append, assemble]
    simp [hpiece, ih hbefore, String.append_assoc]

theorem calls_assemble_append :
    (assemble (before ++ rest)).calls =
      before.flatMap (fun piece => piece.run.calls) ++ (assemble rest).calls := by
  induction before with
  | nil => rfl
  | cons piece before ih =>
    obtain ⟨hpiece, hbefore⟩ := List.forall_mem_cons.mp h
    rw [List.cons_append, assemble]
    simp [hpiece, ih hbefore]

end Message

end Logline
