import Logline.Json.Document
import Logline.Json.Position
/-!
# Hooks

Values may bring code of their own that runs when a record is formatted: hooks that show a value, that
encode it, that write it into the line, or that stand for another value. A hook is described by what it
produces and by how it ends. It may end by panicking, after any part of its output.

A panic inside a guarded hook becomes a placeholder text; one that is not guarded leaves the log call. What a
panic carries, and the error of an encoder, are thrown away behind the guard. That may run their own code,
and what comes of it is told by the formatter (`Formatter.disposal`).
-/

namespace Logline

/-- What a panic carries: a text, or something that has no text. -/
inductive Panic where
  | message (text : String)
  | other
  deriving DecidableEq, Repr

namespace Panic

/-- The text of a panic. -/
def text : Panic → String
  | .message text => text
  | .other => "Unknown panic"

/-- What is written in place of a value whose hook panicked. -/
def placeholder (p : Panic) : String := "<panic: " ++ p.text ++ ">"

end Panic

/-- The panic that a hook ended in, if it did. -/
def Panic.of? {α : Type} : Except Panic α → Option Panic
  | .ok _ => none
  | .error p => some p

/-- The text of a hook, or the placeholder of its panic. -/
def guarded : Except Panic String → String
  | .ok text => text
  | .error p => p.placeholder

/-! ### Showing -/

/-- How a hook that shows a value ends. -/
inductive Ending where
  | returns
  | panics (cause : Panic)
  /-- The hook reports that it could not show its value. -/
  | fails
  deriving DecidableEq, Repr, Inhabited

/-- The panic of a formatting that reported a failure while a text was written. -/
def formattingPanic : String :=
  "a formatting trait implementation returned an error when the underlying stream did not"

/-- What becomes of a text that is written piece by piece, when one piece ends this way. -/
def Ending.inText : Ending → Except Panic Unit
  | .returns => .ok ()
  | .panics p => .error p
  | .fails => .error (.message formattingPanic)

/-- A hook that shows a value as text. `probe` names it for counting its runs. -/
structure ShowHook where
  probe : Option String := none
  text : String
  ending : Ending := .returns
  deriving DecidableEq, Repr, Inhabited

namespace ShowHook

/-- The text of a hook that is shown on its own. A reported failure is a panic there. -/
def run (h : ShowHook) : Except Panic String :=
  match h.ending with
  | .returns => .ok h.text
  | .panics p => .error p
  | .fails => .error (.message "a Display implementation returned an error unexpectedly: Error")

end ShowHook

/-! ### Encoding -/

/-- Why an encoder did not complete. -/
inductive EncodeFailure where
  | error (message : String)
  | panic (cause : Panic)
  deriving DecidableEq, Repr

/-- What an error text calls the failure of an encoder. -/
def EncodeFailure.message : EncodeFailure → String
  | .error message => Json.locatedText message
  | .panic p => p.placeholder

/-- A hook that encodes a value. It is to write a JSON document, but may write any octets, and it completes
or stops after any of them. -/
inductive Encoder where
  | completes (written : Bytes)
  | stops (written : Bytes) (failure : EncodeFailure)

namespace Encoder

/-- The encoder of a document. -/
def json (v : Json) : Encoder := .completes (Text.encode v.chars)

/-- The encoder of the numbers from zero up to `n` as an array, which may stop before its end. -/
def counting (n : Nat) (failure : Option EncodeFailure) : Encoder :=
  let items := (List.range n).map fun i => Json.integer (Int.ofNat i)
  match failure with
  | none => .json (.array items)
  | some f => .stops (Text.encode ('[' :: Json.itemChars items)) f

/-- The encoder of a mapping of numbers to their doubles, in the order of the numbers. -/
def doubles (keys : List Int) : Encoder :=
  let sorted := (keys.mergeSort (· ≤ ·)).eraseDups
  .json (.object (sorted.map fun k => (toString k, .integer (2 * k))))

/-- The encoder of a mapping whose keys are pairs, which JSON does not have. -/
def pairKeys : Encoder := .stops (Text.encode ['\x7b']) (.error "key must be a string")

end Encoder

/-! ### Writing into the line -/

/-- A hook that writes its value into the line itself. -/
structure WriteHook where
  written : Bytes
  panic : Option Panic := none
  deriving DecidableEq, Repr

end Logline
