import Logline.Trace
/-!
# Key/value pairs

A pair is written as a space, the key, an equals sign and the value. Texts are quoted or written as
blocks, octets are quoted; everything else is written as JSON, or by the formatter's own hook if it has
one. An error is followed by a second pair for its details, under its key with `Details` added.

Hooks are guarded: where one panics or fails, what it wrote is cut off again and a placeholder is written
in its place. A value that stands for another one is asked once; if it gives one that stands for another
in turn, that one is not asked.

What is written is told here on the premise that nothing more comes of a failure. What it leaves is thrown
away behind the guard, and a panic that this ends in is the end of what was to be written
(`Formatter.guardHooks`).
-/

namespace Logline

open Text

/-- A range of positions in a buffer. -/
structure Span where
  start : Nat
  stop : Nat
  deriving DecidableEq, Repr

/-- The octets of a buffer in a range. -/
def Span.slice (s : Span) (buf : Bytes) : Bytes := (buf.take s.stop).drop s.start

/-- How values are written. -/
structure Formatter where
  /-- Shows the values that would otherwise be written as JSON. A user's hook is a function of the value
  here: one that keeps a state of its own, or runs the hooks of the value it gets, is left out. -/
  fallback : Option (Value → Except Panic String) := none
  /-- The panic that a guard ends in when it throws away what the failure of a hook leaves, if it does. -/
  disposal : HookCall → Option Panic := fun _ => none

/-! ### Guards -/

/-- What the panic of a hook's run carries, if the run panics. -/
def HookCall.payload? (f : Formatter) : HookCall → Option Panic
  | .shown h => Panic.of? h.run
  | .details d => Panic.of? d.value
  | .marshal _ panic _ => panic
  | .encoded (.stops _ (.panic p)) => some p
  | .encoded _ => none
  | .written h => h.panic
  | .fallback v => f.fallback.bind fun hook => Panic.of? (hook v)
  | .conversion => none

/-- Whether a run leaves something to its guard whose own code runs when it is shown or thrown away: the error
of an encoder, or what a panic carries, unless that is a text. -/
def HookCall.leavesRemains (f : Formatter) : HookCall → Bool
  | .encoded (.stops _ (.error _)) => true
  | c => c.payload? f == some .other

namespace Formatter

/-- The panic that gets out of the guard of a run. -/
def escape? (f : Formatter) (c : HookCall) : Option Panic :=
  if c.leavesRemains f then f.disposal c else none

/-- The hooks that are run up to the first whose guard a panic gets out of, that one included, and whether
there is one. -/
def runGuarded (f : Formatter) : List HookCall → List HookCall × Except Panic Unit
  | [] => ([], .ok ())
  | c :: rest =>
    match f.escape? c with
    | some p => ([c], .error p)
    | none =>
      let (ran, outcome) := f.runGuarded rest
      (c :: ran, outcome)

/-- What becomes of a computation that guards its hooks: a panic that gets out of a guard is the end of it. -/
def guardHooks {α : Type} (f : Formatter) (t : Traced α) : Traced (Except Panic α) :=
  let (ran, outcome) := f.runGuarded t.calls
  ⟨outcome.map fun _ => t.value, ran⟩

end Formatter

/-! ### Details of errors -/

/-- Evaluates layers of details, innermost first, up to the first that panics. -/
def Details.evaluateAll : List Details → Traced (Except Panic (List Json))
  | [] => pure (.ok [])
  | d :: rest => do
    match d with
    | .eager _ => pure ()
    | .produced _ _ => Traced.call (.details d)
    match d.value with
    | .error p => pure (.error p)
    | .ok v => do
      match ← evaluateAll rest with
      | .error p => pure (.error p)
      | .ok vs => pure (.ok (v :: vs))

/-- Evaluates the details of an error; `none` if it has none. -/
def Fault.evaluate (f : Fault) : Traced (Option (Except Panic Json)) :=
  if f.layers.isEmpty then pure none
  else do
    match ← Details.evaluateAll f.layers with
    | .error p => pure (some (.error p))
    | .ok [] => pure (some (.ok .null))
    | .ok (v :: vs) => pure (some (.ok (flatten v vs)))

namespace Formatter

/-! ### Parts of a pair -/

/-- Shows a value, with a placeholder for a panic. -/
def showGuarded (h : ShowHook) : Traced String := do
  pure (guarded (← h.traced))

/-- Writes a key. Texts and shown values are written as they are. -/
def writeKey (buf : Bytes) (key : Value) : Traced Bytes := do
  match key with
  | .text s => pure (buf ++ utf8 s)
  | .shown h => do
    let s ← showGuarded h
    pure (buf ++ utf8 s)
  | .int i => pure (buf ++ encode (signedDecimal i))
  | .nat n => pure (buf ++ encode (decimal n))
  | .bool b => pure (buf ++ utf8 (toString b))
  | other => pure (buf ++ utf8 other.inspect)

/-- The name of a number that JSON does not have. -/
def nonFiniteName (x : Binary64) : String :=
  if x.isNaN then "NaN" else if x.isNegative then "-Inf" else "+Inf"

/-- Encodes a value as JSON: what was written, and the failure if it did not complete. -/
def encodeValue (value : Value) : Traced (Bytes × Option String) := do
  match value with
  | .null => pure (encode (Json.chars .null), none)
  | .bool b => pure (encode (Json.chars (.bool b)), none)
  | .int i => pure (encode (Json.chars (.integer i)), none)
  | .nat n => pure (encode (Json.chars (.integer n)), none)
  | .float x =>
    if x.isFinite then pure (encode (Json.chars (.float x)), none)
    else pure ([], some ("json: unsupported value: " ++ nonFiniteName x))
  | .text s => pure (encode (Json.stringChars s), none)
  | .bytes bs =>
    pure (encode (Json.chars (.array (bs.map fun b => Json.integer (Int.ofNat b.toNat)))), none)
  | .json v => pure (encode (Json.chars v), none)
  | .encoded e => do
    Traced.call (.encoded e)
    match e with
    | .completes written => pure (written, none)
    | .stops written failure => pure (written, some failure.message)
  | .shown h => do
    let s ← showGuarded h
    pure (encode (Json.stringChars s), none)
  | .fault f => do
    let s ← showGuarded f.shown
    pure (encode (Json.stringChars s), none)
  | .marshal _ _ _ => pure (encode (Json.stringChars "<nested marshaler>"), none)
  | .written h => do
    Traced.call (.written h)
    pure (h.written, h.panic.map Panic.placeholder)

/-- Writes a value that has no form of its own, after an equals sign. -/
def writeAny (f : Formatter) (buf : Bytes) (value : Value) : Traced Bytes := do
  let buf := buf ++ utf8 "="
  match f.fallback with
  | some hook => do
    Traced.call (.fallback value)
    pure (buf ++ utf8 (guarded (hook value)))
  | none => do
    let start := buf.length
    let (written, failure) ← encodeValue value
    let buf := buf ++ written
    match failure with
    | none => pure buf
    | some message => pure (buf.take start ++ utf8 ("\"<internal error: " ++ message ++ ">\""))

/-- Lets a value write itself, after an equals sign. -/
def writeWritten (buf : Bytes) (h : WriteHook) : Traced Bytes := do
  let buf := buf ++ utf8 "="
  let start := buf.length
  Traced.call (.written h)
  let buf := buf ++ h.written
  match h.panic with
  | none => pure buf
  | some p => pure (buf.take start ++ utf8 ("\"" ++ p.placeholder ++ "\""))

/-- Writes an error, and the pair for its details if it has some. -/
def writeFault (f : Formatter) (buf : Bytes) (key : Bytes) (fault : Fault) : Traced Bytes := do
  let message ← showGuarded fault.shown
  let buf := buf ++ textValue message
  match ← fault.evaluate with
  | none => pure buf
  | some result =>
    let details := match result with
      | .ok v => v
      | .error p => .string p.placeholder
    f.writeAny (buf ++ utf8 " " ++ key ++ utf8 "Details") (.json details)

/-! ### Pairs -/

/-- Writes the value of a pair, after its key. -/
def writeValue (f : Formatter) (buf : Bytes) (key : Bytes) (value : Value) : Traced Bytes := do
  match value with
  | .written h => writeWritten buf h
  | .shown h => do
    let s ← showGuarded h
    pure (buf ++ textValue s)
  | .text s => pure (buf ++ textValue s)
  | .fault fault => f.writeFault buf key fault
  | .marshal probe panic v => do
    Traced.call (.marshal probe panic v)
    let stands := match panic with
      | none => v
      | some p => .text p.placeholder
    match stands with
    | .text s => pure (buf ++ textValue s)
    | other => f.writeAny buf other
  | .bytes bs => pure (buf ++ utf8 "=" ++ quotedOctets bs)
  | other => f.writeAny buf other

/-- Writes a pair. Returns the buffer and the range of the key in it. -/
def writePair (f : Formatter) (buf : Bytes) (key value : Value) : Traced (Bytes × Span) := do
  let buf := buf ++ utf8 " "
  let keyStart := buf.length
  let buf ← writeKey buf key
  let keySpan : Span := ⟨keyStart, buf.length⟩
  let buf ← f.writeValue buf (keySpan.slice buf) value
  pure (buf, keySpan)

end Formatter

end Logline
