import Logline.Error
import Logline.FileSystem
import Logline.Hook
import Logline.Memory
import Logline.Severity
/-!
# Destinations

Finished lines are appended to destinations: memory, a writer, the console, a file, or a destination that
answers by a script. Destinations live in a registry and are referred to by their position in it, so that
one destination can stand in several places. Everything that appending and flushing can change is in
`Outlets`: the destinations themselves, the files, the console and the record of what destinations were
asked and answered.

A destination may fail, and it may panic; both are answers here. What happens to an answer afterwards may
run more of a destination's code: an error is shown and thrown away, and so is what a panic carries. A
report asks a destination for its name and needs a console that can be written to.
-/

namespace Logline

/-! ### Scripts -/

/-- The answer of a destination to one call. -/
inductive Reply where
  | done
  | failed (error : LogError)
  /-- A panic; `disposal` is the panic that throwing away what it carries ends in, if it does. -/
  | panicked (cause : Panic) (disposal : Option Panic := none)
  deriving DecidableEq, Repr

/-- Steps for successive calls, of which the last one repeats. -/
abbrev Script (α : Type) := List α

/-- The step for the next call, and the script for the calls after it. -/
def Script.next {α : Type} (default : α) : Script α → α × Script α
  | [] => (default, [])
  | [a] => (a, [a])
  | a :: b :: rest => (a, b :: rest)

/-! ### Writers -/

/-- What a writer does when it is given octets. -/
inductive WriteStep where
  | all
  | atMost (n : Nat)
  | interrupted
  | fails
  deriving DecidableEq, Repr

/-- Octets that went out, behind a writer that may take only a part at a time. -/
structure Writer where
  written : Bytes := []
  steps : Script WriteStep := []
  flushFails : Bool := false
  deriving DecidableEq, Repr

namespace Writer

/-- What becomes of octets when one step repeats: the answer and the octets that went out. A writer that
is interrupted forever is given up. -/
def repeatStep (step : WriteStep) (bytes : Bytes) : Reply × Bytes :=
  match step with
  | .all => (.done, bytes)
  | .atMost 0 => (.failed (.inputOutput (.plain "failed to write whole buffer")), [])
  | .atMost (_ + 1) => (.done, bytes)
  | .interrupted => (.failed (.inputOutput (.plain "interrupted")), [])
  | .fails => (.failed (.inputOutput (.plain "closed")), [])

/-- Writes octets part by part: the answer, the octets that went out, and the script that is left. An
interrupted part is tried again, and a writer that takes nothing is an error. -/
def writeParts : Script WriteStep → Bytes → Reply × Bytes × Script WriteStep
  | steps, [] => (.done, [], steps)
  | [], bytes => (.done, bytes, [])
  | [step], bytes =>
    let (reply, out) := repeatStep step bytes
    (reply, out, [step])
  | step :: later, bytes =>
    match step with
    | .all => (.done, bytes, later)
    | .atMost 0 => (.failed (.inputOutput (.plain "failed to write whole buffer")), [], later)
    | .atMost (n + 1) =>
      let (reply, out, left) := writeParts later (bytes.drop (n + 1))
      (reply, bytes.take (n + 1) ++ out, left)
    | .interrupted => writeParts later bytes
    | .fails => (.failed (.inputOutput (.plain "closed")), [], later)

/-- Writes all octets. -/
def writeAll (w : Writer) (bytes : Bytes) : Reply × Writer :=
  let (reply, out, left) := writeParts w.steps bytes
  (reply, { w with written := w.written ++ out, steps := left })

/-- Flushes the writer. -/
def flush (w : Writer) : Reply :=
  if w.flushFails then .failed (.inputOutput (.plain "flush failed")) else .done

end Writer

/-! ### Destinations -/

/-- A destination of lines. -/
inductive Appender where
  /-- Answers by a script for appending and one for flushing. -/
  | scripted (name : String) (appends flushes : Script Reply)
  | memory (m : Memory)
  | writer (name : String) (out : Writer)
  /-- The console, optionally with the severity letter in colour. -/
  | console (colours : Bool)
  /-- A file. Octets wait in `pending` until they are flushed, or are written through under a lock. -/
  | file (path : String) (locked : Bool) (pending : Bytes)
  deriving Repr, Inhabited

/-- A destination's position in the registry. -/
abbrev Handle := Nat

/-- What happened at destinations, and at the sinks of users. -/
inductive Event where
  /-- A destination was given octets. -/
  | appended (target : Handle) (bytes : Bytes) (reply : Reply)
  /-- A destination was asked to flush. -/
  | flushed (target : Handle) (reply : Reply)
  /-- A sink was given a record. -/
  | emitted (name : String) (text : Bytes)
  deriving DecidableEq, Repr

/-- The destinations and everything they change. -/
structure Outlets where
  appenders : List Appender
  files : FileSystem := {}
  /-- What was written to the console, write by write. -/
  console : List Bytes := []
  /-- What becomes of successive reports on the console: each is written, or ends in a panic. -/
  reports : Script (Option Panic) := []
  events : List Event := []
  deriving Repr, Inhabited

namespace Appender

/-- The name that a destination reports. -/
def name : Appender → String
  | .scripted name _ _ => name
  | .memory _ => "memory"
  | .writer name _ => name
  | .console _ => "stderr"
  | .file _ _ _ => "file"

/-- A line with its severity letter in colour, if it starts with one. -/
def coloured (bytes : Bytes) : Bytes :=
  match bytes with
  | [] => []
  | first :: rest =>
    match Severity.all.find? fun s => s.letter.toNat == first.toNat with
    | none => first :: rest
    | some s =>
      Text.utf8 ("\x1b[" ++ s.colour.code ++ "m" ++ s.letter.toString ++ "\x1b[0m") ++ rest

/-- How many octets wait at most before they go to their file. -/
def pendingCapacity : Nat := 8192

/-- Adds octets to those that wait for a file: the octets that go out now, and those that still wait. -/
def enqueue (pending bytes : Bytes) : Bytes × Bytes :=
  if pending.length + bytes.length ≤ pendingCapacity then
    if bytes.length = pendingCapacity then (pending ++ bytes, []) else ([], pending ++ bytes)
  else if pendingCapacity ≤ bytes.length then (pending ++ bytes, [])
  else (pending, bytes)

end Appender

namespace Outlets

/-- Adds a destination to the registry. -/
def register (o : Outlets) (a : Appender) : Handle × Outlets :=
  (o.appenders.length, { o with appenders := o.appenders ++ [a] })

/-- The destination at a position of the registry. -/
def appender? (o : Outlets) (h : Handle) : Option Appender := o.appenders[h]?

/-- The name of the destination at a position of the registry. -/
def name (o : Outlets) (h : Handle) : String := ((o.appender? h).map Appender.name).getD ""

/-- Replaces the destination at a position of the registry. -/
def replace (o : Outlets) (h : Handle) (a : Appender) : Outlets :=
  { o with appenders := o.appenders.set h a }

/-- Writes to the console. -/
def print (o : Outlets) (bytes : Bytes) : Outlets := { o with console := o.console ++ [bytes] }

/-- Reports something on the console, unless the report panics. -/
def report (o : Outlets) (bytes : Bytes) : Option Panic × Outlets :=
  let (panic, later) := Script.next none o.reports
  let o := { o with reports := later }
  match panic with
  | none => (none, o.print bytes)
  | some p => (some p, o)

/-- Records an event. -/
def note (o : Outlets) (e : Event) : Outlets := { o with events := o.events ++ [e] }

/-- What a destination does with octets. -/
def accept (o : Outlets) (h : Handle) (bytes : Bytes) : Reply × Outlets :=
  match o.appender? h with
  | none => (.done, o)
  | some (.scripted name appends flushes) =>
    let (reply, later) := Script.next .done appends
    (reply, o.replace h (.scripted name later flushes))
  | some (.memory m) => (.done, o.replace h (.memory (m.append bytes)))
  | some (.writer name out) =>
    let (reply, out) := out.writeAll bytes
    (reply, o.replace h (.writer name out))
  | some (.console colours) => (.done, o.print (if colours then Appender.coloured bytes else bytes))
  | some (.file path true pending) =>
    (.done, { o with files := o.files.extend path (pending ++ bytes) }.replace h (.file path true []))
  | some (.file path false pending) =>
    let (out, waiting) := Appender.enqueue pending bytes
    (.done, { o with files := o.files.extend path out }.replace h (.file path false waiting))

/-- What a destination does when it is flushed. -/
def settle (o : Outlets) (h : Handle) : Reply × Outlets :=
  match o.appender? h with
  | none => (.done, o)
  | some (.scripted name appends flushes) =>
    let (reply, later) := Script.next .done flushes
    (reply, o.replace h (.scripted name appends later))
  | some (.memory m) => (.done, o.replace h (.memory m.flush))
  | some (.writer _ out) => (out.flush, o)
  | some (.console _) => (.done, o)
  | some (.file path locked pending) =>
    (.done, { o with files := o.files.extend path pending }.replace h (.file path locked []))

/-- Appends octets to a destination. -/
def append (o : Outlets) (h : Handle) (bytes : Bytes) : Reply × Outlets :=
  let (reply, o) := o.accept h bytes
  (reply, o.note (.appended h bytes reply))

/-- Flushes a destination. -/
def flush (o : Outlets) (h : Handle) : Reply × Outlets :=
  let (reply, o) := o.settle h
  (reply, o.note (.flushed h reply))

/-- Forgets what was written to the console and what happened. -/
def forget (o : Outlets) : Outlets := { o with console := [], events := [] }

/-- Opens a file for appending. -/
def openFile (o : Outlets) (path : String) (locked : Bool) : Except LogError (Handle × Outlets) :=
  if path.isEmpty then .error (.fileAppender "" "empty log file path")
  else if o.files.canOpen path then
    .ok ({ o with files := o.files.extend path [] }.register (.file path locked []))
  else .error (.failedOperation "opening log file" path (.plain "No such file or directory"))

/-- Closes the files of destinations that nothing refers to any more: what still waits is written. -/
def closeUnheld (o : Outlets) (held : List Handle) : Outlets :=
  (List.range o.appenders.length).foldl
    (fun o h =>
      match o.appender? h with
      | some (.file _ _ _) => if h ∈ held then o else (o.settle h).2
      | _ => o) o

end Outlets

end Logline
