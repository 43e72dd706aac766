import Logline.Appender
import Logline.BufferPool
import Logline.Context
import Logline.Line
import Logline.Message
import Logline.Stats
import Logline.FlagTable
/-!
# The logging engine

The engine turns log calls into lines and sends the lines to their destinations. Its settings are the
thresholds, a destination for each severity, the console, the action after a fatal record, and the table
of context keys. Settings can be captured and restored; statistics and buffers are not part of them.

A line goes to the console first and then to the files of the cascade, highest severity first. A failed
write is counted and otherwise ignored; failed writes to files are reported now and then. After a fatal
line all destinations are flushed and the exit hook is run.

What leaves a log call other than by returning is an `Interrupt`: a panic that is not guarded, or the end
of the process. The hooks of values and appending are guarded, but finding out what to say of a failure,
throwing it away, reporting it and flushing are not.
-/

namespace Logline

/-! ### Settings -/

/-- What happens after a fatal record. -/
inductive ExitHook where
  /-- The process ends. -/
  | endsProcess
  /-- The hook of a user, which may panic. -/
  | custom (panic : Option Panic)
  deriving DecidableEq, Repr

/-- The status with which the process ends after a fatal record. -/
def fatalExitCode : Nat := 255

/-- The settings of an engine. -/
structure Settings where
  thresholds : Thresholds := {}
  files : PerSeverity (Option Handle) := .const none
  console : Handle
  exitHook : ExitHook := .endsProcess
  contextKeys : List ContextKey := []
  deriving DecidableEq

namespace Settings

/-- The destinations that settings refer to, in the order in which they are flushed. -/
def handles (s : Settings) : List Handle := s.files.toList.filterMap id ++ [s.console]

/-- The file destinations of a record, highest severity first. -/
def cascade (s : Settings) (severity : Severity) : List Handle :=
  severity.cascade.filterMap s.files.get

/-- The writes of a line in order, with whether their failures are reported. -/
def writes (s : Settings) (severity : Severity) : List (Handle × Bool) :=
  (if (s.thresholds.route severity).console then [(s.console, false)] else []) ++
    if (s.thresholds.route severity).files then (s.cascade severity).map (·, true) else []

/-- Captured settings for diagnostics. -/
def inspect (s : Settings) : String :=
  Text.inspectPartialRecord "StateSnapshot" [("thresholds", s.thresholds.inspect)]

end Settings

/-! ### The state of an engine -/

/-- Why a call does not return. -/
inductive Interrupt where
  | panic (cause : Panic)
  | exit (code : Nat)
  deriving DecidableEq, Repr

/-- The outcome of a call: it returns, or it is interrupted. -/
abbrev Outcome (α : Type) := Except Interrupt α

/-- The outcome of a step that may panic. -/
def Outcome.ofPanic : Option Panic → Outcome Unit
  | none => .ok ()
  | some p => .error (.panic p)

/-- One record as a recording sink keeps it. -/
structure RecordedEntry where
  site : CallSite
  severity : Severity
  message : String
  values : List Value
  kvs : List Value
  callDepth : Nat

/-- What a family of recording sinks has in common. -/
structure Recorder where
  entries : List RecordedEntry := []
  helperCalls : Nat := 0

/-- An engine with everything that log calls can change. -/
structure Engine where
  settings : Settings
  formatter : Formatter := {}
  pool : BufferPool := {}
  stats : Stats := {}
  outlets : Outlets
  /-- The number of the process. -/
  pid : Nat := 1
  /-- The time of the next record. -/
  stamp : Stamp
  /-- The stack at the next record. -/
  stack : CallStack := []
  /-- How often an exit hook of a user was run. -/
  exits : Nat := 0
  /-- The hooks that were run. -/
  calls : List HookCall := []
  recorders : List Recorder := []

namespace Engine

/-- A new engine, which writes everything to a plain console. -/
def initial (formatter : Formatter) (stamp : Stamp) (pid : Nat) : Engine where
  settings := { console := 0 }
  formatter := formatter
  outlets := { appenders := [.console false] }
  stamp := stamp
  pid := pid

/-- Takes over the result of a traced computation and notes the hooks it ran. -/
def absorb {α : Type} (e : Engine) (t : Traced α) : α × Engine :=
  (t.value, { e with calls := e.calls ++ t.calls })

/-! ### Changing settings -/

/-- Replaces the thresholds. -/
def setThresholds (e : Engine) (t : Thresholds) : Engine :=
  { e with settings := { e.settings with thresholds := t } }

/-- Replaces the thresholds by those of a flag table. -/
def configure (e : Engine) (table : FlagTable) : Engine := e.setThresholds table.toThresholds

/-- Applies a flag. A flag that is not understood changes nothing. -/
def applyFlag (e : Engine) (name value : String) : Except LogError Engine :=
  (e.settings.thresholds.apply name value).map e.setThresholds

/-- Replaces the file destinations. -/
def setFiles (e : Engine) (files : PerSeverity (Option Handle)) : Engine :=
  { e with settings := { e.settings with files := files } }

/-- Sends the records of every severity to one destination. -/
def setOutput (e : Engine) (h : Handle) : Engine := e.setFiles (.const (some h))

/-- Sends the records of a severity, given by name, to a destination. -/
def setOutputBySeverity (e : Engine) (name : String) (h : Handle) : Except LogError Engine :=
  (Severity.ofText name).map fun s => e.setFiles (e.settings.files.set s (some h))

/-- Takes the destination of a severity away. -/
def clearOutput (e : Engine) (s : Severity) : Engine := e.setFiles (e.settings.files.set s none)

/-- Replaces the console. -/
def setConsole (e : Engine) (h : Handle) : Engine :=
  { e with settings := { e.settings with console := h } }

/-- Replaces the action after a fatal record. -/
def setExitHook (e : Engine) (hook : ExitHook) : Engine :=
  { e with settings := { e.settings with exitHook := hook } }

/-- Replaces the table of context keys. -/
def setContextKeys (e : Engine) (keys : List ContextKey) : Engine :=
  { e with settings := { e.settings with contextKeys := keys } }

/-- The settings as they are now. -/
def capture (e : Engine) : Settings := e.settings

/-- Puts captured settings back. -/
def restore (e : Engine) (saved : Settings) : Engine := { e with settings := saved }

/-- Runs a program and puts the settings back afterwards, however the program ends. -/
def inScope {α : Type} (body : Engine → α × Engine) (e : Engine) : α × Engine :=
  let saved := e.capture
  let (result, e) := body e
  (result, e.restore saved)

/-- Whether a verbosity level is logged. -/
def verbosityEnabled (e : Engine) (level : UInt32) : Bool :=
  e.settings.thresholds.verbosityEnabled level

/-! ### Output -/

/-- Goes on with the next step, unless a step was interrupted. -/
def andThen (step : Outcome Unit × Engine) (next : Engine → Outcome Unit × Engine) :
    Outcome Unit × Engine :=
  match step with
  | (.ok (), e) => next e
  | (.error i, e) => (.error i, e)

@[simp] theorem andThen_ok (e : Engine) (next : Engine → Outcome Unit × Engine) :
    andThen (.ok (), e) next = next e := rfl

@[simp] theorem andThen_error (i : Interrupt) (e : Engine) (next : Engine → Outcome Unit × Engine) :
    andThen (.error i, e) next = (.error i, e) := rfl

/-- What is said of a failed write, or the panic that finding it out ends in. An error is shown for that,
and then it is thrown away, as is what a panic carries. -/
def failureText : Reply → Option (Except Panic String)
  | .done => none
  | .failed error => some (error.shown.run.bind fun text =>
      match error.disposal with
      | none => .ok text
      | some p => .error p)
  | .panicked cause disposal => some (match disposal with
      | none => .ok ("panicked: " ++ cause.text)
      | some p => .error p)

/-- The report of a failed write. -/
def writeReport (name failure : String) (count : UInt64) : Bytes :=
  Text.utf8 ("[LOGGER WARNING] Write to " ++ name ++ " destination failed: " ++ failure ++ " (" ++
    toString count.toNat ++ " failures so far)\n")

/-- Reports something on the console, unless the report panics. -/
def report (e : Engine) (bytes : Bytes) : Outcome Unit × Engine :=
  let (panic, outlets) := e.outlets.report bytes
  (.ofPanic panic, { e with outlets := outlets })

/-- Writes a line to a destination. A failure is counted; with `report`, one in so many is reported. A
failure that panics when it is put into words is not even counted. -/
def writeTo (e : Engine) (bytes : Bytes) (report : Bool) (h : Handle) : Outcome Unit × Engine :=
  let (reply, outlets) := e.outlets.append h bytes
  let e := { e with outlets := outlets }
  match failureText reply with
  | none => (.ok (), e)
  | some (.error p) => (.error (.panic p), e)
  | some (.ok failure) =>
    let previous := e.stats.writeErrors
    let e := { e with stats := e.stats.recordWriteError }
    if report && previous % Stats.reportInterval == 0 then
      e.report (writeReport (e.outlets.name h) failure (previous + 1))
    else (.ok (), e)

/-- Writes a line to destinations in turn; for each is told whether its failures are reported. -/
def writeAll (e : Engine) (bytes : Bytes) : List (Handle × Bool) → Outcome Unit × Engine
  | [] => (.ok (), e)
  | (h, report) :: rest => andThen (e.writeTo bytes report h) fun e => e.writeAll bytes rest

/-- Writes a line to the destinations of its severity, counts it and gives its buffer back. A line that is
interrupted is not counted. -/
def written (e : Engine) (severity : Severity) (buffer : Buffer) : Outcome Unit × Engine :=
  let (outcome, e) := e.writeAll buffer.bytes (e.settings.writes severity)
  let stats := match outcome with
    | .ok () => e.stats.recordLine severity buffer.bytes.length
    | .error _ => e.stats
  (outcome, { e with stats := stats, pool := e.pool.release buffer })

/-- What becomes of the first error, or the panic that ends the flushing, with one more answer. An error
behind the first one is thrown away. -/
def firstError (result : Except LogError Unit) : Reply → Except Panic (Except LogError Unit)
  | .done => .ok result
  | .panicked cause _ => .error cause
  | .failed error =>
    match result, error.disposal with
    | .ok (), _ => .ok (.error error)
    | .error first, none => .ok (.error first)
    | .error _, some p => .error p

/-- Flushes destinations in turn and returns the first error. A panic ends the flushing. -/
def flushAll (e : Engine) (result : Except LogError Unit) :
    List Handle → Outcome (Except LogError Unit) × Engine
  | [] => (.ok result, e)
  | h :: rest =>
    let (reply, outlets) := e.outlets.flush h
    let e := { e with outlets := outlets }
    match firstError result reply with
    | .ok result => e.flushAll result rest
    | .error p => (.error (.panic p), e)

/-- Flushes all destinations. -/
def flush (e : Engine) : Outcome (Except LogError Unit) × Engine :=
  e.flushAll (.ok ()) e.settings.handles

/-- Runs an exit hook. -/
def runExitHook (e : Engine) (hook : ExitHook) : Outcome Unit × Engine :=
  match hook with
  | .endsProcess => (.error (.exit fatalExitCode), e)
  | .custom panic =>
    let e := { e with exits := e.exits + 1 }
    match panic with
    | none => (.ok (), e)
    | some p => (.error (.panic p), e)

/-- The report that destinations could not be flushed, as far as the error can be shown. -/
def flushReport (error : LogError) : Bytes :=
  Text.utf8 ("[LOGGER ERROR] Failed to flush before exit: " ++ error.message ++
    (if error.ending = .returns then "\n" else ""))

/-- Reports that destinations could not be flushed. The error is shown as part of the report, and then it is
thrown away. -/
def reportFlush (e : Engine) (error : LogError) : Outcome Unit × Engine :=
  andThen (e.report (flushReport error)) fun e =>
    match error.ending.inText with
    | .error p => (.error (.panic p), e)
    | .ok () => (.ofPanic error.disposal, e)

/-- Flushes and runs the exit hook, after a fatal line. -/
def finishFatal (e : Engine) (hook : ExitHook) : Outcome Unit × Engine :=
  match e.flush with
  | (.error i, e) => (.error i, e)
  | (.ok (.ok ()), e) => e.runExitHook hook
  | (.ok (.error error), e) => andThen (e.reportFlush error) fun e => e.runExitHook hook

/-- Sends a finished line to the destinations of its severity and gives its buffer back. -/
def output (e : Engine) (severity : Severity) (buffer : Buffer) : Outcome Unit × Engine :=
  andThen (e.written severity buffer) fun after =>
    if severity = .fatal then after.finishFatal e.settings.exitHook else (.ok (), after)

/-! ### Log calls -/

/-- Takes a buffer out of the pool. -/
def acquire (e : Engine) : Buffer × Engine :=
  let (buffer, pool) := e.pool.acquire
  (buffer, { e with pool := pool })

/-- Sends octets as a line of their own. -/
def outputRaw (e : Engine) (severity : Severity) (bytes : Bytes) : Outcome Unit × Engine :=
  let (buffer, e) := e.acquire
  e.output severity { buffer with bytes := buffer.bytes ++ bytes }

/-- The header of the next record. -/
def headerOf (e : Engine) (severity : Severity) (site : CallSite) : Bytes :=
  header severity e.stamp e.pid site

/-- Logs a message. If writing it panics, the buffer goes back to the pool with what was written into it, and
nothing is put out. -/
def print (e : Engine) (site : CallSite) (severity : Severity) (m : Message) : Outcome Unit × Engine :=
  let (buffer, e) := e.acquire
  let ((bytes, shown), e) := e.absorb (m.write (buffer.bytes ++ e.headerOf severity site))
  match shown with
  | .error p => (.error (.panic p), { e with pool := e.pool.release { buffer with bytes } })
  | .ok () => e.output severity { buffer with bytes := finishLine bytes }

/-- Logs a quoted message with pairs. If a panic gets out of the guard of a hook, the buffer goes back to the
pool and nothing is put out. -/
def printStructured (e : Engine) (site : CallSite) (severity : Severity) (message : String)
    (lists : List (List Value)) : Outcome Unit × Engine :=
  let (buffer, e) := e.acquire
  let (written, e) := e.absorb (e.formatter.guardHooks
    (e.formatter.writeStructured (buffer.bytes ++ e.headerOf severity site) message lists))
  match written with
  | .error p => (.error (.panic p), { e with pool := e.pool.release buffer })
  | .ok bytes => e.output severity { buffer with bytes := finishLine bytes }

/-- The lists of a log call with an error: the error has a list of its own, before the others. -/
def errorLists (error : Option Value) (kvs : List Value) : List (List Value) :=
  match error with
  | some v => [[.text "err", v], kvs]
  | none => [kvs]

/-- Logs a quoted message with pairs, optionally for an error. -/
def printS (e : Engine) (site : CallSite) (severity : Severity) (error : Option Value)
    (message : String) (kvs : List Value) : Outcome Unit × Engine :=
  e.printStructured site severity message (errorLists error kvs)

/-- Logs an error. The caller's own conversion turns it into a value first; `error` is what comes of that. -/
def errorS (e : Engine) (site : CallSite) (error : Except Panic Value) (message : String)
    (kvs : List Value) : Outcome Unit × Engine :=
  let (_, e) := e.absorb (Traced.call .conversion)
  match error with
  | .error p => (.error (.panic p), e)
  | .ok v => e.printS site .error (some v) message kvs

/-- Logs a message if a verbosity level is logged. -/
def verbosePrint (e : Engine) (level : UInt32) (site : CallSite) (m : Message) : Outcome Unit × Engine :=
  if e.verbosityEnabled level then e.print site .info m else (.ok (), e)

/-- Logs a quoted message with pairs if a verbosity level is logged. -/
def verbosePrintS (e : Engine) (level : UInt32) (site : CallSite) (message : String)
    (kvs : List Value) : Outcome Unit × Engine :=
  if e.verbosityEnabled level then e.printStructured site .info message [kvs] else (.ok (), e)

/-- The engine for diagnostics. -/
def inspect (e : Engine) : String :=
  Text.inspectPartialRecord "Logging"
    [("thresholds", e.settings.thresholds.inspect), ("stats", e.stats.inspect)]

end Engine

end Logline
