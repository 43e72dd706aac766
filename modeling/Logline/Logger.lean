import Logline.Sink
/-!
# Loggers

A logger is a handle on a sink with a name and a verbosity level. Deriving a logger with more values, a
longer name, a call depth, a context or a higher level makes a new logger and leaves the old one as it
is.

A logger asks first whether a record would be taken; if not, nothing at all happens.
-/

namespace Logline

/-- A handle on a sink. -/
structure Logger where
  sink : Sink
  name : Option String := none
  /-- The verbosity level of the lowest severity. -/
  level : UInt32 := 0

namespace Logger

/-! ### Deriving loggers -/

/-- The logger that writes through the engine. -/
def ofEngine : Logger := { sink := .engine [] 0 }

/-- The sum of two verbosity levels, or the highest one if there is no such level. -/
def addLevels (a b : UInt32) : UInt32 := UInt32.ofNat (min (a.toNat + b.toNat) 4294967295)

/-- Raises the verbosity level. -/
def v (l : Logger) (level : UInt32) : Logger := { l with level := addLevels l.level level }

/-- Adds pairs to every record. -/
def withValues (l : Logger) (kvs : List Value) : Logger := { l with sink := l.sink.withValues kvs }

/-- Appends a part to the name; parts are joined by slashes. -/
def withName (l : Logger) (name : String) : Logger :=
  { l with name := some (match l.name with
      | some before => before ++ "/" ++ name
      | none => name) }

/-- Attributes records to a frame further out, if the sink can. -/
def withCallDepth (l : Logger) (depth : Nat) : Logger :=
  { l with sink := l.sink.withCallDepth depth }

/-- Adds the values of a context to every record. -/
def withContext (l : Logger) (context : Context) (keys : List ContextKey) : Logger :=
  { l with sink := l.sink.withContext context keys }

/-- The logger that writes through the engine and adds the values of a context that the engine's table
of context keys names now. -/
def ofContext (e : Engine) (context : Context) : Logger :=
  ofEngine.withContext context e.settings.contextKeys

/-- A logger for diagnostics. -/
def inspect (l : Logger) : String :=
  Text.inspectPartialRecord "Logger"
    [("name", match l.name with
        | some name => "Some(" ++ Text.inspect name ++ ")"
        | none => "None"),
      ("level", toString l.level.toNat)]

/-! ### Log calls -/

/-- Whether a record of a severity would be taken. Only the lowest severity depends on the verbosity
level. -/
def enabled (l : Logger) (e : Engine) (severity : Severity) : Bool :=
  l.sink.enabled severity &&
    (severity ≠ .info || l.level == 0 || l.sink.verbosityEnabled e.settings.thresholds l.level)

/-- The key of the logger's name. -/
def nameKey : String := "logger"

/-- The pairs of a record, after the logger's name. -/
def named (l : Logger) (kvs : List Value) : List Value :=
  match l.name with
  | some name => .text nameKey :: .text name :: kvs
  | none => kvs

/-- Gives a record to the sink. -/
def emit (l : Logger) (e : Engine) (site : CallSite) (severity : Severity) (message : String)
    (kvs : List Value) : Outcome Unit × Engine :=
  e.emit l.sink ⟨site, severity, message, l.named kvs⟩

/-- Logs a message with pairs. -/
def log (l : Logger) (e : Engine) (site : CallSite) (severity : Severity) (message : String)
    (kvs : List Value) : Outcome Unit × Engine :=
  if l.enabled e severity then l.emit e site severity message kvs else (.ok (), e)

/-- Logs an error with a message and pairs. The caller's own conversion turns the error into a value, only if
the record is taken; `error` is what comes of that. -/
def error (l : Logger) (e : Engine) (site : CallSite) (error : Except Panic Value) (message : String)
    (kvs : List Value) : Outcome Unit × Engine :=
  if l.enabled e .error then
    let (_, e) := e.absorb (Traced.call .conversion)
    match error with
    | .error p => (.error (.panic p), e)
    | .ok v => l.emit e site .error message (.text "err" :: v :: kvs)
  else (.ok (), e)

/-- Logs a message without pairs. The message is put together only if the record is taken. -/
def print (l : Logger) (e : Engine) (site : CallSite) (severity : Severity) (m : Message) :
    Outcome Unit × Engine :=
  if l.enabled e severity then
    let (text, e) := e.absorb m.toText
    match text with
    | .error p => (.error (.panic p), e)
    | .ok text => l.emit e site severity text []
  else (.ok (), e)

end Logger

end Logline
