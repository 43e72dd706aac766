import Logline.Engine
/-!
# Sinks

A sink takes records. Root sinks hand them on to an engine, keep them, or are a user's own; decorators
stand around another sink and change what it is given: the call depth, the marking of helper frames, or
the pairs of a context.

Two abilities are optional. A sink may be able to attribute its records to a frame further out
(`withCallDepth?`), and it may mark helper frames (`helper?`). Decorators pass the abilities of what they
decorate on in different ways, and a context decorator keeps the ability that it found when it was put
together.

What a record makes a sink do is a list of deliveries; `Engine.deliver` carries them out.
-/

namespace Logline

/-- A record on its way through sinks. -/
structure LogRecord where
  site : CallSite
  severity : Severity
  message : String
  kvs : List Value

/-- The ability that a context decorator found in the sink it decorates. -/
inductive Flavor where
  | plain
  | callDepth (depth : Nat)
  | helper
  deriving DecidableEq, Repr

/-- How a recording sink behaves. -/
structure Recording where
  /-- The recorder that keeps the entries. -/
  recorder : Nat
  supportsCallDepth : Bool := false
  supportsHelper : Bool := false
  minSeverity : Severity := .info
  verbosity : UInt32 := 4294967295
  values : List Value := []
  callDepth : Nat := 0

/-- A sink. -/
inductive Sink where
  /-- Hands its records to the engine. -/
  | engine (values : List Value) (callDepth : Nat)
  /-- Keeps its records. -/
  | recording (r : Recording)
  /-- A user's own sink without abilities, which takes no records of one severity and shows the others. It
  stands for what lies outside the library; sinks of users may be otherwise. -/
  | basic (name : String) (muted : Severity) (values : List Value)
  /-- Attributes records to a frame further out. -/
  | callDepth (inner : Sink) (offset : Nat)
  /-- Marks the current frame as a helper before it hands records on. -/
  | helper (inner : Sink)
  /-- Adds the pairs of a context. Another source of values stands here as the table of what it answers while
  the sink is in use. -/
  | context (inner : Sink) (context : Context) (keys : List ContextKey) (flavor : Flavor)

/-- What a record makes a sink do. -/
inductive Delivery where
  | logged (record : LogRecord) (values : List Value) (callDepth : Nat)
  | recorded (recorder : Nat) (entry : RecordedEntry)
  | emitted (name : String) (record : LogRecord) (values : List Value)
  /-- A helper frame was marked. -/
  | helperMarked (recorder : Nat)

namespace Sink

/-! ### Abilities -/

/-- The sink that attributes its records `depth` frames further out, if it can. -/
def withCallDepth? (depth : Nat) : Sink → Option Sink
  | .engine values current => some (.engine values (current + depth))
  | .recording r =>
    if r.supportsCallDepth then some (.recording { r with callDepth := r.callDepth + depth }) else none
  | .basic _ _ _ => none
  | .callDepth inner offset => some (.callDepth inner (offset + depth))
  | .helper inner => inner.withCallDepth? depth
  | .context inner c keys flavor =>
    match flavor with
    | .callDepth current => some (.context inner c keys (.callDepth (current + depth)))
    | _ => none

/-- The sink that attributes its records `depth` frames further out, or the same sink. -/
def withCallDepth (s : Sink) (depth : Nat) : Sink := (s.withCallDepth? depth).getD s

/-- Whether a sink can attribute its records to a frame further out. -/
def hasCallDepth (s : Sink) : Bool := (s.withCallDepth? 0).isSome

/-- Whether a sink is a call depth decorator whose offset the decorated sink honours. -/
def isEffective : Sink → Bool
  | .callDepth inner _ => inner.hasCallDepth
  | _ => false

/-- What marking a helper frame makes a sink do, if it can. -/
def helper? : Sink → Option (List Delivery)
  | .engine _ _ => none
  | .recording r => if r.supportsHelper then some [.helperMarked r.recorder] else none
  | .basic _ _ _ => none
  | .callDepth inner _ => inner.helper?
  | .helper inner => some (inner.helper?.getD [])
  | .context inner _ _ flavor =>
    match flavor with
    | .helper => some (inner.helper?.getD [])
    | _ => none

/-- Whether a sink can mark helper frames. -/
def hasHelper (s : Sink) : Bool := s.helper?.isSome

/-! ### Gating -/

/-- Whether a sink takes records of a severity. -/
def enabled (severity : Severity) : Sink → Bool
  | .engine _ _ => true
  | .recording r => r.minSeverity ≤ severity
  | .basic _ muted _ => severity ≠ muted
  | .callDepth inner _ => inner.enabled severity
  | .helper inner => inner.enabled severity
  | .context inner _ _ _ => inner.enabled severity

/-- Whether a sink takes records of a verbosity level, with the thresholds of the engine. -/
def verbosityEnabled (thresholds : Thresholds) (level : UInt32) : Sink → Bool
  | .engine _ _ => thresholds.verbosityEnabled level
  | .recording r => level ≤ r.verbosity
  | .basic _ _ _ => true
  | .callDepth inner _ => inner.verbosityEnabled thresholds level
  | .helper inner => inner.verbosityEnabled thresholds level
  | .context inner _ _ _ => inner.verbosityEnabled thresholds level

/-! ### Putting sinks together -/

/-- The ability of a sink that a context decorator around it keeps. -/
def detect (inner : Sink) (depth : Nat) : Flavor :=
  if inner.hasCallDepth then .callDepth depth
  else if inner.hasHelper then .helper
  else .plain

/-- A context decorator around a sink. -/
def withContext (inner : Sink) (context : Context) (keys : List ContextKey) : Sink :=
  .context inner context keys (inner.detect 0)

/-- The depth that a context decorator was asked for. -/
def Flavor.depth : Flavor → Nat
  | .callDepth depth => depth
  | _ => 0

/-- The sink that adds pairs to every record. -/
def withValues (kvs : List Value) : Sink → Sink
  | .engine values depth => .engine (KeyValues.withValues values kvs) depth
  | .recording r => .recording { r with values := KeyValues.withValues r.values kvs }
  | .basic name muted values => .basic name muted (KeyValues.withValues values kvs)
  | .callDepth inner offset => .callDepth (inner.withValues kvs) offset
  | .helper inner => .helper (inner.withValues kvs)
  | .context inner c keys flavor =>
    .context (inner.withValues kvs) c keys ((inner.withValues kvs).detect (Flavor.depth flavor))

/-! ### Taking records -/

/-- The number of sinks that a sink is made of. -/
def size : Sink → Nat
  | .engine _ _ => 1
  | .recording _ => 1
  | .basic _ _ _ => 1
  | .callDepth inner _ => inner.size + 1
  | .helper inner => inner.size + 1
  | .context inner _ _ _ => inner.size + 1

theorem size_withCallDepth? {depth : Nat} {s t : Sink} (h : s.withCallDepth? depth = some t) :
    t.size ≤ s.size := by
  induction s generalizing t with
  | engine values current => cases h; exact Nat.le_refl _
  | recording r =>
    rw [withCallDepth?] at h
    split at h <;> cases h
    exact Nat.le_refl _
  | basic name muted values => cases h
  | callDepth inner offset ih => cases h; exact Nat.le_refl _
  | helper inner ih => exact Nat.le_succ_of_le (ih h)
  | context inner c keys flavor ih =>
    cases flavor <;> cases h
    exact Nat.le_refl _

theorem size_withCallDepth (s : Sink) (depth : Nat) : (s.withCallDepth depth).size ≤ s.size := by
  unfold withCallDepth
  cases h : s.withCallDepth? depth with
  | none => exact Nat.le_refl _
  | some t => exact size_withCallDepth? h

/-- What a sink does with a record. -/
def emit (s : Sink) (record : LogRecord) : List Delivery :=
  match s with
  | .engine values depth => [.logged record values depth]
  | .recording r =>
    [.recorded r.recorder
      ⟨record.site, record.severity, record.message, r.values, record.kvs, r.callDepth⟩]
  | .basic name _ values => [.emitted name record values]
  | .callDepth inner offset => (inner.withCallDepth offset).emit record
  | .helper inner => inner.helper?.getD [] ++ inner.emit record
  | .context inner c keys flavor =>
    let record := { record with kvs := record.kvs ++ c.extract keys }
    match flavor with
    | .plain => inner.emit record
    | .callDepth depth =>
      if depth = 0 then inner.emit record else (inner.withCallDepth depth).emit record
    | .helper => inner.helper?.getD [] ++ inner.emit record
termination_by s.size
decreasing_by
  all_goals simp only [size]
  all_goals first
    | omega
    | exact Nat.lt_succ_of_le (size_withCallDepth _ _)

end Sink

/-! ### Carrying out deliveries -/

namespace RecordedEntry

/-- The pairs of an entry as a line shows them. -/
def text (entry : RecordedEntry) : Traced Bytes :=
  ({} : Formatter).writeLists [] [entry.values, entry.kvs]

end RecordedEntry

namespace Engine

/-- A recorder. -/
def recorder (e : Engine) (n : Nat) : Recorder := (e.recorders[n]?).getD {}

/-- Changes a recorder. -/
def modifyRecorder (e : Engine) (recorder : Nat) (change : Recorder → Recorder) : Engine :=
  { e with recorders := e.recorders.modify recorder change }

/-- What a user's own sink shows of a record: severity, call site, message and pairs. -/
def basicText (record : LogRecord) (values : List Value) : Traced Bytes :=
  ({} : Formatter).writeLists
    (Text.utf8 (record.severity.name ++ " " ++ record.site.text ++ " " ++ record.message))
    [values, record.kvs]

/-- Carries out a delivery. -/
def deliver (e : Engine) : Delivery → Outcome Unit × Engine
  | .logged record values callDepth =>
    e.printStructured (record.site.attributed callDepth e.stack) record.severity record.message
      [values, record.kvs]
  | .recorded recorder entry =>
    (.ok (), e.modifyRecorder recorder fun r => { r with entries := r.entries ++ [entry] })
  | .emitted name record values =>
    let (text, e) := e.absorb (basicText record values)
    (.ok (), { e with outlets := e.outlets.note (.emitted name text) })
  | .helperMarked recorder =>
    (.ok (), e.modifyRecorder recorder fun r => { r with helperCalls := r.helperCalls + 1 })

/-- Carries out deliveries in turn, up to the first that does not return. -/
def deliverAll (e : Engine) : List Delivery → Outcome Unit × Engine
  | [] => (.ok (), e)
  | d :: rest =>
    match e.deliver d with
    | (.ok (), e) => e.deliverAll rest
    | (.error i, e) => (.error i, e)

/-- Gives a record to a sink. -/
def emit (e : Engine) (s : Sink) (record : LogRecord) : Outcome Unit × Engine :=
  e.deliverAll (s.emit record)

/-- Marks a helper frame at a sink; tells whether the sink can. -/
def callHelper (e : Engine) (s : Sink) : Bool × Engine :=
  match s.helper? with
  | some deliveries => (true, (e.deliverAll deliveries).2)
  | none => (false, e)

/-- Adds a recorder. -/
def addRecorder (e : Engine) : Nat × Engine :=
  (e.recorders.length, { e with recorders := e.recorders ++ [{}] })

end Engine

end Logline
