import Logline.Severity
import Logline.Text.Bytes
import Logline.Text.Inspect
/-!
# Thresholds

Where a record goes is decided by its severity and a few settings. Either the console is the only
destination, or the files are, and then the console gets a copy of the records that reach a threshold.
Records of the lowest severity can be gated by a verbosity level.

Settings are changed by flags given as texts; a flag that is not understood changes nothing.

Main statements: `route_files` and `route_console`, the policy as a condition.
-/

namespace Logline

/-- The settings that decide where records go. -/
structure Thresholds where
  /-- The console is the only destination; nothing reaches the files. -/
  toConsole : Bool := true
  /-- The console gets a copy of what reaches the files, from a threshold of its own on. -/
  alsoToConsole : Bool := false
  /-- With `toConsole`, everything is printed, whatever the threshold. -/
  legacy : Bool := true
  consoleThreshold : Severity := .error
  alsoThreshold : Severity := .info
  /-- The highest verbosity level that is logged. -/
  verbosity : UInt32 := 0
  deriving DecidableEq, Repr, Inhabited

/-- Where one record goes. -/
structure Route where
  files : Bool
  console : Bool
  deriving DecidableEq, Repr

namespace Thresholds

/-! ### The policy -/

/-- The destinations of a record. -/
def route (t : Thresholds) (s : Severity) : Route :=
  if t.toConsole then ⟨false, t.legacy || t.consoleThreshold ≤ s⟩
  else ⟨true, t.consoleThreshold ≤ s || (t.alsoToConsole && t.alsoThreshold ≤ s)⟩

/-- Whether a verbosity level is logged. -/
def verbosityEnabled (t : Thresholds) (level : UInt32) : Bool := level ≤ t.verbosity

theorem route_files (t : Thresholds) (s : Severity) : (t.route s).files = !t.toConsole := by
  unfold route; split <;> simp_all

theorem route_console (t : Thresholds) (s : Severity) :
    (t.route s).console = true ↔
      (t.toConsole = true ∧ (t.legacy = true ∨ t.consoleThreshold ≤ s)) ∨
      (t.toConsole = false ∧ (t.consoleThreshold ≤ s ∨
        (t.alsoToConsole = true ∧ t.alsoThreshold ≤ s))) := by
  unfold route; split <;> simp_all

/-- The settings for diagnostics. -/
def inspect (t : Thresholds) : String :=
  Text.inspectRecord "ThresholdConfig"
    [("to_stderr", toString t.toConsole), ("also_to_stderr", toString t.alsoToConsole),
      ("legacy_stderr_threshold_behavior", toString t.legacy),
      ("stderr_threshold", t.consoleThreshold.inspect),
      ("also_stderr_threshold", t.alsoThreshold.inspect),
      ("verbosity", toString t.verbosity.toNat)]

end Thresholds

/-! ### Flags -/

/-- The flags that change a setting. -/
inductive Flag where
  | toConsole
  | alsoToConsole
  | consoleThreshold
  | alsoThreshold
  | legacy
  | verbosity
  deriving DecidableEq, Repr

namespace Flag

/-- All flags. -/
def all : List Flag :=
  [.toConsole, .alsoToConsole, .consoleThreshold, .alsoThreshold, .legacy, .verbosity]

/-- The name of a flag. -/
def name : Flag → String
  | .toConsole => "logtostderr"
  | .alsoToConsole => "alsologtostderr"
  | .consoleThreshold => "stderrthreshold"
  | .alsoThreshold => "alsologtostderrthreshold"
  | .legacy => "legacy_stderr_threshold_behavior"
  | .verbosity => "v"

/-- The flag with a name. -/
def ofName? (name : String) : Option Flag := all.find? fun f => f.name == name

theorem mem_all (f : Flag) : f ∈ all := by cases f <;> decide

end Flag

namespace Thresholds

/-- The texts for true. -/
def trueTexts : List String := ["1", "t", "T", "true", "TRUE", "True"]

/-- The texts for false. -/
def falseTexts : List String := ["0", "f", "F", "false", "FALSE", "False"]

/-- Reads the value of a boolean flag. -/
def readBool (flag value : String) : Except LogError Bool :=
  if value ∈ trueTexts then .ok true
  else if value ∈ falseTexts then .ok false
  else .error (.invalidConfiguration flag ("invalid boolean value '" ++ value ++ "'"))

/-- The number that a text of decimal digits denotes, an optional plus sign before them. -/
def natural? (text : List Char) : Option Nat :=
  let digits := match text with
    | '+' :: rest => rest
    | cs => cs
  if digits ≠ [] ∧ digits.all Char.isDigit then
    some (digits.foldl (fun n c => n * 10 + (c.toNat - '0'.toNat)) 0)
  else none

/-- Reads a verbosity level, a number of at most 32 bits. -/
def readVerbosity (flag value : String) : Except LogError UInt32 :=
  match natural? value.toList with
  | some n =>
    if n < UInt32.size then .ok (UInt32.ofNat n)
    else .error (.invalidConfiguration flag ("invalid verbosity level '" ++ value ++ "'"))
  | none => .error (.invalidConfiguration flag ("invalid verbosity level '" ++ value ++ "'"))

/-- The settings after a flag. -/
def set (t : Thresholds) (flag : Flag) (value : String) : Except LogError Thresholds :=
  match flag with
  | .toConsole => (readBool flag.name value).map fun b => { t with toConsole := b }
  | .alsoToConsole => (readBool flag.name value).map fun b => { t with alsoToConsole := b }
  | .legacy => (readBool flag.name value).map fun b => { t with legacy := b }
  | .consoleThreshold => (Severity.ofText value).map fun s => { t with consoleThreshold := s }
  | .alsoThreshold => (Severity.ofText value).map fun s => { t with alsoThreshold := s }
  | .verbosity => (readVerbosity flag.name value).map fun n => { t with verbosity := n }

/-- The settings after a flag given by name. -/
def apply (t : Thresholds) (name value : String) : Except LogError Thresholds :=
  match Flag.ofName? name with
  | some flag => t.set flag value
  | none => .error (.unknownFlag name)

end Thresholds

end Logline
