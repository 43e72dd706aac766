import Logline.Thresholds
import Logline.Json.Reader
/-!
# Flag tables

A flag table is a complete set of flag values. As a JSON document it is an object whose members are named
like the flags, any of which may be left out, or an array of the values in the order of the table, from
which the last ones may be left out. An unknown or repeated name is an error.

Main statements: `toThresholds_ofThresholds` and `ofThresholds_toThresholds` (tables and thresholds hold
the same settings).
-/

namespace Logline

open Json

/-- Flag values by flag, in the order of the table. -/
structure FlagTable where
  logToConsole : Bool
  alsoLogToConsole : Bool
  consoleThreshold : Severity
  alsoThreshold : Severity
  legacy : Bool
  verbosity : UInt32
  deriving DecidableEq, Repr

namespace FlagTable

/-- The flag values of settings. -/
def ofThresholds (t : Thresholds) : FlagTable :=
  ⟨t.toConsole, t.alsoToConsole, t.consoleThreshold, t.alsoThreshold, t.legacy, t.verbosity⟩

/-- The settings that a flag table stands for. -/
def toThresholds (table : FlagTable) : Thresholds where
  toConsole := table.logToConsole
  alsoToConsole := table.alsoLogToConsole
  legacy := table.legacy
  consoleThreshold := table.consoleThreshold
  alsoThreshold := table.alsoThreshold
  verbosity := table.verbosity

/-- The table of the initial settings. -/
def initial : FlagTable := ofThresholds {}

theorem toThresholds_ofThresholds (t : Thresholds) : (ofThresholds t).toThresholds = t := rfl

theorem ofThresholds_toThresholds (table : FlagTable) : ofThresholds table.toThresholds = table := rfl

/-! ### Writing -/

/-- A flag table as a JSON value. -/
def toJson (table : FlagTable) : Json :=
  .object
    [(Flag.toConsole.name, .bool table.logToConsole),
      (Flag.alsoToConsole.name, .bool table.alsoLogToConsole),
      (Flag.consoleThreshold.name, .string table.consoleThreshold.name),
      (Flag.alsoThreshold.name, .string table.alsoThreshold.name),
      (Flag.legacy.name, .bool table.legacy),
      (Flag.verbosity.name, .integer table.verbosity.toNat)]

/-- A flag table for diagnostics. -/
def inspect (table : FlagTable) : String :=
  Text.inspectRecord "LoggingConfig"
    [(Flag.toConsole.name, toString table.logToConsole),
      (Flag.alsoToConsole.name, toString table.alsoLogToConsole),
      (Flag.consoleThreshold.name, table.consoleThreshold.inspect),
      (Flag.alsoThreshold.name, table.alsoThreshold.inspect),
      (Flag.legacy.name, toString table.legacy),
      (Flag.verbosity.name, toString table.verbosity.toNat)]

/-! ### Reading -/

/-- Reads a severity given by a JSON string. -/
def readSeverity : Reader Severity := fun cs =>
  match readText cs with
  | .error e => .error e
  | .ok (text, rest) =>
    match Severity.ofText text with
    | .ok s => .ok (s, rest)
    | .error e => .error (.data e.message)

/-- Reads the value of a flag into a table. -/
def readValue (table : FlagTable) : Flag → Reader FlagTable
  | .toConsole, cs => (readBool cs).map fun r => ({ table with logToConsole := r.1 }, r.2)
  | .alsoToConsole, cs => (readBool cs).map fun r => ({ table with alsoLogToConsole := r.1 }, r.2)
  | .consoleThreshold, cs => (readSeverity cs).map fun r => ({ table with consoleThreshold := r.1 }, r.2)
  | .alsoThreshold, cs => (readSeverity cs).map fun r => ({ table with alsoThreshold := r.1 }, r.2)
  | .legacy, cs => (readBool cs).map fun r => ({ table with legacy := r.1 }, r.2)
  | .verbosity, cs => (readUInt32 cs).map fun r => ({ table with verbosity := r.1 }, r.2)

/-- Reads the next name of an object and the colon after it; `none` at the end of the object. -/
def readName (isFirst : Bool) : Reader (Option String) := fun cs =>
  let name (cs : List Char) : Except ReadError (Option String × List Char) :=
    match cs with
    | '"' :: rest => (readString rest).map fun r => (some (String.ofList r.1), r.2)
    | [] => .error .truncated
    | _ => .error .malformed
  match skipBlanks cs with
  | [] => .error .truncated
  | '\x7d' :: rest => .ok (none, rest)
  | ',' :: rest => if isFirst then .error .malformed else name (skipBlanks rest)
  | rest => if isFirst then name rest else .error .malformed

/-- Reads the colon between a name and its value. -/
def readColon : Reader Unit := fun cs =>
  match skipBlanks cs with
  | ':' :: rest => .ok ((), rest)
  | [] => .error .truncated
  | _ => .error .malformed

/-- The error for a name that no flag has. -/
def unknownField (name : String) : ReadError :=
  .data ("unknown field `" ++ name ++ "`, expected one of " ++
    ", ".intercalate (Flag.all.map fun f => "`" ++ f.name ++ "`"))

/-- Reads the members of an object up to its end. `unseen` holds the flags that may still come. -/
def readMembers (unseen : List Flag) (table : FlagTable) (isFirst : Bool) (cs : List Char) :
    Except ReadError (FlagTable × List Char) :=
  match readName isFirst cs with
  | .error e => .error e
  | .ok (none, rest) => .ok (table, rest)
  | .ok (some name, rest) =>
    match Flag.ofName? name with
    | none => .error (unknownField name)
    | some flag =>
      if _seen : flag ∈ unseen then
        match readColon rest with
        | .error e => .error e
        | .ok ((), rest) =>
          match table.readValue flag rest with
          | .error e => .error e
          | .ok (table, rest) => readMembers (unseen.erase flag) table false rest
      else .error (.data ("duplicate field `" ++ flag.name ++ "`"))
termination_by unseen.length
decreasing_by
  rw [List.length_erase_of_mem _seen]
  have := List.length_pos_of_mem _seen
  omega

/-- Reads the items of an array, one for each of the flags, until the array ends. Items after the last
flag are an error. -/
def readItems (table : FlagTable) (isFirst : Bool) :
    List Flag → List Char → Except ReadError (FlagTable × List Char)
  | [], cs =>
    match skipBlanks cs with
    | ']' :: rest => .ok (table, rest)
    | [] => .error .truncated
    | _ => .error .malformed
  | flag :: flags, cs =>
    match skipBlanks cs with
    | [] => .error .truncated
    | ']' :: rest => .ok (table, rest)
    | c :: rest =>
      let item (cs : List Char) : Except ReadError (FlagTable × List Char) :=
        match table.readValue flag cs with
        | .error e => .error e
        | .ok (table, rest) => readItems table false flags rest
      if isFirst then item (c :: rest)
      else if c = ',' then
        match skipBlanks rest with
        | [] => .error .truncated
        | ']' :: _ => .error .malformed
        | rest => item rest
      else .error .malformed

/-- Reads a flag table from a JSON document. -/
def ofText (text : String) : Except ReadError FlagTable :=
  finish <|
    match skipBlanks text.toList with
    | [] => .error .truncated
    | '\x7b' :: rest => readMembers Flag.all initial true rest
    | '[' :: rest => readItems initial true Flag.all rest
    | other => .error (mismatch "struct LoggingConfig" other)

/-- Reads a severity from a JSON document. -/
def severityOfText (text : String) : Except ReadError Severity := finish (readSeverity text.toList)

end FlagTable

end Logline
