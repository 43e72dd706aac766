import Logline.PerSeverity
import Logline.Text.Inspect
/-!
# Output statistics

Counters of the lines and octets put out at each severity, and of the writes to destinations that failed.
They are words of 64 bits.
-/

namespace Logline

/-- The counters in ascending order of severity, for diagnostics. -/
def inspectCounters (c : PerSeverity UInt64) : String :=
  Text.inspectList (c.toList.map fun n => toString n.toNat)

/-- The output statistics. -/
structure Stats where
  lines : PerSeverity UInt64 := .const 0
  bytes : PerSeverity UInt64 := .const 0
  /-- The writes to destinations that failed, over all destinations. -/
  writeErrors : UInt64 := 0
  deriving DecidableEq, Repr, Inhabited

namespace Stats

/-- How many failed writes to files lie between two reports. -/
def reportInterval : UInt64 := 1000

/-- Counts a line and its octets. -/
def recordLine (s : Stats) (severity : Severity) (length : Nat) : Stats :=
  { s with
    lines := s.lines.modify severity (· + 1)
    bytes := s.bytes.modify severity (· + UInt64.ofNat length) }

/-- Counts a failed write. -/
def recordWriteError (s : Stats) : Stats := { s with writeErrors := s.writeErrors + 1 }

/-- The lines of all severities. -/
def totalLines (s : Stats) : UInt64 := s.lines.toList.foldl (· + ·) 0

/-- The statistics for diagnostics. -/
def inspect (s : Stats) : String :=
  Text.inspectRecord "OutputStats"
    [("lines", inspectCounters s.lines), ("bytes", inspectCounters s.bytes),
      ("write_errors", toString s.writeErrors.toNat)]

end Stats

end Logline
