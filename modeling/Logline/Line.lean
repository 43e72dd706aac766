import Logline.CallSite
import Logline.Severity
import Logline.Formatter.Lists
/-!
# Lines

A record is a line: a header with the severity, the time, the process and the call site, then either a
message, or a quoted message with pairs. Lines end with a line feed.
-/

namespace Logline

open Text

/-! ### Time stamps -/

/-- A time of day and the day of the year. The nanoseconds of a leap second go on beyond those of the
second before it. -/
structure Stamp where
  month : Nat
  day : Nat
  hour : Nat
  minute : Nat
  second : Nat
  nano : Nat
  deriving DecidableEq, Repr, Inhabited

namespace Stamp

/-- A number in two digits. -/
def twoDigits (n : Nat) : List Char := padded 2 '0' (decimal n)

/-- A time stamp: month and day, the time of day, microseconds. -/
def chars (t : Stamp) : List Char :=
  twoDigits t.month ++ twoDigits t.day ++ ' ' :: twoDigits t.hour ++ ':' :: twoDigits t.minute ++
    ':' :: twoDigits (t.second + t.nano / 1000000000) ++
    '.' :: padded 6 '0' (decimal (t.nano % 1000000000 / 1000))

end Stamp

/-! ### Headers -/

/-- The header of a line, up to the blank before the message. -/
def headerChars (severity : Severity) (stamp : Stamp) (pid : Nat) (site : CallSite) : List Char :=
  severity.letter :: (stamp.chars ++ ' ' :: (padded 7 ' ' (decimal pid) ++
    ' ' :: (site.text.toList ++ [']', ' '])))

/-- The header of a line in UTF-8. -/
def header (severity : Severity) (stamp : Stamp) (pid : Nat) (site : CallSite) : Bytes :=
  encode (headerChars severity stamp pid site)

/-! ### Bodies -/

/-- Ends a line, unless it has ended. -/
def finishLine (buf : Bytes) : Bytes := if buf.getLast? = some 0x0A then buf else buf ++ [0x0A]

/-- Writes a quoted message and pairs behind it. -/
def Formatter.writeStructured (f : Formatter) (buf : Bytes) (message : String)
    (lists : List (List Value)) : Traced Bytes :=
  f.writeLists (buf ++ quoted message) lists

end Logline
