import Logline.Error
import Logline.Text.CharClass
/-!
# Severities

Four severities in ascending order. A record at a severity goes to the destinations of that severity and
of all below it, highest first: its cascade.

A severity is read from its name in any case or from its number, with white space around it.

Main statements: `mem_cascade` (the cascade holds the severities up to the given one) and
`ofIndex?_index`.
-/

namespace Logline

/-- How severe a record is. -/
inductive Severity where
  | info
  | warning
  | error
  | fatal
  deriving DecidableEq, Repr, Inhabited

namespace Severity

/-- All severities, in ascending order. -/
def all : List Severity := [.info, .warning, .error, .fatal]

/-- The position of a severity in the ascending order. -/
def index : Severity → Nat
  | .info => 0
  | .warning => 1
  | .error => 2
  | .fatal => 3

/-- The severity at a position. -/
def ofIndex? : Nat → Option Severity
  | 0 => some .info
  | 1 => some .warning
  | 2 => some .error
  | 3 => some .fatal
  | _ => none

/-- A severity is at most another if its position is. -/
instance : LE Severity := ⟨fun s t => s.index ≤ t.index⟩

instance : LT Severity := ⟨fun s t => s.index < t.index⟩

instance (s t : Severity) : Decidable (s ≤ t) := inferInstanceAs (Decidable (s.index ≤ t.index))

instance (s t : Severity) : Decidable (s < t) := inferInstanceAs (Decidable (s.index < t.index))

/-- The more severe of two severities. -/
def max (s t : Severity) : Severity := if s ≤ t then t else s

/-- How two severities compare. -/
def compare (s t : Severity) : Ordering := Ord.compare s.index t.index

/-- The letter that starts the lines of a severity. -/
def letter : Severity → Char
  | .info => 'I'
  | .warning => 'W'
  | .error => 'E'
  | .fatal => 'F'

/-- The name of a severity. -/
def name : Severity → String
  | .info => "INFO"
  | .warning => "WARNING"
  | .error => "ERROR"
  | .fatal => "FATAL"

/-- The name of a severity in diagnostic texts. -/
def inspect : Severity → String
  | .info => "Info"
  | .warning => "Warning"
  | .error => "Error"
  | .fatal => "Fatal"

/-- The severities whose destinations receive a record, highest first. -/
def cascade (s : Severity) : List Severity := (List.range (s.index + 1)).reverse.filterMap ofIndex?

theorem ofIndex?_index (s : Severity) : ofIndex? s.index = some s := by cases s <;> rfl

theorem mem_cascade (s t : Severity) : t ∈ s.cascade ↔ t ≤ s := by
  cases s <;> cases t <;> decide

/-! ### Console colours -/

/-- The colours of the severity letters on a console. -/
inductive Colour where
  | green
  | yellow
  | red
  | brightRed
  deriving DecidableEq, Repr

/-- The code of a colour in a terminal's control sequences. -/
def Colour.code : Colour → String
  | .green => "32"
  | .yellow => "33"
  | .red => "31"
  | .brightRed => "91"

/-- The name of a colour. -/
def Colour.inspect : Colour → String
  | .green => "Green"
  | .yellow => "Yellow"
  | .red => "Red"
  | .brightRed => "BrightRed"

/-- The colour of a severity. -/
def colour : Severity → Colour
  | .info => .green
  | .warning => .yellow
  | .error => .red
  | .fatal => .brightRed

/-! ### Reading -/

/-- The upper case of a character as far as it is ASCII. Two letters beyond ASCII have an ASCII capital:
the dotless i and the long s. All other characters stay as they are: their upper case is beyond ASCII, or
it is one of the pairs SS, FF, FI, FL and ST, which no severity's name has. -/
def upperCase (c : Char) : Char :=
  if 'a' ≤ c ∧ c ≤ 'z' then Char.ofNat (c.toNat - 32)
  else if c = 'ı' then 'I'
  else if c = 'ſ' then 'S'
  else c

/-- The severity with a given name in capitals or a given digit. -/
def ofCapitals? (cs : List Char) : Option Severity :=
  all.find? fun s => cs == s.name.toList || cs == (toString s.index).toList

/-- Reads a severity; a failure carries the whole text. -/
def ofText (text : String) : Except LogError Severity :=
  match ofCapitals? ((Text.trimmed text.toList).map upperCase) with
  | some s => .ok s
  | none => .error (.invalidSeverity text)

end Severity

end Logline
