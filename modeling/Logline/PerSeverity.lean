import Logline.Severity
/-!
# One value for each severity

Destinations and counters come one for each severity.

Main statements: `get_set` and `get_modify`.
-/

namespace Logline

/-- One value for each severity. -/
structure PerSeverity (α : Type) where
  info : α
  warning : α
  error : α
  fatal : α
  deriving DecidableEq, Repr, Inhabited

namespace PerSeverity

variable {α : Type}

/-- The same value for every severity. -/
def const (a : α) : PerSeverity α := ⟨a, a, a, a⟩

/-- The value of a severity. -/
def get (p : PerSeverity α) : Severity → α
  | .info => p.info
  | .warning => p.warning
  | .error => p.error
  | .fatal => p.fatal

/-- Replaces the value of a severity. -/
def set (p : PerSeverity α) (s : Severity) (a : α) : PerSeverity α :=
  match s with
  | .info => { p with info := a }
  | .warning => { p with warning := a }
  | .error => { p with error := a }
  | .fatal => { p with fatal := a }

/-- Changes the value of a severity. -/
def modify (p : PerSeverity α) (s : Severity) (f : α → α) : PerSeverity α := p.set s (f (p.get s))

/-- The values in ascending order of severity. -/
def toList (p : PerSeverity α) : List α := Severity.all.map p.get

@[simp] theorem get_set (p : PerSeverity α) (s t : Severity) (a : α) :
    (p.set s a).get t = if s = t then a else p.get t := by
  cases s <;> cases t <;> rfl

@[simp] theorem get_modify (p : PerSeverity α) (s t : Severity) (f : α → α) :
    (p.modify s f).get t = if s = t then f (p.get t) else p.get t := by
  cases s <;> cases t <;> rfl

end PerSeverity

end Logline
