import Mathlib
import Logline.Proofs.PutOut

/-!
# Scoped settings

A program is made of commands, panics and scopes, which may be nested in any way. A scope puts the settings
back that it found, whether its body ends or panics, and a panic goes on outwards until it is caught.

Settings are all that a scope puts back. What commands did in the meantime stays: the statistics have
counted it, the pool has not lost a buffer or a count, and settings that were captured inside can still be
restored (`Program.counts_run`, `Program.advances_run`).

Main statement: `Program.scope_restored`, for each scope that a program opens at any depth.
-/

namespace Logline

/-! ### Programs -/

inductive Program where
  | skip
  | command (c : Command)
  | panic (p : Panic)
  | seq (first rest : Program)
  | scope (body : Program)
  /-- Catches a panic. -/
  | attempt (body : Program)

/-- A scope was opened. Its guard holds the settings, and they can be restored like any others. -/
def Session.opened (s : Session) : Session := { s with saved := s.saved ++ [s.engine.capture] }

namespace Program

/-- Carries out a program. What is not caught ends it, and nothing comes behind the end of the process. -/
def run (s : Session) : Program → Outcome Unit × Session
  | .skip => (.ok (), s)
  | .command c => s.perform c
  | .panic p => (.error (.panic p), s)
  | .seq first rest =>
    match first.run s with
    | (.ok (), s) => rest.run s
    | (.error i, s) => (.error i, s)
  | .scope body =>
    let ((outcome, saved), engine) := Engine.inScope (fun engine =>
      let (outcome, inside) := body.run { s.opened with engine }
      ((outcome, inside.saved), inside.engine)) s.engine
    (outcome, { engine, saved })
  | .attempt body =>
    match body.run s with
    | (.error (.panic _), s) => (.ok (), s)
    | (outcome, s) => (outcome, s)

/-- The lines of the commands that a program comes to. -/
def linesBy (of : Session → Command → List Line) (s : Session) : Program → List Line
  | .skip => []
  | .command c => of s c
  | .panic _ => []
  | .seq first rest =>
    linesBy of s first ++
      match first.run s with
      | (.ok (), s) => linesBy of s rest
      | (.error _, _) => []
  | .scope body => linesBy of s.opened body
  | .attempt body => linesBy of s body

/-- The lines that a program puts out. -/
def lines (s : Session) (p : Program) : List Line := linesBy Session.lines s p

/-- The lines of a program that can be written to their destinations. -/
def completed (s : Session) (p : Program) : List Line := linesBy Session.completed s p

/-- A sequence goes on where its first part ends, or ends with it. -/
theorem run_seq (s : Session) (first rest : Program) :
    (∃ s', first.run s = (.ok (), s') ∧ (seq first rest).run s = rest.run s' ∧
        ∀ of, linesBy of s (seq first rest) = linesBy of s first ++ linesBy of s' rest) ∨
      (seq first rest).run s = first.run s ∧ ∀ of, linesBy of s (seq first rest) = linesBy of s first := by
  simp only [run, linesBy]
  obtain ⟨outcome, s'⟩ := first.run s
  cases outcome with
  | ok => exact Or.inl ⟨s', rfl, rfl, fun _ => rfl⟩
  | error i => exact Or.inr ⟨rfl, fun _ => List.append_nil _⟩

theorem run_attempt (s : Session) (body : Program) : ((attempt body).run s).2 = (body.run s).2 := by
  rw [run]
  split
  · next heq => rw [heq]
  · next heq => rw [heq]

theorem run_scope (s : Session) (body : Program) :
    (scope body).run s = ((body.run s.opened).1,
      { (body.run s.opened).2 with engine := (body.run s.opened).2.engine.restore s.engine.settings }) :=
  rfl

end Program

/-- Whether a command may change settings. -/
def Command.changesSettings : Command → Bool
  | .operation .capture => false
  | .operation (.output _ _) => false
  | .operation _ => true
  | .setExitHook _ => true
  | .setContextKeys _ => true
  | .call _ _ _ => false

/-- Whether a program may change settings outside of its scopes. -/
def Program.changesSettings : Program → Bool
  | .skip => false
  | .command c => c.changesSettings
  | .panic _ => false
  | .seq first rest => first.changesSettings || rest.changesSettings
  | .scope _ => false
  | .attempt body => body.changesSettings

/-- A scope that is opened in a run: where it is opened, and its body. -/
inductive Program.Opens : Session → Program → Session → Program → Prop where
  | here (s : Session) (body : Program) : Opens s (.scope body) s body
  | inside {s t : Session} {outer body : Program} (h : Opens s.opened outer t body) :
    Opens s (.scope outer) t body
  | first {s t : Session} {first body : Program} (rest : Program) (h : Opens s first t body) :
    Opens s (.seq first rest) t body
  | rest {s s' t : Session} {first rest body : Program} (hfirst : first.run s = (.ok (), s'))
    (h : Opens s' rest t body) : Opens s (.seq first rest) t body
  | attempt {s t : Session} {outer body : Program} (h : Opens s outer t body) :
    Opens s (.attempt outer) t body

/-! ### Pools -/

namespace BufferPool

/-- All idle buffers are empty. -/
def Clean (pool : BufferPool) : Prop := ∀ b ∈ pool.idle, b.bytes = []

/-- A later state of a pool. -/
structure Grows (pool pool' : BufferPool) : Prop where
  allocated : pool.allocated ≤ pool'.allocated
  reused : pool.reused ≤ pool'.reused
  clean : pool.Clean → pool'.Clean

namespace Grows

variable {pool pool' pool'' : BufferPool}

theorem refl (pool : BufferPool) : pool.Grows pool := ⟨le_rfl, le_rfl, id⟩

theorem trans (h : pool.Grows pool') (h' : pool'.Grows pool'') : pool.Grows pool'' where
  allocated := h.allocated.trans h'.allocated
  reused := h.reused.trans h'.reused
  clean hclean := h'.clean (h.clean hclean)

end Grows

theorem Clean.bytes_acquire {pool : BufferPool} (h : pool.Clean) : pool.acquire.1.bytes = [] := by
  rw [acquire]
  split
  · next buffer rest heq => exact h buffer (heq ▸ List.mem_cons_self)
  · rfl

variable (pool : BufferPool)

theorem grows_acquire : pool.Grows pool.acquire.2 := by
  rw [acquire]
  split
  · next buffer rest heq =>
    refine ⟨le_rfl, Nat.le_succ _, fun h b hb => h b ?_⟩
    rw [heq]
    exact List.mem_cons_of_mem buffer hb
  · exact ⟨Nat.le_succ _, le_rfl, id⟩

theorem grows_release (buffer : Buffer) : pool.Grows (pool.release buffer) := by
  refine ⟨le_rfl, le_rfl, fun h b hb => ?_⟩
  rcases List.mem_append.mp hb with hold | hnew
  · exact h b hold
  · rw [List.mem_singleton.mp hnew]

theorem grows_iterate_cycle (n : Nat) : pool.Grows (cycle^[n] pool) := by
  induction n with
  | zero => exact .refl pool
  | succ n ih =>
    rw [Function.iterate_succ_apply']
    exact ih.trans ((grows_acquire _).trans (grows_release _ _))

end BufferPool

/-! ### Runs -/

namespace Session

/-- A later state of a session, whatever its settings are. -/
structure Advances (s s' : Session) : Prop where
  formatter : s'.engine.formatter = s.engine.formatter
  pid : s'.engine.pid = s.engine.pid
  pool : s.engine.pool.Grows s'.engine.pool
  saved : s.saved <+: s'.saved

namespace Advances

variable {s s' s'' : Session}

theorem refl (s : Session) : s.Advances s := ⟨rfl, rfl, .refl _, List.prefix_refl _⟩

theorem trans (h : s.Advances s') (h' : s'.Advances s'') : s.Advances s'' where
  formatter := h'.formatter.trans h.formatter
  pid := h'.pid.trans h.pid
  pool := h.pool.trans h'.pool
  saved := h.saved.trans h'.saved

theorem opened (s : Session) : s.Advances s.opened := ⟨rfl, rfl, .refl _, List.prefix_append _ _⟩

end Advances

variable (s : Session)

theorem advances_step (op : Operation) : s.Advances (s.step op).2 := by
  have hsaved : s.saved <+: (s.step op).2.saved := by
    cases op with
    | capture => exact List.prefix_append _ _
    | restore n =>
      rw [step]
      split <;> exact List.prefix_refl _
    | _ => exact List.prefix_refl _
  by_cases h : ∀ severity buffer, op ≠ .output severity buffer
  · have hframe := s.step_frame op h
    refine ⟨by rw [hframe], by rw [hframe], ?_, hsaved⟩
    rw [hframe]
    exact .refl _
  · push Not at h
    obtain ⟨severity, buffer, rfl⟩ := h
    have houtput := s.engine.putsOut_output severity buffer
    refine ⟨houtput.formatter, houtput.pid, ?_, hsaved⟩
    have hpool : (s.step (.output severity buffer)).2.engine.pool =
        s.engine.pool.release { buffer with bytes := [] } := s.engine.pool_output severity buffer
    rw [hpool]
    exact s.engine.pool.grows_release _

theorem advances_perform (c : Command) : s.Advances (s.perform c).2 := by
  cases c with
  | operation op => exact s.advances_step op
  | setExitHook hook => exact ⟨rfl, rfl, .refl _, List.prefix_refl _⟩
  | setContextKeys keys => exact ⟨rfl, rfl, .refl _, List.prefix_refl _⟩
  | call stamp stack c =>
    let before : Engine := { s.engine with stamp, stack }
    have hput := c.putsOut_run before
    obtain ⟨n, hpool⟩ := c.cycles_run before
    refine ⟨hput.formatter, hput.pid, ?_, List.prefix_refl _⟩
    have hgrows := s.engine.pool.grows_iterate_cycle n
    exact hpool ▸ hgrows

theorem settings_perform {c : Command} (h : c.changesSettings = false) :
    (s.perform c).2.engine.settings = s.engine.settings := by
  cases c with
  | operation op =>
    cases op with
    | capture => rfl
    | output severity buffer => exact (s.engine.output_spec severity buffer).1
    | _ => cases h
  | setExitHook hook => cases h
  | setContextKeys keys => cases h
  | call stamp stack c => exact (c.putsOut_run { s.engine with stamp, stack }).settings

end Session

namespace Program

theorem advances_run (p : Program) (s : Session) : s.Advances (p.run s).2 := by
  induction p generalizing s with
  | skip => exact .refl s
  | command c => exact s.advances_perform c
  | panic p => exact .refl s
  | seq first rest ihFirst ihRest =>
    have hfirst := ihFirst s
    rcases run_seq s first rest with ⟨s', heq, hrun, -⟩ | ⟨hrun, -⟩
    · rw [heq] at hfirst
      rw [hrun]
      exact hfirst.trans (ihRest s')
    · rwa [hrun]
  | scope body ih =>
    have hbody := (Session.Advances.opened s).trans (ih s.opened)
    exact ⟨hbody.formatter, hbody.pid, hbody.pool, hbody.saved⟩
  | attempt body ih =>
    rw [run_attempt]
    exact ih s

/-- The statistics count all lines of a program that can be written, those of its scopes included. -/
theorem counts_run (p : Program) (s : Session) :
    s.engine.Counts (p.completed s) (p.run s).2.engine := by
  induction p generalizing s with
  | skip => exact .refl _
  | command c => exact (s.perform_spec c).2
  | panic p => exact .refl _
  | seq first rest ihFirst ihRest =>
    have hfirst := ihFirst s
    rcases run_seq s first rest with ⟨s', heq, hrun, hlines⟩ | ⟨hrun, hlines⟩
    · rw [heq] at hfirst
      rw [hrun, completed, hlines]
      exact hfirst.trans (ihRest s')
    · rwa [hrun, completed, hlines]
  | scope body ih =>
    have hbody := ih s.opened
    exact ⟨hbody.lineCount, hbody.octetCount, hbody.failures⟩
  | attempt body ih =>
    rw [run_attempt]
    exact ih s

/-- If answers are harmless, all lines of a program can be written. -/
theorem completed_of_harmless (p : Program) {s : Session} (h : s.engine.outlets.Harmless) :
    p.completed s = p.lines s := by
  induction p generalizing s with
  | skip => rfl
  | command c => exact Engine.completed_of_harmless h (s.lines c)
  | panic p => rfl
  | seq first rest ihFirst ihRest =>
    have hlater := (first.counts_run s).harmless h
    rw [completed, lines]
    rcases run_seq s first rest with ⟨s', heq, -, hlines⟩ | ⟨-, hlines⟩
    · rw [heq] at hlater
      rw [hlines, hlines]
      exact congrArg₂ (· ++ ·) (ihFirst h) (ihRest hlater)
    · rw [hlines, hlines]
      exact ihFirst h
  | scope body ih =>
    have hopened : s.opened.engine.outlets.Harmless := h
    exact ih hopened
  | attempt body ih => exact ih h

/-- What is changed inside of scopes only is not changed. -/
theorem settings_run {p : Program} (h : p.changesSettings = false) (s : Session) :
    (p.run s).2.engine.settings = s.engine.settings := by
  induction p generalizing s with
  | skip => rfl
  | command c => exact s.settings_perform h
  | panic p => rfl
  | seq first rest ihFirst ihRest =>
    obtain ⟨hfirst, hrest⟩ := Bool.or_eq_false_iff.mp h
    have hkept := ihFirst hfirst s
    rcases run_seq s first rest with ⟨s', heq, hrun, -⟩ | ⟨hrun, -⟩
    · rw [heq] at hkept
      rw [hrun, ihRest hrest s', hkept]
    · rwa [hrun]
  | scope body ih => rfl
  | attempt body ih =>
    rw [run_attempt]
    exact ih h s

theorem Opens.advances {p body : Program} {s t : Session} (h : Opens s p t body) : s.Advances t := by
  induction h with
  | here s body => exact .refl s
  | inside h ih => exact (Session.Advances.opened _).trans ih
  | first rest h ih => exact ih
  | @rest s s' t first rest body hfirst h ih =>
    have hadvance := first.advances_run s
    rw [hfirst] at hadvance
    exact hadvance.trans ih
  | attempt h ih => exact ih

end Program

/-! ### Lines after a scope -/

namespace Engine

/-- Calls put the same lines out on both engines. -/
structure Alike (e e' : Engine) : Prop where
  settings : e'.settings = e.settings
  formatter : e'.formatter = e.formatter
  pid : e'.pid = e.pid
  stamp : e'.stamp = e.stamp
  stack : e'.stack = e.stack
  start : e'.acquire.1.bytes = e.acquire.1.bytes

namespace Alike

variable {e e' : Engine} (h : e.Alike e')

include h

theorem structuredLines (site : CallSite) (severity : Severity) (message : String)
    (lists : List (List Value)) :
    e'.structuredLines site severity message lists = e.structuredLines site severity message lists := by
  simp only [Engine.structuredLines, structured, headerOf, h.start, h.formatter, h.stamp, h.pid]

theorem printedLines (site : CallSite) (severity : Severity) (m : Message) :
    e'.printedLines site severity m = e.printedLines site severity m := by
  simp only [Engine.printedLines, headerOf, h.start, h.stamp, h.pid]

theorem emittedLines (s : Sink) (record : LogRecord) : e'.emittedLines s record = e.emittedLines s record := by
  have hdelivered : e'.deliveredLines = e.deliveredLines := by
    funext d
    cases d with
    | logged record values callDepth => simp only [deliveredLines, h.structuredLines, h.stack]
    | _ => rfl
  rw [Engine.emittedLines, hdelivered, Engine.emittedLines]

theorem lines (c : LogCall) : c.lines e' = c.lines e := by
  have hverbosity : ∀ level, e'.verbosityEnabled level = e.verbosityEnabled level := fun level => by
    rw [verbosityEnabled, h.settings, verbosityEnabled]
  cases c with
  | outputRaw severity bytes => simp only [LogCall.lines, h.start]
  | print site severity m => exact h.printedLines site severity m
  | printStructured site severity message lists => simp only [LogCall.lines, h.structuredLines]
  | printS site severity error message kvs => simp only [LogCall.lines, h.structuredLines]
  | errorS site error message kvs => cases error <;> simp only [LogCall.lines, h.structuredLines]
  | verbosePrint level site m => simp only [LogCall.lines, hverbosity, h.printedLines]
  | verbosePrintS level site message kvs => simp only [LogCall.lines, hverbosity, h.structuredLines]
  | emit s record => exact h.emittedLines s record
  | logger l c site =>
    have henabled : l.enabled e' c.severity = l.enabled e c.severity := by
      rw [Logger.enabled, h.settings, Logger.enabled]
    simp only [LogCall.lines, henabled, h.emittedLines]

end Alike

end Engine

namespace Program

/-- A scope ends the way its body does, and of the state it leaves behind only the settings are put back,
to what they were when it was opened. The statistics have counted what was put out inside, all of it if
answers are harmless, and pools and captured settings have not lost anything. As long as no settings are
changed again, each later call puts out the line it would have put out at the opening, to the destinations
of that moment, a fatal line ends in the exit hook of that moment, and contexts are looked up in its table
of keys. Changes that are refused change nothing, inside as everywhere. -/
theorem scope_restored {e : Engine} {saved : List Settings} {p body : Program} {s : Session}
    (h : p.Opens { engine := { e with pool := {} }, saved } s body) :
    let inside := body.run s.opened
    let after := (scope body).run s
    after = (inside.1, { inside.2 with engine := inside.2.engine.restore s.engine.settings }) ∧
      s.engine.Counts (body.completed s.opened) after.2.engine ∧
      (s.engine.outlets.Harmless → body.completed s.opened = body.lines s.opened) ∧ s.Advances after.2 ∧
      (∀ later : Program, later.changesSettings = false →
        let now := (later.run after.2).2.engine
        now.settings = s.engine.settings ∧
          (∀ buffer, now.output .fatal buffer = Engine.andThen (now.written .fatal buffer)
            fun written => written.finishFatal s.engine.settings.exitHook) ∧
          (∀ context, Logger.ofContext now context = Logger.ofContext s.engine context) ∧
          ∀ stamp stack c, Engine.PutsOut { now with stamp, stack }
            (LogCall.lines { s.engine with stamp, stack } c) (c.run { now with stamp, stack }).2) ∧
      ∀ t : Session,
        (∀ name value error, t.engine.applyFlag name value = .error error →
          t.perform (.operation (.applyFlag name value)) = (.ok (), t)) ∧
        ∀ name handle error, t.engine.setOutputBySeverity name handle = .error error →
          t.perform (.operation (.setOutputBySeverity name handle)) = (.ok (), t) := by
  intro inside after
  have hadvances : s.Advances after.2 := (scope body).advances_run s
  refine ⟨rfl, (scope body).counts_run s, fun hharmless => ?_, hadvances, fun later hlater => ?_,
    fun t => ⟨?_, ?_⟩⟩
  · have hopened : s.opened.engine.outlets.Harmless := hharmless
    exact body.completed_of_harmless hopened
  · intro now
    have hsettings : now.settings = s.engine.settings := settings_run hlater after.2
    have hnow : s.Advances (later.run after.2).2 := hadvances.trans (later.advances_run after.2)
    have hclean : s.engine.pool.Clean := h.advances.pool.clean (by rintro b ⟨⟩)
    refine ⟨hsettings, fun buffer => ?_, fun context => ?_, fun stamp stack c => ?_⟩
    · rw [Engine.output, hsettings]
      rfl
    · rw [Logger.ofContext, hsettings, Logger.ofContext]
    · -- buffers come out of a pool empty, so what was written inside does not show
      have hstart : now.acquire.1.bytes = s.engine.acquire.1.bytes :=
        (hnow.pool.clean hclean).bytes_acquire.trans hclean.bytes_acquire.symm
      have halike : Engine.Alike { s.engine with stamp, stack } { now with stamp, stack } :=
        ⟨hsettings, hnow.formatter, hnow.pid, rfl, rfl, hstart⟩
      rw [← halike.lines c]
      exact c.putsOut_run _
  · intro name value error hrefused
    simp only [Session.perform, Session.step, Session.orSame, hrefused]
    rfl
  · intro name handle error hrefused
    simp only [Session.perform, Session.step, Session.orSame, hrefused]
    rfl

/-- An inner scope that restores the settings of the outer one, logs, and panics. -/
def panicking : Program :=
  .seq (.command (.operation (.restore 0)))
    (.seq (.command (.call ⟨1, 1, 0, 0, 0, 0⟩ [] (.printS ⟨"a.rs", 7⟩ .warning none "m" [.text "k"])))
      (.panic (.message "p")))

def nested : Program :=
  .attempt (.scope (.seq (.command (.setExitHook (.custom none))) (.scope panicking)))

theorem scope_restored_nested :
    let e := Engine.initial {} ⟨1, 1, 0, 0, 0, 0⟩ 1
    let s : Session := { engine := e.setExitHook (.custom none), saved := [e.settings] }
    nested.Opens { engine := e } s panicking ∧
      ((scope panicking).run s).1 = .error (.panic (.message "p")) ∧
      ((scope panicking).run s).2.engine.settings = s.engine.settings ∧
      s.engine.Counts (panicking.lines s.opened) ((scope panicking).run s).2.engine ∧
      (panicking.lines s.opened).length = 1 := by
  intro e s
  have hopens : nested.Opens { engine := { e with pool := {} } } s panicking :=
    .attempt (.inside (.rest rfl (.here s panicking)))
  have hharmless : s.engine.outlets.Harmless := by decide
  obtain ⟨-, hcounts, hall, -, hlater, -⟩ := scope_restored hopens
  exact ⟨hopens, by rfl, (hlater .skip rfl).1, hall hharmless ▸ hcounts, by decide +kernel⟩

end Program

end Logline
