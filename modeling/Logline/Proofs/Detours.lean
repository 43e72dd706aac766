import Mathlib
import Logline.Proofs.Scopes

/-!
# Engines after a detour

A detour is a use of an engine that is not to show later: a buffer was taken and given back, and hooks were
run. Behind it the engine differs from what it would have been in its pool and in the record of hooks, and
in nothing else (`Engine.Astray`). Since buffers come out of the pool empty, and since nothing looks at the
record, every call goes the same way on both engines, and they differ no more after it than before.

Main statement: `Program.run_astray`, for programs of any calls and changes of settings.
-/

namespace Logline

/-! ### Pools -/

namespace BufferPool

/-- Two pools that serve the same calls, after the second one was put through `extra` cycles. -/
structure Ahead (extra : Nat) (pool pool' : BufferPool) : Prop where
  clean : pool.Clean
  clean' : pool'.Clean
  acquired : pool'.allocated + pool'.reused = pool.allocated + pool.reused + extra
  /-- From both pools as many buffers are out. -/
  out : pool'.idle.length + pool.allocated = pool.idle.length + pool'.allocated
  idle_le : pool.idle.length ≤ pool'.idle.length
  le_idle : pool'.idle.length ≤ pool.idle.length + extra

/-- A buffer is made if none is idle. -/
theorem counts_acquire (pool : BufferPool) :
    (pool.idle.length = 0 ∧ pool.acquire.2.idle.length = 0 ∧
        pool.acquire.2.allocated = pool.allocated + 1 ∧ pool.acquire.2.reused = pool.reused) ∨
      (pool.idle.length = pool.acquire.2.idle.length + 1 ∧
        pool.acquire.2.allocated = pool.allocated ∧ pool.acquire.2.reused = pool.reused + 1) := by
  rw [acquire]
  cases hidle : pool.idle with
  | nil => exact .inl ⟨rfl, by simp, rfl, rfl⟩
  | cons b rest => exact .inr ⟨rfl, rfl, rfl⟩

theorem length_idle_release (pool : BufferPool) (b : Buffer) :
    (pool.release b).idle.length = pool.idle.length + 1 := by
  rw [release, List.length_append, List.length_singleton]

theorem length_idle_cycle (pool : BufferPool) : pool.cycle.idle.length = max 1 pool.idle.length := by
  rw [cycle, length_idle_release]
  rcases pool.counts_acquire with ⟨h, h', -⟩ | ⟨h, -⟩ <;> omega

variable {extra : Nat} {pool pool' : BufferPool}

theorem Ahead.refl (h : pool.Clean) : pool.Ahead 0 pool := ⟨h, h, rfl, rfl, le_rfl, le_rfl⟩

/-- Where both pools have a buffer it is used; where only the second one has one, the first one makes one. -/
theorem Ahead.acquire (h : pool.Ahead extra pool') : pool.acquire.2.Ahead extra pool'.acquire.2 := by
  obtain ⟨hclean, hclean', hacquired, hout, hle, hge⟩ := h
  have hcounts := pool.counts_acquire
  have hcounts' := pool'.counts_acquire
  refine ⟨pool.grows_acquire.clean hclean, pool'.grows_acquire.clean hclean', ?_, ?_, ?_, ?_⟩ <;> omega

theorem Ahead.release (h : pool.Ahead extra pool') (b b' : Buffer) :
    (pool.release b).Ahead extra (pool'.release b') := by
  obtain ⟨hclean, hclean', hacquired, hout, hle, hge⟩ := h
  have hlength := pool.length_idle_release b
  have hlength' := pool'.length_idle_release b'
  refine ⟨(pool.grows_release b).clean hclean, (pool'.grows_release b').clean hclean', hacquired, ?_, ?_, ?_⟩
  · show (pool'.release b').idle.length + pool.allocated = (pool.release b).idle.length + pool'.allocated
    omega
  · omega
  · omega

theorem ahead_cycle (h : pool.Clean) : pool.Ahead 1 pool.cycle := by
  have hcounts := pool.counts_acquire
  have hlength := pool.length_idle_cycle
  have hallocated : pool.cycle.allocated = pool.acquire.2.allocated := rfl
  have hreused : pool.cycle.reused = pool.acquire.2.reused := rfl
  refine ⟨h, (pool.grows_iterate_cycle 1).clean h, ?_, ?_, ?_, ?_⟩ <;> omega

end BufferPool

/-! ### Engines -/

/-- What the second of two engines has been through and the first has not. -/
structure Detour where
  /-- The cycles of the pool. -/
  cycles : Nat
  /-- The hooks that were noted before. -/
  before : List HookCall
  /-- The hooks that were run. -/
  hooks : List HookCall

namespace Engine

/-- The engine with another pool and other hooks noted. -/
def swap (e : Engine) (pool : BufferPool) (calls : List HookCall) : Engine := { e with pool, calls }

/-- The second engine has been on a detour. What is different is that its pool was put through cycles, and
that it has noted the hooks of the detour; all other hooks are noted by both. -/
structure Astray (d : Detour) (e e' : Engine) : Prop where
  rest : e' = e.swap e'.pool e'.calls
  pool : e.pool.Ahead d.cycles e'.pool
  calls : ∃ since, e.calls = d.before ++ since ∧ e'.calls = d.before ++ d.hooks ++ since

/-- What two engines come to in the same call: outcomes that are equal, and they differ no more than
before. -/
def Agree (d : Detour) (r r' : Outcome Unit × Engine) : Prop := r'.1 = r.1 ∧ r.2.Astray d r'.2

section swap

variable (e : Engine) (pool : BufferPool) (calls : List HookCall)

/-- If two steps come to the same on both engines, so do they in turn. -/
theorem andThen_swap {r r' : Outcome Unit × Engine} (hr : r' = (r.1, r.2.swap pool calls))
    {next : Engine → Outcome Unit × Engine}
    (hnext : ∀ e : Engine, next (e.swap pool calls) = ((next e).1, (next e).2.swap pool calls)) :
    andThen r' next = ((andThen r next).1, (andThen r next).2.swap pool calls) := by
  obtain ⟨outcome, after⟩ := r
  rw [hr]
  cases outcome with
  | ok => exact hnext after
  | error i => rfl

theorem writeTo_swap (bytes : Bytes) (report : Bool) (h : Handle) :
    (e.swap pool calls).writeTo bytes report h =
      ((e.writeTo bytes report h).1, (e.writeTo bytes report h).2.swap pool calls) := by
  have houtlets : (e.swap pool calls).outlets = e.outlets := rfl
  have hstats : (e.swap pool calls).stats = e.stats := rfl
  simp only [writeTo, houtlets, hstats]
  split
  · rfl
  · rfl
  · split <;> rfl

theorem writeAll_swap (bytes : Bytes) (writes : List (Handle × Bool)) :
    (e.swap pool calls).writeAll bytes writes =
      ((e.writeAll bytes writes).1, (e.writeAll bytes writes).2.swap pool calls) := by
  induction writes generalizing e with
  | nil => rfl
  | cons w rest ih => exact andThen_swap pool calls (e.writeTo_swap pool calls bytes w.2 w.1) ih

theorem flushAll_swap (result : Except LogError Unit) (handles : List Handle) :
    (e.swap pool calls).flushAll result handles =
      ((e.flushAll result handles).1, (e.flushAll result handles).2.swap pool calls) := by
  induction handles generalizing e result with
  | nil => rfl
  | cons h rest ih =>
    rw [flushAll_cons, flushAll_cons]
    have hsame : (e.swap pool calls).outlets = e.outlets := rfl
    rw [hsame]
    cases firstError result (e.outlets.flush h).1 with
    | ok result => exact ih { e with outlets := (e.outlets.flush h).2 } result
    | error p => rfl

theorem reportFlush_swap (error : LogError) :
    (e.swap pool calls).reportFlush error =
      ((e.reportFlush error).1, (e.reportFlush error).2.swap pool calls) := by
  have hreport : (e.swap pool calls).report (flushReport error) =
      ((e.report (flushReport error)).1, (e.report (flushReport error)).2.swap pool calls) := rfl
  refine andThen_swap pool calls hreport fun e => ?_
  cases error.ending.inText <;> rfl

theorem runExitHook_swap (hook : ExitHook) :
    (e.swap pool calls).runExitHook hook =
      ((e.runExitHook hook).1, (e.runExitHook hook).2.swap pool calls) := by
  match hook with
  | .endsProcess => rfl
  | .custom none => rfl
  | .custom (some p) => rfl

theorem finishFatal_swap (hook : ExitHook) :
    (e.swap pool calls).finishFatal hook =
      ((e.finishFatal hook).1, (e.finishFatal hook).2.swap pool calls) := by
  have hflush := e.flushAll_swap pool calls (.ok ()) e.settings.handles
  have hflush' : (e.swap pool calls).flush = (e.flush.1, e.flush.2.swap pool calls) := hflush
  rw [finishFatal, hflush', finishFatal]
  rcases e.flush with ⟨⟨i⟩ | ⟨error⟩ | ⟨⟩, flushed⟩
  · rfl
  · exact andThen_swap pool calls (flushed.reportFlush_swap pool calls error)
      fun e => e.runExitHook_swap pool calls hook
  · exact runExitHook_swap flushed pool calls hook

/-- A line may be put out of another buffer, if the same is written in it. -/
theorem output_swap (severity : Severity) {b b' : Buffer} (hbytes : b'.bytes = b.bytes) :
    (e.swap pool calls).output severity b' =
      ((e.output severity b).1, (e.output severity b).2.swap (pool.release b') calls) := by
  have hwritten : (e.swap pool calls).written severity b' =
      ((e.written severity b).1, (e.written severity b).2.swap (pool.release b') calls) := by
    have hwrites := e.writeAll_swap pool calls b.bytes (e.settings.writes severity)
    have hsettings : (e.swap pool calls).settings = e.settings := rfl
    rw [written, written, hbytes, hsettings, hwrites]
    rcases e.writeAll b.bytes (e.settings.writes severity) with ⟨_ | ⟨⟩, after⟩ <;> rfl
  refine andThen_swap (pool.release b') calls hwritten fun after => ?_
  by_cases h : severity = .fatal
  · rw [if_pos h, if_pos h]
    exact after.finishFatal_swap (pool.release b') calls e.settings.exitHook
  · rw [if_neg h, if_neg h]

end swap

namespace Astray

variable {d : Detour} {e e' : Engine} (h : e.Astray d e')

include h

/-- What is done to neither the pool nor the record of hooks is done to both engines alike. -/
theorem change {f : Engine → Engine}
    (hf : ∀ (e : Engine) pool calls, f (e.swap pool calls) = (f e).swap pool calls)
    (hpool : (f e).pool = e.pool) (hcalls : (f e).calls = e.calls) : (f e).Astray d (f e') := by
  have heq : f e' = (f e).swap e'.pool e'.calls := (congrArg f h.rest).trans (hf e e'.pool e'.calls)
  rw [heq]
  exact ⟨rfl, hpool ▸ h.pool, hcalls ▸ h.calls⟩

theorem settings : e'.settings = e.settings := by rw [h.rest, swap]

theorem stack : e'.stack = e.stack := by rw [h.rest, swap]

theorem formatter : e'.formatter = e.formatter := by rw [h.rest, swap]

theorem headerOf (severity : Severity) (site : CallSite) :
    e'.headerOf severity site = e.headerOf severity site := by
  rw [h.rest]
  rfl

theorem bytes_acquire : e'.acquire.1.bytes = e.acquire.1.bytes :=
  h.pool.clean'.bytes_acquire.trans h.pool.clean.bytes_acquire.symm

theorem acquire : e.acquire.2.Astray d e'.acquire.2 := by
  refine ⟨?_, h.pool.acquire, h.calls⟩
  have hrest := h.rest
  rw [Engine.acquire, hrest]
  rfl

theorem release (b b' : Buffer) :
    Astray d { e with pool := e.pool.release b } { e' with pool := e'.pool.release b' } := by
  refine ⟨?_, h.pool.release b b', h.calls⟩
  have hrest := h.rest
  rw [hrest]
  rfl

theorem absorb {α : Type} (t : Traced α) : (e.absorb t).2.Astray d (e'.absorb t).2 := by
  obtain ⟨since, hcalls, hcalls'⟩ := h.calls
  refine ⟨?_, h.pool, since ++ t.calls, ?_, ?_⟩
  · rw [Engine.absorb, h.rest]
    rfl
  · show e.calls ++ t.calls = _
    rw [hcalls, List.append_assoc]
  · show e'.calls ++ t.calls = _
    rw [hcalls', List.append_assoc]

theorem output (severity : Severity) {b b' : Buffer} (hbytes : b'.bytes = b.bytes) :
    Agree d (e.output severity b) (e'.output severity b') := by
  have heq := e.output_swap e'.pool e'.calls severity hbytes
  rw [← h.rest] at heq
  obtain ⟨outcome, outlets, stats, exits, hframe⟩ := e.output_frame severity b
  rw [heq, hframe]
  exact ⟨rfl, rfl, h.pool.release b b', h.calls⟩

/-! ### Log calls -/

theorem outputRaw (severity : Severity) (bytes : Bytes) :
    Agree d (e.outputRaw severity bytes) (e'.outputRaw severity bytes) :=
  h.acquire.output severity (congrArg (· ++ bytes) h.bytes_acquire)

theorem print (site : CallSite) (severity : Severity) (m : Message) :
    Agree d (e.print site severity m) (e'.print site severity m) := by
  have hstart : e'.acquire.1.bytes ++ e'.acquire.2.headerOf severity site =
      e.acquire.1.bytes ++ e.acquire.2.headerOf severity site := by
    rw [h.bytes_acquire, h.acquire.headerOf]
  let written := m.write (e.acquire.1.bytes ++ e.acquire.2.headerOf severity site)
  have hwritten := h.acquire.absorb written
  rw [Engine.print, Engine.print]
  simp only [hstart]
  simp only [Engine.absorb] at hwritten ⊢
  rcases hvalue : written.value with ⟨bytes, p | ⟨⟩⟩
  · exact ⟨rfl, hwritten.release _ _⟩
  · exact hwritten.output severity rfl

theorem printStructured (site : CallSite) (severity : Severity) (message : String)
    (lists : List (List Value)) :
    Agree d (e.printStructured site severity message lists)
      (e'.printStructured site severity message lists) := by
  have hstart : e'.acquire.1.bytes ++ e'.acquire.2.headerOf severity site =
      e.acquire.1.bytes ++ e.acquire.2.headerOf severity site := by
    rw [h.bytes_acquire, h.acquire.headerOf]
  let written := e.acquire.2.formatter.guardHooks (e.acquire.2.formatter.writeStructured
    (e.acquire.1.bytes ++ e.acquire.2.headerOf severity site) message lists)
  have hwritten := h.acquire.absorb written
  rw [Engine.printStructured, Engine.printStructured]
  simp only [hstart, h.acquire.formatter]
  simp only [Engine.absorb] at hwritten ⊢
  cases hvalue : written.value with
  | error p => exact ⟨rfl, hwritten.release _ _⟩
  | ok bytes => exact hwritten.output severity rfl

theorem deliver (delivery : Delivery) : Agree d (e.deliver delivery) (e'.deliver delivery) := by
  cases delivery with
  | logged record values callDepth =>
    have heq : e'.deliver (.logged record values callDepth) = e'.printStructured
        (record.site.attributed callDepth e.stack) record.severity record.message [values, record.kvs] := by
      rw [Engine.deliver, h.stack]
    rw [heq]
    exact h.printStructured _ _ _ _
  | recorded recorder entry =>
    exact ⟨rfl, h.change (f := fun e => e.modifyRecorder recorder _) (fun _ _ _ => rfl) rfl rfl⟩
  | emitted name record values =>
    exact ⟨rfl, (h.absorb (basicText record values)).change
      (f := fun e => { e with outlets := e.outlets.note _ }) (fun _ _ _ => rfl) rfl rfl⟩
  | helperMarked recorder =>
    exact ⟨rfl, h.change (f := fun e => e.modifyRecorder recorder _) (fun _ _ _ => rfl) rfl rfl⟩

theorem deliverAll (deliveries : List Delivery) :
    Agree d (e.deliverAll deliveries) (e'.deliverAll deliveries) := by
  induction deliveries generalizing e e' with
  | nil => exact ⟨rfl, h⟩
  | cons delivery rest ih =>
    obtain ⟨hsame, hnext⟩ := h.deliver delivery
    rw [Engine.deliverAll, Engine.deliverAll]
    rcases hfirst : e.deliver delivery with ⟨outcome, after⟩
    rcases hfirst' : e'.deliver delivery with ⟨outcome', after'⟩
    rw [hfirst, hfirst'] at hsame hnext
    obtain rfl : outcome' = outcome := hsame
    cases outcome' with
    | ok => exact ih hnext
    | error i => exact ⟨rfl, hnext⟩

theorem emit (s : Sink) (record : LogRecord) : Agree d (e.emit s record) (e'.emit s record) :=
  h.deliverAll (s.emit record)

theorem runLogger (c : LoggerCall) (l : Logger) (site : CallSite) :
    Agree d (c.run l e site) (c.run l e' site) := by
  have henabled : l.enabled e' c.severity = l.enabled e c.severity := by
    rw [Logger.enabled, h.settings, Logger.enabled]
  rw [LoggerCall.run_eq, LoggerCall.run_eq, henabled]
  split
  · have hasked := h.absorb c.request
    cases c.request.value with
    | error p => exact ⟨rfl, hasked⟩
    | ok request => exact hasked.emit l.sink _
  · exact ⟨rfl, h⟩

theorem run (c : LogCall) : Agree d (c.run e) (c.run e') := by
  have hverbosity : ∀ level, e'.verbosityEnabled level = e.verbosityEnabled level := fun level => by
    rw [verbosityEnabled, h.settings, verbosityEnabled]
  cases c with
  | outputRaw severity bytes => exact h.outputRaw severity bytes
  | print site severity m => exact h.print site severity m
  | printStructured site severity message lists => exact h.printStructured site severity message lists
  | printS site severity error message kvs => exact h.printStructured site severity message _
  | errorS site error message kvs =>
    have hconverted := h.absorb (Traced.call .conversion)
    cases error with
    | error p => exact ⟨rfl, hconverted⟩
    | ok v => exact hconverted.printStructured site .error message _
  | verbosePrint level site m =>
    rw [LogCall.run, LogCall.run, verbosePrint, verbosePrint, hverbosity]
    split
    · exact h.print site .info m
    · exact ⟨rfl, h⟩
  | verbosePrintS level site message kvs =>
    rw [LogCall.run, LogCall.run, verbosePrintS, verbosePrintS, hverbosity]
    split
    · exact h.printStructured site .info message [kvs]
    · exact ⟨rfl, h⟩
  | emit s record => exact h.emit s record
  | logger l c site => exact h.runLogger c l site

end Astray

end Engine

/-! ### Sessions -/

namespace Session

/-- The engine of the second session has been on a detour. -/
structure Astray (d : Detour) (s s' : Session) : Prop where
  engine : s.engine.Astray d s'.engine
  saved : s'.saved = s.saved

/-- What two sessions come to in the same step. -/
def Agree (d : Detour) (r r' : Outcome Unit × Session) : Prop := r'.1 = r.1 ∧ r.2.Astray d r'.2

/-- What puts no line out returns. -/
theorem fst_step (s : Session) {op : Operation} (h : ∀ severity buffer, op ≠ .output severity buffer) :
    (s.step op).1 = .ok () := by
  cases op with
  | restore n =>
    rw [step]
    split <;> rfl
  | output severity buffer => exact (h severity buffer rfl).elim
  | _ => rfl

namespace Astray

variable {d : Detour} {s s' : Session} (h : s.Astray d s')

include h

theorem opened : s.opened.Astray d s'.opened :=
  ⟨h.engine, by rw [Session.opened, h.saved, Engine.capture, h.engine.settings]; rfl⟩

theorem restored (settings : Settings) :
    Astray d { s with engine := s.engine.restore settings }
      { s' with engine := s'.engine.restore settings } :=
  ⟨h.engine.change (f := fun e => e.restore settings) (fun _ _ _ => rfl) rfl rfl, h.saved⟩

theorem policy : s'.policy = s.policy := by
  rw [Session.policy, Session.policy, h.engine.settings, h.saved]

/-- Changes of settings depend on settings only, and so does it whether they are refused. -/
theorem step (op : Operation) : Agree d (s.step op) (s'.step op) := by
  by_cases hline : ∀ severity buffer, op ≠ .output severity buffer
  · have hpolicy : (s'.step op).2.policy = (s.step op).2.policy := by
      rw [policy_step, policy_step, h.policy]
    obtain ⟨hsettings, hsaved⟩ := Policy.mk.inj hpolicy
    refine ⟨?_, ?_, hsaved⟩
    · rw [s.fst_step hline, s'.fst_step hline]
    · have hframe := s.step_frame op hline
      have hframe' := s'.step_frame op hline
      rw [hsettings] at hframe'
      rw [hframe, hframe']
      exact (h.restored (s.step op).2.engine.settings).engine
  · push Not at hline
    obtain ⟨severity, buffer, rfl⟩ := hline
    obtain ⟨hsame, hafter⟩ := h.engine.output severity (b := buffer) rfl
    exact ⟨hsame, hafter, h.saved⟩

theorem perform (c : Command) : Agree d (s.perform c) (s'.perform c) := by
  cases c with
  | operation op => exact h.step op
  | setExitHook hook =>
    exact ⟨rfl, h.engine.change (f := fun e => e.setExitHook hook) (fun _ _ _ => rfl) rfl rfl, h.saved⟩
  | setContextKeys keys =>
    exact ⟨rfl, h.engine.change (f := fun e => e.setContextKeys keys) (fun _ _ _ => rfl) rfl rfl, h.saved⟩
  | call stamp stack c =>
    have hnow := h.engine.change (f := fun e => { e with stamp, stack }) (fun _ _ _ => rfl) rfl rfl
    obtain ⟨hsame, hafter⟩ := hnow.run c
    exact ⟨hsame, hafter, h.saved⟩

end Astray

end Session

/-- A program goes the same way on both engines. -/
theorem Program.run_astray (p : Program) {d : Detour} {s s' : Session} (h : s.Astray d s') :
    Session.Agree d (p.run s) (p.run s') := by
  induction p generalizing s s' with
  | skip => exact ⟨rfl, h⟩
  | command c => exact h.perform c
  | panic p => exact ⟨rfl, h⟩
  | seq first rest ihFirst ihRest =>
    obtain ⟨hsame, hnext⟩ := ihFirst h
    rw [run, run]
    rcases hfirst : first.run s with ⟨outcome, after⟩
    rcases hfirst' : first.run s' with ⟨outcome', after'⟩
    rw [hfirst, hfirst'] at hsame hnext
    obtain rfl : outcome' = outcome := hsame
    cases outcome' with
    | ok => exact ihRest hnext
    | error i => exact ⟨rfl, hnext⟩
  | scope body ih =>
    obtain ⟨hsame, hnext⟩ := ih h.opened
    rw [run_scope, run_scope, h.engine.settings]
    exact ⟨hsame, hnext.restored s.engine.settings⟩
  | attempt body ih =>
    obtain ⟨hsame, hnext⟩ := ih h
    rw [run, run]
    rcases hbody : body.run s with ⟨outcome, after⟩
    rcases hbody' : body.run s' with ⟨outcome', after'⟩
    rw [hbody, hbody'] at hsame hnext
    obtain rfl : outcome' = outcome := hsame
    rcases outcome' with ⟨⟨p⟩ | ⟨code⟩⟩ | ⟨⟩ <;> exact ⟨rfl, hnext⟩

end Logline
