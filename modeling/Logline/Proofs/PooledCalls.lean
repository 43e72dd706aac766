import Mathlib
import Logline.Proofs.BufferDiscipline
import Logline.Proofs.Gating

/-!
# Buffers of log calls

A log call that puts a line together takes a buffer out of the pool and gives it back, also when a message
cannot be written or the call is left by a panic after its line: for the pool every call is a number of
such cycles (`LogCall.cycles_run`). A new pool makes one buffer in its first cycle and uses it in all
others (`BufferPool.iterate_cycle`).

Main statement: `Engine.pool_discipline`, the discipline of a pool under any operations together with what
it comes to for log calls.
-/

namespace Logline

/-! ### Cycles of a pool -/

namespace BufferPool

/-- A buffer is taken and given back. -/
def cycle (pool : BufferPool) : BufferPool := pool.acquire.2.release pool.acquire.1

theorem iterate_cycle (n : Nat) :
    cycle^[n + 1] {} = { idle := [⟨0, []⟩], allocated := 1, reused := n, nextId := 1 } := by
  induction n with
  | zero => rfl
  | succ n ih =>
    rw [Function.iterate_succ_apply', ih]
    rfl

end BufferPool

namespace Engine

/-- The pool went through cycles and nothing else. -/
def Cycles (e e' : Engine) : Prop := ∃ n, e'.pool = BufferPool.cycle^[n] e.pool

theorem Cycles.refl (e : Engine) : e.Cycles e := ⟨0, rfl⟩

theorem Cycles.trans {e e' e'' : Engine} (h : e.Cycles e') (h' : e'.Cycles e'') : e.Cycles e'' := by
  obtain ⟨m, hm⟩ := h
  obtain ⟨n, hn⟩ := h'
  exact ⟨n + m, by rw [hn, hm, Function.iterate_add_apply]⟩

/-! ### Calls that put a line together -/

variable (e : Engine)

/-- What was written into the buffer makes no difference, since it is emptied. -/
theorem pool_output (severity : Severity) (buffer : Buffer) :
    (e.output severity buffer).2.pool = e.pool.release { buffer with bytes := [] } := by
  obtain ⟨outcome, outlets, stats, exits, heq⟩ := e.output_frame severity buffer
  rw [heq]
  rfl

theorem cycles_outputRaw (severity : Severity) (bytes : Bytes) :
    e.Cycles (e.outputRaw severity bytes).2 :=
  ⟨1, pool_output _ severity _⟩

theorem cycles_print (site : CallSite) (severity : Severity) (m : Message) :
    e.Cycles (e.print site severity m).2 := by
  refine ⟨1, ?_⟩
  rcases hwritten : (m.write (e.acquire.1.bytes ++ e.acquire.2.headerOf severity site)).value with
    ⟨bytes, p | ⟨⟩⟩
  · simp only [print, absorb, hwritten]
    rfl
  · simp only [print, absorb, hwritten]
    exact pool_output _ severity _

theorem cycles_printStructured (site : CallSite) (severity : Severity) (message : String)
    (lists : List (List Value)) : e.Cycles (e.printStructured site severity message lists).2 := by
  refine ⟨1, ?_⟩
  rcases e.printStructured_cases site severity message lists with ⟨-, heq⟩ | ⟨_, _, _, -, heq⟩
  · rw [heq]
    exact pool_output _ severity _
  · rw [heq]
    rfl

theorem cycles_deliver (d : Delivery) : e.Cycles (e.deliver d).2 := by
  cases d with
  | logged record values callDepth => exact e.cycles_printStructured _ _ _ _
  | recorded recorder entry => exact ⟨0, rfl⟩
  | emitted name record values => exact ⟨0, rfl⟩
  | helperMarked recorder => exact ⟨0, rfl⟩

theorem cycles_deliverAll (ds : List Delivery) : e.Cycles (e.deliverAll ds).2 := by
  induction ds generalizing e with
  | nil => exact Cycles.refl e
  | cons d ds ih =>
    have hfirst := e.cycles_deliver d
    rw [deliverAll]
    split
    · next e' heq =>
      rw [heq] at hfirst
      exact hfirst.trans (ih e')
    · next i e' heq =>
      rw [heq] at hfirst
      exact hfirst

end Engine

theorem LoggerCall.cycles_run (c : LoggerCall) (l : Logger) (e : Engine) (site : CallSite) :
    e.Cycles (c.run l e site).2 := by
  rw [run_eq]
  split
  · cases c.request.value with
    | ok request => exact (Engine.cycles_deliverAll (e.absorb c.request).2 _)
    | error p => exact ⟨0, rfl⟩
  · exact Engine.Cycles.refl e

/-! ### Runs of calls -/

/-- A log call of any kind, through the engine, a sink or a logger. -/
inductive LogCall where
  | outputRaw (severity : Severity) (bytes : Bytes)
  | print (site : CallSite) (severity : Severity) (m : Message)
  | printStructured (site : CallSite) (severity : Severity) (message : String) (lists : List (List Value))
  | printS (site : CallSite) (severity : Severity) (error : Option Value) (message : String)
    (kvs : List Value)
  /-- `error` is what the conversion of the error comes to. -/
  | errorS (site : CallSite) (error : Except Panic Value) (message : String) (kvs : List Value)
  | verbosePrint (level : UInt32) (site : CallSite) (m : Message)
  | verbosePrintS (level : UInt32) (site : CallSite) (message : String) (kvs : List Value)
  | emit (s : Sink) (record : LogRecord)
  | logger (l : Logger) (c : LoggerCall) (site : CallSite)

/-- Carries out a call. -/
def LogCall.run (e : Engine) : LogCall → Outcome Unit × Engine
  | .outputRaw severity bytes => e.outputRaw severity bytes
  | .print site severity m => e.print site severity m
  | .printStructured site severity message lists => e.printStructured site severity message lists
  | .printS site severity error message kvs => e.printS site severity error message kvs
  | .errorS site error message kvs => e.errorS site error message kvs
  | .verbosePrint level site m => e.verbosePrint level site m
  | .verbosePrintS level site message kvs => e.verbosePrintS level site message kvs
  | .emit s record => e.emit s record
  | .logger l c site => c.run l e site

theorem LogCall.cycles_run (c : LogCall) (e : Engine) : e.Cycles (c.run e).2 := by
  cases c with
  | outputRaw severity bytes => exact e.cycles_outputRaw severity bytes
  | print site severity m => exact e.cycles_print site severity m
  | printStructured site severity message lists => exact e.cycles_printStructured site severity message lists
  | printS site severity error message kvs => exact e.cycles_printStructured site severity message _
  | errorS site error message kvs =>
    cases error with
    | error p => exact ⟨0, rfl⟩
    | ok v => exact Engine.cycles_printStructured (e.absorb (Traced.call .conversion)).2 site .error message _
  | verbosePrint level site m =>
    rw [run, Engine.verbosePrint]
    split
    · exact e.cycles_print site .info m
    · exact Engine.Cycles.refl e
  | verbosePrintS level site message kvs =>
    rw [run, Engine.verbosePrintS]
    split
    · exact e.cycles_printStructured site .info message [kvs]
    · exact Engine.Cycles.refl e
  | emit s record => exact e.cycles_deliverAll _
  | logger l c site => exact c.cycles_run l e site

/-- What may be another between two calls: the settings, the destinations with all that they keep, the
time, and the stack. -/
structure Moment where
  settings : Settings
  outlets : Outlets
  stamp : Stamp
  stack : CallStack

namespace Engine

/-- The engine at another moment. -/
def atMoment (e : Engine) (m : Moment) : Engine :=
  { e with settings := m.settings, outlets := m.outlets, stamp := m.stamp, stack := m.stack }

/-- Carries out calls in turn, each at its moment, up to the end of the process. A panic that leaves a
call is not the end. -/
def runCalls (e : Engine) : List (Moment × LogCall) → Engine
  | [] => e
  | (m, c) :: rest =>
    match c.run (e.atMoment m) with
    | (.error (.exit _), e) => e
    | (_, e) => e.runCalls rest

theorem cycles_runCalls (e : Engine) (calls : List (Moment × LogCall)) : e.Cycles (e.runCalls calls) := by
  induction calls generalizing e with
  | nil => exact Cycles.refl e
  | cons call rest ih =>
    obtain ⟨m, c⟩ := call
    have hfirst : e.Cycles (c.run (e.atMoment m)).2 := c.cycles_run (e.atMoment m)
    rw [runCalls]
    split
    · next code e' heq =>
      rw [heq] at hfirst
      exact hfirst
    · next outcome e' hreturns heq =>
      rw [heq] at hfirst
      exact hfirst.trans (ih e')

/-- After any operations at a new desk the next buffer that is taken is empty, no two of the idle, the held
and the detached buffers are one, and the counters of the pool are right. With a new pool any log calls,
whether they return or panic, come to one buffer at most, and it is idle after each of them. -/
theorem pool_discipline (ops : List BufferDesk.Operation) (e : Engine) (calls : List (Moment × LogCall)) :
    let desk := BufferDesk.run {} ops
    let pool := ({ e with pool := {} }.runCalls calls).pool
    (desk.pool.acquire.1.bytes = [] ∧
        ∀ name, (desk.acquire name).find? name = some desk.pool.acquire.1) ∧
      (desk.pool.idle.map Buffer.id ++ desk.held.map (·.2.id) ++ desk.detached.map (·.2.id)).Nodup ∧
      BufferDesk.acquired ops = desk.pool.allocated + desk.pool.reused ∧
      desk.pool.idle.length + desk.pool.reused = BufferDesk.returned {} ops ∧
      desk.pool.allocated + BufferDesk.brought ops =
        desk.pool.idle.length + desk.held.length + desk.detached.length ∧
      pool.allocated ≤ 1 ∧ pool.idle.length = pool.allocated := by
  intro desk pool
  have hdesk := BufferDesk.balanced_run ops
  obtain ⟨hexclusive, -, hconserved⟩ := hdesk.placed
  have hpool : pool.allocated ≤ 1 ∧ pool.idle.length = pool.allocated := by
    obtain ⟨n, hn⟩ := cycles_runCalls { e with pool := {} } calls
    cases n with
    | zero => rw [show pool = {} from hn]; decide
    | succ n => rw [show pool = _ from hn.trans (BufferPool.iterate_cycle n)]; exact ⟨le_rfl, rfl⟩
  refine ⟨⟨hdesk.bytes_acquire, desk.find?_acquire⟩, ?_, hdesk.acquired_eq, hdesk.idle_eq, ?_, hpool⟩
  · rwa [BufferDesk.ids, List.map_nil, List.append_nil] at hexclusive
  · simpa [BufferDesk.ids, Nat.add_assoc] using hconserved

end Engine

end Logline
