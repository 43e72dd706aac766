import Mathlib
import Logline.Proofs.Accounting
import Logline.Proofs.Detours
import Logline.Proofs.FrontDoors

/-!
# Messages that cannot be written

A message is written while its line is put together. If an argument panics or reports a failure then, the
panic leaves the call: from an engine when the header and the pieces in front of the argument are in the
buffer already, from a logger before it has a record at all. Neither counts nor puts anything out before
that.

Main statement: `MessageCall.leaves_no_trace`. All that a failed call leaves is a buffer that goes back to
the pool empty, which no later call can tell from a call that was never made.
-/

namespace Logline

/-- Logs a message if the handle is enabled. -/
def Verbose.info (v : Verbose) (e : Engine) (site : CallSite) (m : Message) :
    Outcome Unit × Engine :=
  if v.enabled then e.print site .info m else (.ok (), e)

/-- A log call with a plain message. -/
inductive MessageCall where
  | print (site : CallSite) (severity : Severity) (m : Message)
  | verbose (v : Verbose) (site : CallSite) (m : Message)
  | logger (l : Logger) (site : CallSite) (severity : Severity) (m : Message)

namespace MessageCall

def run (e : Engine) : MessageCall → Outcome Unit × Engine
  | .print site severity m => e.print site severity m
  | .verbose v site m => v.info e site m
  | .logger l site severity m => l.print e site severity m

def message : MessageCall → Message
  | .print _ _ m => m
  | .verbose _ _ m => m
  | .logger _ _ _ m => m

/-- Whether a call is let through. The severity of a record keeps nobody from putting it together. -/
def enabled (e : Engine) : MessageCall → Bool
  | .print _ _ _ => true
  | .verbose v _ _ => v.enabled
  | .logger l _ severity _ => l.enabled e severity

/-- How many buffers a call takes before its message is written. -/
def buffers : MessageCall → Nat
  | .print _ _ _ => 1
  | .verbose _ _ _ => 1
  | .logger _ _ _ _ => 0

end MessageCall

/-! ### Arguments that fail -/

namespace Message

/-- The hooks that are run for a message that ends with an argument, behind other pieces. -/
def shownUntil (before : List Piece) (h : ShowHook) : List HookCall :=
  before.flatMap (fun piece => piece.run.calls) ++ [.shown h]

/-- A message ends with an argument, which is the first one that fails. -/
structure EndsAt (m : Message) (before : List Piece) (h : ShowHook) : Prop where
  pieces : ∃ rest, m.pieces = before ++ .argument h :: rest
  returns : ∀ piece ∈ before, piece.ending = .returns
  fails : h.ending ≠ .returns

variable {m : Message}

theorem unwritable_iff : m.Unwritable ↔ ∃ before h, m.EndsAt before h := by
  constructor
  · intro hm
    obtain ⟨before, h, rest, hpieces, hreturns, hfails⟩ := hm.exists_first
    exact ⟨before, h, ⟨rest, hpieces⟩, hreturns, hfails⟩
  · rintro ⟨before, h, ⟨rest, hpieces⟩, -, hfails⟩
    refine ⟨.argument h, ?_, hfails⟩
    rw [hpieces]
    exact List.mem_append_right before List.mem_cons_self

variable {before : List Piece} {h : ShowHook} (hends : m.EndsAt before h)

include hends

theorem EndsAt.assemble :
    Message.assemble m.pieces =
      ⟨(String.join (before.map Piece.text) ++ h.text, h.ending), shownUntil before h⟩ := by
  obtain ⟨rest, hpieces⟩ := hends.pieces
  have hlast : Message.assemble (.argument h :: rest) = ⟨(h.text, h.ending), [.shown h]⟩ := by
    have hfails := hends.fails
    cases hhow : h.ending with
    | returns => exact (hfails hhow).elim
    | panics p => simp only [Message.assemble, Piece.ending, hhow]; rfl
    | fails => simp only [Message.assemble, Piece.ending, hhow]; rfl
  have hvalue := value_assemble_append hends.returns (.argument h :: rest)
  have hcalls := calls_assemble_append hends.returns (.argument h :: rest)
  rw [hlast] at hvalue hcalls
  rw [hpieces]
  exact congrArg₂ Traced.mk hvalue hcalls

/-- What is written before the failure stays in the buffer, behind what there was. -/
theorem EndsAt.write (buf : Bytes) :
    ∃ p, m.write buf = ⟨(buf ++ Text.utf8 (String.join (before.map Piece.text) ++ h.text), .error p),
        shownUntil before h⟩ ∧
      ∀ cause, h.ending = .panics cause → p = cause := by
  have hfails := hends.fails
  rw [Message.write, hends.assemble]
  cases hhow : h.ending with
  | returns => exact (hfails hhow).elim
  | panics p => exact ⟨p, congrArg _ (List.append_nil _), fun cause heq => Ending.panics.inj heq⟩
  | fails => exact ⟨_, congrArg _ (List.append_nil _), fun cause heq => by cases heq⟩

theorem EndsAt.toText :
    ∃ p, m.toText = ⟨.error p, shownUntil before h⟩ ∧ ∀ cause, h.ending = .panics cause → p = cause := by
  have hfails := hends.fails
  rw [Message.toText, hends.assemble]
  cases hhow : h.ending with
  | returns => exact (hfails hhow).elim
  | panics p => exact ⟨p, congrArg _ (List.append_nil _), fun cause heq => Ending.panics.inj heq⟩
  | fails => exact ⟨_, congrArg _ (List.append_nil _), fun cause heq => by cases heq⟩

/-- The half-written buffer is given back. -/
theorem EndsAt.print (e : Engine) (site : CallSite) (severity : Severity) :
    ∃ p, e.print site severity m =
        (.error (.panic p), e.swap e.pool.cycle (e.calls ++ shownUntil before h)) ∧
      ∀ cause, h.ending = .panics cause → p = cause := by
  obtain ⟨p, hwritten, hcause⟩ := hends.write (e.acquire.1.bytes ++ e.acquire.2.headerOf severity site)
  refine ⟨p, ?_, hcause⟩
  simp only [Engine.print, hwritten]
  rfl

end Message

namespace MessageCall

/-- What is not let through does nothing, whatever its message is: its arguments are not looked at. -/
theorem run_disabled {c : MessageCall} {e : Engine} (h : c.enabled e = false) : c.run e = (.ok (), e) := by
  cases c with
  | print site severity m => cases h
  | verbose v site m => exact if_neg (Bool.eq_false_iff.mp h)
  | logger l site severity m => exact if_neg (Bool.eq_false_iff.mp h)

theorem run_unwritable {c : MessageCall} {e : Engine} (henabled : c.enabled e = true)
    {before : List Piece} {h : ShowHook} (hends : c.message.EndsAt before h) :
    ∃ p, c.run e = (.error (.panic p),
        e.swap (BufferPool.cycle^[c.buffers] e.pool) (e.calls ++ Message.shownUntil before h)) ∧
      ∀ cause, h.ending = .panics cause → p = cause := by
  cases c with
  | print site severity m => exact hends.print e site severity
  | verbose v site m =>
    obtain ⟨p, hprint, hcause⟩ := hends.print e site .info
    exact ⟨p, (if_pos henabled).trans hprint, hcause⟩
  | logger l site severity m =>
    obtain ⟨p, htext, hcause⟩ := hends.toText
    have hlogger : l.enabled e severity = true := henabled
    have hmessage : m.toText = ⟨.error p, Message.shownUntil before h⟩ := htext
    refine ⟨p, ?_, hcause⟩
    rw [run, Logger.print, if_pos hlogger, hmessage]
    rfl

/-- A call that is not let through does nothing, and its message is not looked at. A call that is let
through, but one of whose arguments panics or reports a failure after any output, panics with the first one
of these. No destination has been
asked to write or to flush then, not even after a fatal record, no exit hook was run, and settings and
statistics are what they were. The buffers are back in the pool and empty: on an engine the call took one,
so at least one is idle; a logger has not taken any. What comes later comes to the same as if there had not
been the call: programs of any calls, changes of settings and scopes end in the same way, and all that
differs behind them is how often a buffer was taken and made. -/
theorem leaves_no_trace (c : MessageCall) (e : Engine) (ops : List BufferDesk.Operation) :
    let now : Engine := { e with pool := (BufferDesk.run {} ops).pool }
    let after := c.run now
    (c.enabled now = false → after = (.ok (), now)) ∧
      (c.message.Unwritable ↔ ∃ before h, c.message.EndsAt before h) ∧
      ∀ before h, c.enabled now = true → c.message.EndsAt before h →
        (∃ p, after.1 = .error (.panic p) ∧ ∀ cause, h.ending = .panics cause → p = cause) ∧
        after.2 =
          { now with pool := after.2.pool, calls := now.calls ++ Message.shownUntil before h } ∧
        now.pool.Ahead c.buffers after.2.pool ∧
        after.2.pool.idle.length = max c.buffers now.pool.idle.length ∧
        (c.buffers = 0 → after.2.pool = now.pool) ∧
        ∀ (later : Program) (saved : List Settings),
          Session.Agree ⟨c.buffers, now.calls, Message.shownUntil before h⟩ (later.run ⟨now, saved⟩)
            (later.run ⟨after.2, saved⟩) := by
  intro now after
  refine ⟨run_disabled, Message.unwritable_iff, fun before h henabled hends => ?_⟩
  have hclean : now.pool.Clean := (BufferDesk.balanced_run ops).empty
  obtain ⟨p, hrun, hcause⟩ := run_unwritable henabled hends
  have hafter : after = _ := hrun
  have hpool : now.pool.Ahead c.buffers (BufferPool.cycle^[c.buffers] now.pool) ∧
      (BufferPool.cycle^[c.buffers] now.pool).idle.length = max c.buffers now.pool.idle.length ∧
      (c.buffers = 0 → BufferPool.cycle^[c.buffers] now.pool = now.pool) := by
    cases c with
    | logger l site severity m => exact ⟨.refl hclean, (Nat.zero_max _).symm, fun _ => rfl⟩
    | _ => exact ⟨BufferPool.ahead_cycle hclean, now.pool.length_idle_cycle, nofun⟩
  obtain ⟨hahead, hidle, hsame⟩ := hpool
  rw [hafter]
  refine ⟨⟨p, rfl, hcause⟩, rfl, hahead, hidle, hsame, fun later saved => ?_⟩
  have hastray : now.Astray ⟨c.buffers, now.calls, Message.shownUntil before h⟩
      (now.swap (BufferPool.cycle^[c.buffers] now.pool) (now.calls ++ Message.shownUntil before h)) :=
    ⟨rfl, hahead, [], (List.append_nil _).symm, (List.append_nil _).symm⟩
  exact later.run_astray ⟨hastray, rfl⟩

/-- A fatal message whose second argument panics in the middle of its output. The process would end after its
line, which is not put out; one more buffer is idle than was. -/
theorem leaves_no_trace_fatal :
    let shown : ShowHook := { text := "it" }
    let argument : ShowHook := { text := "half of i", ending := .panics (.message "no more") }
    let c := MessageCall.print ⟨"a.rs", 7⟩ .fatal
      ⟨[.literal "what: ", .argument shown, .argument argument, .literal "?"]⟩
    let e := (Engine.initial {} ⟨1, 1, 0, 0, 0, 0⟩ 1).setOutput 0
    let after := c.run { e with pool := (BufferDesk.run {} [.acquire "out"]).pool }
    c.enabled e = true ∧ c.message.EndsAt [.literal "what: ", .argument shown] argument ∧
      e.settings.exitHook = .endsProcess ∧ after.1 = .error (.panic (.message "no more")) ∧
      after.2.outlets = e.outlets ∧ after.2.calls = [.shown shown, .shown argument] ∧
      after.2.pool.idle.length = 1 := by
  intro shown argument c e after
  have hends : c.message.EndsAt [.literal "what: ", .argument shown] argument :=
    ⟨⟨[.literal "?"], rfl⟩, by simp [Piece.ending, shown], nofun⟩
  obtain ⟨⟨p, hpanic, hcause⟩, hafter, -, hidle, -⟩ :=
    (leaves_no_trace c e [.acquire "out"]).2.2 _ argument rfl hends
  have houtlets : after.2.outlets = e.outlets := (congrArg Engine.outlets hafter).trans rfl
  have hcalls : after.2.calls = [.shown shown, .shown argument] :=
    (congrArg Engine.calls hafter).trans rfl
  refine ⟨rfl, hends, rfl, ?_, houtlets, hcalls, hidle⟩
  rw [← hcause (.message "no more") rfl]
  exact hpanic

end MessageCall

end Logline
