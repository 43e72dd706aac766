import Mathlib
import Logline.Proofs.Delivery
import Logline.Proofs.Guards
import Logline.Proofs.Placeholders
import Logline.Proofs.SinkStack

/-!
# Failures stay where they are

A structured log call below the fatal severity returns, whatever hooks do, and whatever destinations
answer, if only their answers are harmless, and nothing gets out of the guard of a hook. All selected
destinations are offered its line, and the line is that of the call in which everything that fails is
replaced by its placeholder: `run_contained`.

The placeholders of hooks that write or encode a value are put between quotes as they are. So they can be
told from a text that says the same, unless that needs no quoting (`not_line_eq_quotation`).
-/

namespace Logline

/-! ### Calls -/

/-- A log call with a message and pairs. -/
inductive StructuredCall where
  | printS (site : CallSite) (severity : Severity) (error : Option Value) (message : String)
    (kvs : List Value)
  /-- The error has become a value. -/
  | errorS (site : CallSite) (error : Value) (message : String) (kvs : List Value)
  /-- A record for a sink that hands it to the engine. -/
  | emit (values : List Value) (callDepth : Nat) (record : LogRecord)

/-- The engine with the replacement of its formatter. -/
def Engine.settled (e : Engine) : Engine := { e with formatter := e.formatter.settled }

namespace StructuredCall

/-- Carries out a call. -/
def run (e : Engine) : StructuredCall → Outcome Unit × Engine
  | .printS site severity error message kvs => e.printS site severity error message kvs
  | .errorS site error message kvs => e.errorS site (.ok error) message kvs
  | .emit values callDepth record => e.emit (.engine values callDepth) record

def severity : StructuredCall → Severity
  | .printS _ severity _ _ _ => severity
  | .errorS _ _ _ _ => .error
  | .emit _ _ record => record.severity

/-- The place that a call is attributed to. -/
def site (e : Engine) : StructuredCall → CallSite
  | .printS site _ _ _ _ => site
  | .errorS site _ _ _ => site
  | .emit _ callDepth record => record.site.attributed callDepth e.stack

def message : StructuredCall → String
  | .printS _ _ _ message _ => message
  | .errorS _ _ message _ => message
  | .emit _ _ record => record.message

/-- The lists of a call. -/
def lists : StructuredCall → List (List Value)
  | .printS _ _ error _ kvs => Engine.errorLists error kvs
  | .errorS _ error _ kvs => Engine.errorLists (some error) kvs
  | .emit values _ record => [values, record.kvs]

/-- What runs before the line is written. -/
def prelude : StructuredCall → List HookCall
  | .errorS _ _ _ _ => [.conversion]
  | _ => []

/-- What a call writes into the buffer that it gets, if nothing gets out of a guard. -/
def written (e : Engine) (c : StructuredCall) : Traced Bytes :=
  e.structured (c.site e) c.severity c.message c.lists

/-- The line of a call. -/
def line (e : Engine) (c : StructuredCall) : Bytes := finishLine (c.written e).value

/-- The call with its keys and values replaced. -/
def replaced (key value : Value → Value) : StructuredCall → StructuredCall
  | .printS site severity error message kvs =>
    .printS site severity (error.map value) message (KeyValues.replace key value kvs)
  | .errorS site error message kvs => .errorS site (value error) message (KeyValues.replace key value kvs)
  | .emit values callDepth record =>
    .emit (KeyValues.replace key value values) callDepth
      { record with kvs := KeyValues.replace key value record.kvs }

/-- The call in which everything that fails is replaced. -/
def settled (f : Formatter) : StructuredCall → StructuredCall :=
  replaced Formatter.settleKey f.settleValue

/-- The call in which everything that fails is replaced, by a text where a placeholder is not quoted. -/
def quotation (f : Formatter) : StructuredCall → StructuredCall :=
  replaced Formatter.settleKey f.textOrSettled

end StructuredCall

/-! ### One call -/

/-- A hook that completes leaves nothing to its guard. -/
theorem HookCall.Completes.escape? {f : Formatter} {c : HookCall} (h : c.Completes f) :
    f.escape? c = none := by
  have hnothing : c.leavesRemains f = false := by
    cases c with
    | shown s => simp [leavesRemains, payload?, ShowHook.run, show s.ending = .returns from h, Panic.of?]
    | details d =>
      obtain ⟨v, hv⟩ := h
      simp [leavesRemains, payload?, hv, Panic.of?]
    | marshal probe panic value => simp [leavesRemains, payload?, show panic = none from h]
    | encoded e =>
      obtain ⟨v, rfl⟩ := h
      rfl
    | written w => simp [leavesRemains, payload?, show w.panic = none from h]
    | fallback v =>
      have hnone : (HookCall.fallback v).payload? f = none := by
        rw [payload?]
        cases hhook : f.fallback with
        | none => rfl
        | some hook =>
          obtain ⟨s, hs⟩ := h hook hhook
          simp [hs, Panic.of?]
      simp [leavesRemains, hnone]
    | conversion => rfl
  rw [Formatter.escape?, hnothing]
  rfl

/-- What a call with pairs comes to that offers its line to destinations, behind hooks that are run before: it
returns, unless a panic gets out of the guard of a hook. -/
structure Engine.Logs (e : Engine) (prelude : List HookCall) (written : Traced Bytes) (targets : List Handle)
    (result : Outcome Unit × Engine) : Prop where
  returns : e.formatter.Contains written.calls → result.1 = .ok () ∧
    result.2.outlets.attempts =
      e.outlets.attempts ++ targets.map (Attempt.append · (finishLine written.value)) ∧
    result.2.calls = e.calls ++ (prelude ++ written.calls)
  leaves : ¬ e.formatter.Contains written.calls → ∃ before c p,
    e.formatter.LeavesAt written.calls before c p ∧ result.1 = .error (.panic p) ∧
      result.2.outlets = e.outlets ∧ result.2.calls = e.calls ++ (prelude ++ (before ++ [c]))

theorem Engine.logs_printStructured (e : Engine) (hharmless : e.outlets.Harmless) (site : CallSite)
    {severity : Severity} (h : severity ≠ .fatal) (message : String) (lists : List (List Value)) :
    e.Logs [] (e.structured site severity message lists) (e.settings.targets severity)
      (e.printStructured site severity message lists) := by
  rcases e.printStructured_cases site severity message lists with
    ⟨hcontains, heq⟩ | ⟨before, c, p, hleaves, heq⟩
  · let now : Engine :=
      { e.acquire.2 with calls := e.calls ++ (e.structured site severity message lists).calls }
    let buffer : Buffer :=
      { e.acquire.1 with bytes := finishLine (e.structured site severity message lists).value }
    have hresult : e.printStructured site severity message lists = now.written severity buffer :=
      heq.trans (now.output_of_ne_fatal severity buffer h)
    obtain ⟨⟨reached, -, hall, hattempts, -⟩, -, hreturns⟩ := now.offers_written severity buffer
    obtain ⟨outcome, outlets, stats, hframe⟩ := now.written_frame severity buffer
    have hok := (hreturns hharmless).1
    obtain rfl := hall hok
    rw [hresult]
    exact ⟨fun _ => ⟨hok, hattempts, by rw [hframe]; rfl⟩, fun hnot => (hnot hcontains).elim⟩
  · rw [heq]
    exact ⟨fun hcontains => (hleaves.not_contains hcontains).elim,
      fun _ => ⟨before, c, p, hleaves, rfl, rfl, rfl⟩⟩

namespace StructuredCall

variable (e : Engine) (c : StructuredCall)

/-- If answers are harmless, a call returns with its line at the destinations of its severity, unless a panic
gets out of a guard. What it ran is known. -/
theorem logs_run (hharmless : e.outlets.Harmless) (h : c.severity ≠ .fatal) :
    e.Logs c.prelude (c.written e) (e.settings.targets c.severity) (c.run e) := by
  cases c with
  | printS site severity error message kvs =>
    exact e.logs_printStructured hharmless site h message (Engine.errorLists error kvs)
  | errorS site error message kvs =>
    obtain ⟨hreturns, hleaves⟩ := Engine.logs_printStructured
      { e with calls := e.calls ++ [.conversion] } hharmless site h message
      (Engine.errorLists (some error) kvs)
    simp only [List.append_assoc] at hreturns hleaves
    exact ⟨hreturns, hleaves⟩
  | emit values callDepth record =>
    have hrun : (emit values callDepth record).run e =
        e.printStructured (record.site.attributed callDepth e.stack) record.severity record.message
          [values, record.kvs] := by
      rw [run, Engine.emit, Sink.emit, Engine.deliverAll_singleton, Engine.deliver]
    rw [hrun]
    exact e.logs_printStructured hharmless _ h record.message [values, record.kvs]

theorem severity_replaced (key value : Value → Value) : (c.replaced key value).severity = c.severity := by
  cases c <;> rfl

/-- A replacement changes only the lists of a call. -/
theorem written_replaced {key value : Value → Value} (hkey : ∀ s, key (.text s) = .text s) :
    (c.replaced key value).written e.settled =
      e.formatter.settled.writeStructured (e.acquire.1.bytes ++ e.headerOf c.severity (c.site e)) c.message
        (c.lists.map (KeyValues.replace key value)) := by
  cases c with
  | printS site severity error message kvs =>
    cases error with
    | none => rfl
    | some v => simp only [written, replaced, lists, Engine.errorLists, List.map, KeyValues.replace, hkey,
        Option.map_some]; rfl
  | errorS site error message kvs =>
    simp only [written, replaced, lists, Engine.errorLists, List.map, KeyValues.replace, hkey]
    rfl
  | emit values callDepth record => rfl

theorem written_settled :
    ((c.settled e.formatter).written e.settled).value = (c.written e).value ∧
      ∀ call ∈ ((c.settled e.formatter).written e.settled).calls, call.Completes e.formatter.settled := by
  rw [settled, c.written_replaced e fun _ => rfl]
  exact e.formatter.writeLists_settle _ c.lists

theorem completes_prelude (f : Formatter) : ∀ call ∈ c.prelude, call.Completes f := by
  intro call hcall
  cases c with
  | errorS => exact List.mem_singleton.mp hcall ▸ trivial
  | _ => exact (List.not_mem_nil hcall).elim

/-! ### Containment -/

/-- If answers are harmless, a structured call below the fatal severity returns, and every selected
destination is offered its line. Only where throwing away what the failure of a hook leaves panics, this
panic leaves the call, with no destination asked. The line is that of the call with placeholders for
everything that fails, in which no hook fails; so nothing that a failed hook produced is in it. A pair is
replaced by itself unless a hook fails that is run for it, and otherwise by one that is written the same way.
Where placeholders that are not quoted need no quoting, the line is also that of the call with texts in
their place. -/
theorem run_contained (h : c.severity ≠ .fatal) (hharmless : e.outlets.Harmless) :
    (e.formatter.Contains (c.written e).calls → (c.run e).1 = .ok () ∧
        (c.run e).2.outlets.attempts =
          e.outlets.attempts ++ (e.settings.targets c.severity).map (Attempt.append · (c.line e))) ∧
      (¬ e.formatter.Contains (c.written e).calls → ∃ before hook p,
        e.formatter.LeavesAt (c.written e).calls before hook p ∧ (c.run e).1 = .error (.panic p) ∧
          (c.run e).2.outlets = e.outlets) ∧
      c.line e = (c.settled e.formatter).line e.settled ∧
      (∃ ran, ((c.settled e.formatter).run e.settled).2.calls = e.calls ++ ran ∧
        ∀ call ∈ ran, call.Completes e.formatter.settled) ∧
      (∀ other : StructuredCall,
        other.settled e.formatter = c.settled e.formatter → other.line e = c.line e) ∧
      (∀ pair : Value × Value,
        e.formatter.settled.rendering (e.formatter.settlePair pair) = e.formatter.rendering pair ∧
        ((∀ call ∈ (e.formatter.writePair [] pair.1 pair.2).calls, call.Completes e.formatter) →
          e.formatter.settlePair pair = pair)) ∧
      ((∀ pair ∈ c.lists.flatMap KeyValues.completePairs, ∀ text ∈ e.formatter.unquoted? pair.2,
          Formatter.Plain text) →
        c.line e = (c.quotation e.formatter).line e.settled) := by
  have hline : ∀ c : StructuredCall, c.line e = (c.settled e.formatter).line e.settled := fun c =>
    congrArg finishLine (c.written_settled e).1.symm
  obtain ⟨hreturns, hleaves⟩ := c.logs_run e hharmless h
  obtain ⟨hsettled, -⟩ :=
    (c.settled e.formatter).logs_run e.settled hharmless (by rwa [settled, severity_replaced])
  obtain ⟨-, -, hcalls⟩ := hsettled fun call hcall => ((c.written_settled e).2 call hcall).escape?
  refine ⟨fun hcontains => ?_, fun hnot => ?_, hline c, ⟨_, hcalls, ?_⟩, fun other hsame => ?_,
    fun pair => ⟨?_, ?_⟩, fun hplain => ?_⟩
  · obtain ⟨hok, hattempts, -⟩ := hreturns hcontains
    exact ⟨hok, hattempts⟩
  · obtain ⟨before, hook, p, hat, hpanic, houtlets, -⟩ := hleaves hnot
    exact ⟨before, hook, p, hat, hpanic, houtlets⟩
  · rw [List.forall_mem_append]
    exact ⟨completes_prelude _ _, (c.written_settled e).2⟩
  · rw [hline other, hsame, hline c]
  · exact e.formatter.rendering_settlePair pair
  · exact e.formatter.settlePair_of_completes [] pair
  · rw [line, line, quotation, c.written_replaced e fun _ => rfl]
    exact congrArg finishLine (e.formatter.value_writeLists_text _ c.lists hplain).symm

/-- A panicking console, a file that takes nothing, and one in memory. -/
def brokenNeighbours : Engine where
  settings :=
    { thresholds := { toConsole := false }
      files := ⟨some 2, some 1, none, none⟩
      console := 0 }
  outlets :=
    { appenders :=
        [.scripted "broken" [.panicked .other] [], .writer "closed" { steps := [.fails] }, .memory {}] }
  stamp := ⟨1, 2, 3, 4, 5, 6000⟩

/-- The same, with hooks that leave what panics when it is thrown away. -/
def burstingRemains : Engine :=
  { brokenNeighbours with formatter := { disposal := fun _ => some (.message "thrown away") } }

/-- A call in which a key, an error with its details, an encoder and a value that writes itself fail. The
key `a` comes twice, and its last value fails after some output. -/
def failing : StructuredCall :=
  .printS ⟨"a.rs", 7⟩ .warning
    (some (.fault
      ⟨⟨{ text := "half", ending := .panics (.message "p") }, none⟩, [.produced none (.error .other)]⟩))
    "m"
    [.text "a", .int 1, .shown { text := "key", ending := .panics (.message "k") }, .bool true,
      .text "b", .encoded (.stops [0x5B] (.error "e")), .text "a", .written ⟨[0x78], some (.message "w")⟩]

/-- The details leave what is no text. -/
theorem run_contained_failing :
    failing.severity ≠ .fatal ∧ brokenNeighbours.outlets.Harmless ∧
      (failing.run brokenNeighbours).1 = .ok () ∧
      failing.line brokenNeighbours = Text.utf8
        ("W0102 03:04:05.000006       1 a.rs:7] \"m\" " ++
          "err=\"<panic: p>\" errDetails=\"<panic: Unknown panic>\" <panic: k>=true " ++
          "b=\"<internal error: e>\" a=\"<panic: w>\"\n") ∧
      (failing.run burstingRemains).1 = .error (.panic (.message "thrown away")) ∧
      (failing.run burstingRemains).2.outlets = burstingRemains.outlets := by
  have hbelow : failing.severity ≠ .fatal := by decide
  have hharmless : brokenNeighbours.outlets.Harmless := by decide
  have hcontains : brokenNeighbours.formatter.Contains (failing.written brokenNeighbours).calls := by
    decide +kernel
  have hleaves : ¬ burstingRemains.formatter.Contains (failing.written burstingRemains).calls := by
    decide +kernel
  obtain ⟨hreturns, -, hline, -⟩ := failing.run_contained brokenNeighbours hbelow hharmless
  obtain ⟨-, hends, -⟩ := failing.run_contained burstingRemains hbelow hharmless
  obtain ⟨before, hook, p, hat, hpanic, houtlets⟩ := hends hleaves
  have hthrown : p = .message "thrown away" := by
    have hescapes := hat.escapes
    rw [Formatter.escape?] at hescapes
    split at hescapes
    · exact (Option.some.inj hescapes).symm
    · cases hescapes
  refine ⟨hbelow, hharmless, (hreturns hcontains).1, hline.trans ?_, hthrown ▸ hpanic, houtlets⟩
  decide +kernel

/-- A hook that writes half of its value and panics with a text that has a quote in it. -/
def quoteInPanic : StructuredCall :=
  .printS ⟨"a.rs", 7⟩ .info none "m" [.text "k", .written ⟨Text.utf8 "half", some (.message "a\"b")⟩]

/-- The placeholder is not quoted, as a text that says the same would be. -/
theorem not_line_eq_quotation :
    quoteInPanic.quotation brokenNeighbours.formatter =
        .printS ⟨"a.rs", 7⟩ .info none "m" [.text "k", .text "<panic: a\"b>"] ∧
      quoteInPanic.line brokenNeighbours = Text.utf8
        "I0102 03:04:05.000006       1 a.rs:7] \"m\" k=\"<panic: a\"b>\"\n" ∧
      (quoteInPanic.quotation brokenNeighbours.formatter).line brokenNeighbours.settled = Text.utf8
        "I0102 03:04:05.000006       1 a.rs:7] \"m\" k=\"<panic: a\\\"b>\"\n" ∧
      quoteInPanic.line brokenNeighbours ≠
        (quoteInPanic.quotation brokenNeighbours.formatter).line brokenNeighbours.settled := by
  refine ⟨rfl, ?_⟩
  decide +kernel

end StructuredCall

end Logline
