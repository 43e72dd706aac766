import Mathlib
import Logline.Proofs.Deduplication
import Logline.Proofs.PutOut

/-!
# Two front doors

A message with pairs can be logged on an engine, or through a logger that writes through the engine. The
engine keeps the pair of an error in a list of its own; the logger puts it in front of the pairs of the
call, and its sink comes with an empty list of values. A verbosity level is decided on when the engine's
handle for it is made, but by a logger only when it is called.

Main statement: `FrontCall.doors_agree`. Both doors come to the same, and of the line only the header
depends on the moment and the place of the call. There is no line if the conversion of the error panics, or
if a panic gets out of the guard of a hook, and at both doors it is the same panic that leaves the call.
-/

namespace Logline

/-! ### Handles for verbosity levels -/

/-- A handle of an engine. The verbosity level was checked when it was made. -/
structure Verbose where
  enabled : Bool

def Engine.v (e : Engine) (level : UInt32) : Verbose := ⟨e.verbosityEnabled level⟩

def Verbose.infoS (v : Verbose) (e : Engine) (site : CallSite) (message : String) (kvs : List Value) :
    Outcome Unit × Engine :=
  if v.enabled then e.printStructured site .info message [kvs] else (.ok (), e)

theorem Verbose.infoS_v (e : Engine) (level : UInt32) (site : CallSite) (message : String)
    (kvs : List Value) : (e.v level).infoS e site message kvs = e.verbosePrintS level site message kvs :=
  rfl

/-! ### Calls at both doors -/

/-- A log call that both doors have. Those that are named after a severity are messages. -/
inductive FrontCall where
  | message (severity : Severity) (cause : Option Value) (text : String) (kvs : List Value)
  /-- The cause is turned into a value by the call; `cause` is what comes of that. -/
  | error (cause : Except Panic Value) (text : String) (kvs : List Value)
  | verbose (level : UInt32) (text : String) (kvs : List Value)

namespace FrontCall

/-- The pairs of a call in one list, after the pair of its error. -/
def joined : Option Value → List Value → List Value
  | none, kvs => kvs
  | some cause, kvs => .text "err" :: cause :: kvs

/-- A call on the engine. Its handle, if it needs one, was made by `maker`, the engine at an earlier
moment. -/
def direct (maker e : Engine) (site : CallSite) : FrontCall → Outcome Unit × Engine
  | .message severity cause text kvs => e.printS site severity cause text kvs
  | .error cause text kvs => e.errorS site cause text kvs
  | .verbose level text kvs => (maker.v level).infoS e site text kvs

/-- A call of a logger without a name that writes through the engine. -/
def viaLogger (e : Engine) (site : CallSite) : FrontCall → Outcome Unit × Engine
  | .message severity cause text kvs =>
    Logger.ofEngine.log e site severity text (joined cause kvs)
  | .error cause text kvs => Logger.ofEngine.error e site cause text kvs
  | .verbose level text kvs => (Logger.ofEngine.v level).log e site .info text kvs

/-- The verbosity that a call depends on is that of the moment when its handle was made. -/
def Steady (maker e : Engine) : FrontCall → Prop
  | .verbose _ _ _ => maker.settings.thresholds.verbosity = e.settings.thresholds.verbosity
  | _ => True

def severity : FrontCall → Severity
  | .message severity _ _ _ => severity
  | .error _ _ _ => .error
  | .verbose _ _ _ => .info

def text : FrontCall → String
  | .message _ _ text _ => text
  | .error _ text _ => text
  | .verbose _ text _ => text

def lists : FrontCall → List (List Value)
  | .message _ cause _ kvs => Engine.errorLists cause kvs
  | .error (.ok cause) _ kvs => Engine.errorLists (some cause) kvs
  | .error (.error _) _ _ => []
  | .verbose _ _ kvs => [kvs]

/-- Whether an engine lets a call through. -/
def logged (e : Engine) : FrontCall → Bool
  | .verbose level _ _ => e.verbosityEnabled level
  | _ => true

/-- What runs before the line is written. The conversion of a cause may panic. -/
def prelude : FrontCall → Traced (Except Panic Unit)
  | .message _ _ _ _ => pure (.ok ())
  | .error cause _ _ => do
    Traced.call .conversion
    pure (cause.map fun _ => ())
  | .verbose _ _ _ => pure (.ok ())

/-- What a call writes behind the header. -/
def body (f : Formatter) (c : FrontCall) : Traced (Except Panic Bytes) :=
  f.guardHooks (f.writeStructured [] c.text c.lists)

/-- What a call writes behind the header, if it comes to that. It depends on the formatter and not on the
moment. -/
def written (f : Formatter) (c : FrontCall) : Traced (Option Bytes) := do
  match ← c.prelude with
  | .ok () => do
    let body ← c.body f
    pure body.toOption
  | .error _ => pure none

/-- What a call writes behind the header, if it is let through. -/
def body? (e : Engine) (c : FrontCall) : Option Bytes :=
  if c.logged e then (c.written e.formatter).value else none

/-- The line of a call that is made at a time and a place, if it has one. -/
def lines (e : Engine) (stamp : Stamp) (site : CallSite) (c : FrontCall) : List Line :=
  (c.body? e).toList.map fun body =>
    ⟨c.severity, e.acquire.1.bytes ++ header c.severity stamp e.pid site ++ finishLine body⟩

/-- What a call does once it is let through. -/
def log (c : FrontCall) (e : Engine) (site : CallSite) : Outcome Unit × Engine :=
  match e.absorb c.prelude with
  | (.error p, e) => (.error (.panic p), e)
  | (.ok (), e) => e.printStructured site c.severity c.text c.lists

end FrontCall

/-! ### Both doors print the same lists -/

theorem Engine.absorb_pure {α : Type} (e : Engine) (a : α) : (e.absorb (pure a)).2 = e := by
  rw [absorb, Traced.calls_pure, List.append_nil]

/-- An error makes a pair in front of the pairs of the call, whatever these are. -/
theorem FrontCall.completePairs_joined (cause : Option Value) (kvs : List Value) :
    [[], joined cause kvs].flatMap KeyValues.completePairs =
      (Engine.errorLists cause kvs).flatMap KeyValues.completePairs := by
  have hempty : KeyValues.completePairs [] = [] := rfl
  cases cause with
  | none => simp [joined, Engine.errorLists, hempty]
  | some v =>
    have hpair : KeyValues.completePairs [.text "err", v] = [(.text "err", v)] := rfl
    simp [joined, Engine.errorLists, hempty, hpair, KeyValues.completePairs_cons_cons]

namespace Logger

variable (e : Engine) (site : CallSite) (severity : Severity) (text : String) (kvs : List Value)

theorem emit_ofEngine : ofEngine.emit e site severity text kvs =
    e.printStructured site severity text [[], kvs] := by
  rw [emit, Engine.emit, ofEngine, Sink.emit, Engine.deliverAll_singleton]
  rfl

/-- A logger for the engine asks it at the call. -/
theorem enabled_v (level : UInt32) : (ofEngine.v level).enabled e .info = e.verbosityEnabled level := by
  have hmax : level.toNat < 4294967296 := level.toNat_lt
  have hlevel : (ofEngine.v level).level.toNat = level.toNat := by
    have hsum : (ofEngine.v level).level.toNat = min ((0 : UInt32).toNat + level.toNat) 4294967295 :=
      toNat_addLevels 0 level
    rw [hsum, UInt32.toNat_zero]
    omega
  have hlimit := (Sink.engine [] 0).verbosityEnabled_iff e.settings.thresholds level
  rw [Bool.eq_iff_iff, enabled_iff, hlevel]
  exact ⟨fun h => hlimit.mpr (h.2 rfl), fun h => ⟨rfl, fun _ => hlimit.mp h⟩⟩

end Logger

namespace FrontCall

variable (c : FrontCall) (maker e : Engine) (site : CallSite)

theorem log_message (severity : Severity) (cause : Option Value) (text : String) (kvs : List Value) :
    (message severity cause text kvs).log e site =
      e.printStructured site severity text (Engine.errorLists cause kvs) :=
  congrArg (·.printStructured site severity text (Engine.errorLists cause kvs))
    (e.absorb_pure (Except.ok () : Except Panic Unit))

theorem log_verbose (level : UInt32) (text : String) (kvs : List Value) :
    (verbose level text kvs).log e site = e.printStructured site .info text [kvs] :=
  congrArg (·.printStructured site .info text [kvs])
    (e.absorb_pure (Except.ok () : Except Panic Unit))

theorem direct_eq : c.direct maker e site = if c.logged maker then c.log e site else (.ok (), e) := by
  cases c with
  | message severity cause text kvs => exact (log_message e site severity cause text kvs).symm
  | error cause text kvs =>
    cases cause with
    | error p => rfl
    | ok v => rfl
  | verbose level text kvs =>
    rw [log_verbose]
    rfl

theorem viaLogger_eq : c.viaLogger e site = if c.logged e then c.log e site else (.ok (), e) := by
  -- at level zero every severity is let through
  have henabled : ∀ severity, Logger.ofEngine.enabled e severity = true := fun severity =>
    (Logger.enabled_iff _ e severity).mpr ⟨rfl, fun _ => Nat.zero_le _⟩
  have hemit : ∀ (e : Engine) severity cause text kvs,
      Logger.ofEngine.emit e site severity text (joined cause kvs) =
        e.printStructured site severity text (Engine.errorLists cause kvs) :=
    fun e severity cause text kvs => (Logger.emit_ofEngine e site severity text _).trans
      (e.printStructured_congr site severity text (completePairs_joined cause kvs))
  cases c with
  | message severity cause text kvs =>
    rw [log_message, viaLogger, Logger.log, if_pos (henabled severity)]
    exact hemit e severity cause text kvs
  | error cause text kvs =>
    rw [viaLogger, Logger.error, if_pos (henabled .error)]
    cases cause with
    | error p => rfl
    | ok v => exact hemit _ .error (some v) text kvs
  | verbose level text kvs =>
    rw [log_verbose, viaLogger, Logger.log, Logger.enabled_v]
    exact congrArg (ite (e.verbosityEnabled level = true) · (.ok (), e)) (hemit e .info none text kvs)

end FrontCall

/-! ### Lines but for their headers -/

theorem finishLine_append (front : Bytes) {body : Bytes} (h : body ≠ []) :
    finishLine (front ++ body) = front ++ finishLine body := by
  rw [finishLine, finishLine, List.getLast?_append_of_ne_nil front h]
  split
  · rfl
  · exact List.append_assoc _ _ _

namespace Formatter

variable (f : Formatter)

theorem appends_writeLists (lists : List (List Value)) : Appends fun buf => f.writeLists buf lists := by
  intro buf
  refine ⟨?_, (f.calls_writeLists buf lists).trans (f.calls_writeLists [] lists).symm⟩
  exact (f.value_writeLists buf lists).trans
    (congrArg (buf ++ ·) ((f.value_writeLists [] lists).trans (List.nil_append _)).symm)

/-- What stands in front of a line makes no difference to the rest. -/
theorem appends_writeStructured (text : String) (lists : List (List Value)) :
    Appends fun buf => f.writeStructured buf text lists := by
  intro buf
  obtain ⟨hvalue, hcalls⟩ := f.appends_writeLists lists (buf ++ Text.quoted text)
  obtain ⟨hvalue', hcalls'⟩ := f.appends_writeLists lists (Text.quoted text)
  refine ⟨?_, hcalls.trans hcalls'.symm⟩
  exact hvalue.trans (by rw [List.append_assoc, ← hvalue']; rfl)

theorem value_writeStructured_ne_nil (text : String) (lists : List (List Value)) :
    (f.writeStructured [] text lists).value ≠ [] := by
  have hquote : Text.quoted text ≠ [] := by
    rw [Text.quoted, Text.quotedChars, Text.encode_cons]
    exact List.append_ne_nil_of_left_ne_nil (by decide) _
  rw [writeStructured, value_writeLists, List.nil_append]
  exact List.append_ne_nil_of_left_ne_nil hquote _

end Formatter

namespace Engine

variable (e : Engine) (site : CallSite) (severity : Severity) (text : String) (lists : List (List Value))

/-- What a call with pairs writes behind the header is what it writes by itself. -/
theorem structured_eq : e.structured site severity text lists =
    ⟨e.acquire.1.bytes ++ e.headerOf severity site ++ (e.formatter.writeStructured [] text lists).value,
      (e.formatter.writeStructured [] text lists).calls⟩ := by
  obtain ⟨hvalue, hcalls⟩ := e.formatter.appends_writeStructured text lists
    (e.acquire.1.bytes ++ e.headerOf severity site)
  exact congrArg₂ Traced.mk hvalue hcalls

theorem structuredLines_eq : e.structuredLines site severity text lists =
    (e.formatter.guardHooks (e.formatter.writeStructured [] text lists)).value.toOption.toList.map fun body =>
      ⟨severity, e.acquire.1.bytes ++ header severity e.stamp e.pid site ++ finishLine body⟩ := by
  rw [structuredLines, structured_eq]
  rcases e.formatter.contains_or_leavesAt (e.formatter.writeStructured [] text lists).calls with
    hcontains | ⟨before, c, p, hleaves⟩
  · rw [Formatter.guardHooks_of_contains hcontains, Formatter.guardHooks_of_contains (by exact hcontains)]
    simp only [finishLine_append _ (e.formatter.value_writeStructured_ne_nil text lists)]
    rfl
  · rw [hleaves.guardHooks, Formatter.LeavesAt.guardHooks (by exact hleaves)]
    rfl

theorem calls_printStructured : (e.printStructured site severity text lists).2.calls =
    e.calls ++ (e.formatter.guardHooks (e.formatter.writeStructured [] text lists)).calls := by
  have hsame : (e.structured site severity text lists).calls =
      (e.formatter.writeStructured [] text lists).calls := by
    rw [structured_eq]
  rcases e.printStructured_cases site severity text lists with
    ⟨hcontains, heq⟩ | ⟨before, c, p, hleaves, heq⟩
  · rw [Formatter.guardHooks_of_contains (hsame ▸ hcontains), ← hsame, heq]
    let now : Engine := { e.acquire.2 with calls := e.calls ++ (e.structured site severity text lists).calls }
    obtain ⟨outcome, outlets, stats, exits, hframe⟩ := now.output_frame severity
      { e.acquire.1 with bytes := finishLine (e.structured site severity text lists).value }
    rw [hframe]
  · rw [hsame] at hleaves
    rw [hleaves.guardHooks, heq]

theorem pool_printStructured : (e.printStructured site severity text lists).2.pool = e.pool.cycle := by
  rcases e.printStructured_cases site severity text lists with ⟨-, heq⟩ | ⟨_, _, _, -, heq⟩
  · rw [heq]
    exact pool_output _ severity _
  · rw [heq]
    rfl

end Engine

namespace FrontCall

variable (c : FrontCall) (maker e : Engine)

/-- A call at a moment and a place puts its line out, and nothing else of the moment or the place
matters to the pool and to the hooks that are run. -/
theorem direct_spec (hlogged : c.logged maker = c.logged e) (stamp : Stamp) (stack : CallStack)
    (site : CallSite) :
    let result := c.direct maker { e with stamp, stack } site
    e.PutsOut (c.lines e stamp site) result.2 ∧
      result.2.pool = (if c.logged e ∧ c.prelude.value = .ok () then e.pool.cycle else e.pool) ∧
      result.2.calls = e.calls ++ (if c.logged e then (c.written e.formatter).calls else []) := by
  intro result
  let now : Engine := { e with stamp, stack }
  have hresult : result = if c.logged maker then c.log now site else (.ok (), now) :=
    c.direct_eq maker now site
  rw [hresult, hlogged, lines, body?]
  split
  · next hlets =>
    rw [log, written, Traced.value_bind, Traced.calls_bind, Engine.absorb]
    cases hprelude : c.prelude.value with
    | error p =>
      exact ⟨.of_same ⟨rfl, rfl, rfl⟩ rfl rfl, (if_neg (by simp)).symm, congrArg _ (List.append_nil _).symm⟩
    | ok =>
      let begun : Engine := { now with calls := now.calls ++ c.prelude.calls }
      have hline := begun.structuredLines_eq site c.severity c.text c.lists
      have hput := begun.putsOut_printStructured site c.severity c.text c.lists
      refine ⟨?_, ?_, ?_⟩
      · rw [hline] at hput
        exact hput.congr ⟨rfl, rfl, rfl⟩ rfl rfl
      · rw [if_pos ⟨hlets, rfl⟩]
        exact begun.pool_printStructured site c.severity c.text c.lists
      · refine (begun.calls_printStructured site c.severity c.text c.lists).trans ?_
        simp [begun, now, body]
  · next hlets => exact ⟨.of_same ⟨rfl, rfl, rfl⟩ rfl rfl, (if_neg (by simp [hlets])).symm,
      (List.append_nil _).symm⟩

theorem logged_congr {e e' : Engine}
    (h : e'.settings.thresholds.verbosity = e.settings.thresholds.verbosity) : c.logged e' = c.logged e := by
  cases c with
  | verbose level text kvs => exact congrArg (fun limit => decide (level ≤ limit)) h
  | _ => rfl

theorem direct_eq_viaLogger (hlogged : c.logged maker = c.logged e) (site : CallSite) :
    c.direct maker e site = c.viaLogger e site := by
  rw [direct_eq, viaLogger_eq, hlogged]

/-- Both doors come to the same for every call: the same outcome, and the same engine after it, with the
same destinations reached, the same statistics and the same pool. At two moments and from two places the
lines are the same but for their headers, and the pool and the hooks that are run are the same. -/
theorem doors_agree (h : c.Steady maker e) :
    (∀ site, c.direct maker e site = c.viaLogger e site) ∧
      ∀ stamp stack site stamp' stack' site',
        let direct := c.direct maker { e with stamp, stack } site
        let viaLogger := c.viaLogger { e with stamp := stamp', stack := stack' } site'
        e.PutsOut (c.lines e stamp site) direct.2 ∧ e.PutsOut (c.lines e stamp' site') viaLogger.2 ∧
          viaLogger.2.pool = direct.2.pool ∧ viaLogger.2.calls = direct.2.calls := by
  have hlogged : c.logged maker = c.logged e := by
    cases c with
    | verbose level text kvs => exact logged_congr _ h
    | _ => rfl
  refine ⟨c.direct_eq_viaLogger maker e hlogged, fun stamp stack site stamp' stack' site' => ?_⟩
  let other : Engine := { e with stamp := stamp', stack := stack' }
  have hother : c.direct maker other site' = c.viaLogger other site' :=
    c.direct_eq_viaLogger maker other (hlogged.trans (c.logged_congr rfl)) site'
  obtain ⟨hput, hpool, hcalls⟩ := c.direct_spec maker e hlogged stamp stack site
  obtain ⟨hput', hpool', hcalls'⟩ := c.direct_spec maker e hlogged stamp' stack' site'
  intro direct viaLogger
  have hsame : c.direct maker other site' = viaLogger := hother
  rw [← hsame]
  exact ⟨hput, hput', hpool'.trans hpool.symm, hcalls'.trans hcalls.symm⟩

/-- An engine that logs three levels. -/
def talkative : Engine := (Engine.initial {} ⟨1, 1, 0, 0, 0, 0⟩ 1).setThresholds { verbosity := 3 }

/-- The destinations change after the handle was made, and the pairs are odd and name a key twice. -/
theorem doors_agree_verbose :
    let c := FrontCall.verbose 3 "m" [.text "err", .nat 1, .text "err"]
    let e := talkative.setOutput 0
    c.Steady talkative e ∧ (∀ site, c.direct talkative e site = c.viaLogger e site) ∧
      c.lines e ⟨2, 1, 0, 0, 0, 0⟩ ⟨"a.rs", 7⟩ =
        [⟨.info, Text.utf8 "I0201 00:00:00.000000       1 a.rs:7] \"m\" err=\"(MISSING)\"\n"⟩] :=
  ⟨rfl, (doors_agree (.verbose 3 "m" [.text "err", .nat 1, .text "err"]) talkative
    (talkative.setOutput 0) rfl).1, by decide +kernel⟩

end FrontCall

end Logline
