import Mathlib
import Logline.Logger
import Logline.Proofs.Delivery
import Logline.Proofs.Guards
import Logline.Proofs.HookRuns
import Logline.Proofs.SinkStack

/-!
# Gating

A logger asks its sink first whether a record would be taken, and decorators hand the question on to the
root: no derivation changes the answers (`Sink.gate_derive`). So what is let through depends on the root
alone, and at the lowest severity also on the sum of the logger's levels (`Logger.level_derive`).

Main statement: `LoggerCall.run_gated`. What is not let through has no effect at all. What is let through
brings one record to the root, unless an argument panics: those of messages are shown, and errors are
converted, without a guard, and so such a call is left by the panic before the sink gets anything.
-/

namespace Logline

/-! ### What a root takes -/

namespace Sink

/-- The highest verbosity level that a stack takes at the lowest severity. Only roots decide on it; the
engine takes the level from its thresholds, and a user's own sink takes them all. -/
def verbosityLimit (thresholds : Thresholds) : Sink → Nat
  | .engine _ _ => thresholds.verbosity.toNat
  | .recording r => r.verbosity.toNat
  | .basic _ _ _ => 4294967295
  | .callDepth inner _ => inner.verbosityLimit thresholds
  | .helper inner => inner.verbosityLimit thresholds
  | .context inner _ _ _ => inner.verbosityLimit thresholds

theorem verbosityEnabled_iff (s : Sink) (thresholds : Thresholds) (level : UInt32) :
    s.verbosityEnabled thresholds level = true ↔ level.toNat ≤ s.verbosityLimit thresholds := by
  induction s with
  | engine values depth => exact decide_eq_true_iff.trans UInt32.le_iff_toNat_le
  | recording r => exact decide_eq_true_iff.trans UInt32.le_iff_toNat_le
  | basic name muted values =>
    have hmax : level.toNat < 4294967296 := level.toNat_lt
    exact ⟨fun _ => Nat.le_of_lt_succ hmax, fun _ => rfl⟩
  | callDepth inner offset ih => exact ih
  | helper inner ih => exact ih
  | context inner c keys flavor ih => exact ih

/-- What a sink answers when it is asked about records that may come. -/
def gate (s : Sink) : (Severity → Bool) × (Thresholds → Nat) := (s.enabled, s.verbosityLimit)

theorem gate_withValues (s : Sink) (kvs : List Value) : (s.withValues kvs).gate = s.gate := by
  induction s with
  | callDepth inner offset ih => exact ih
  | helper inner ih => exact ih
  | context inner c keys flavor ih => exact ih
  | _ => rfl

theorem gate_withCallDepth (s : Sink) (depth : Nat) : (s.withCallDepth depth).gate = s.gate := by
  induction s with
  | recording r =>
    rw [withCallDepth_recording]
    rfl
  | helper inner ih =>
    rcases withCallDepth_helper inner depth with heq | ⟨heq, -⟩
    · rw [heq]
      exact ih
    · rw [heq]
  | context inner c keys flavor ih => cases flavor <;> rfl
  | _ => rfl

theorem gate_derive (s : Sink) (ds : List Derivation) : (s.derive ds).gate = s.gate := by
  induction ds generalizing s with
  | nil => rfl
  | cons d ds ih =>
    have hstep : (d.apply s).gate = s.gate := by
      cases d with
      | values kvs => exact gate_withValues s kvs
      | depth n => exact gate_withCallDepth s n
      | context c keys => rfl
      | offset n => rfl
      | helper => rfl
    exact (ih (d.apply s)).trans hstep

/-- Whether a sink lets a record through that has a severity and, at the lowest severity, a verbosity
level. -/
def Admits (s : Sink) (thresholds : Thresholds) (severity : Severity) (level : Nat) : Prop :=
  s.enabled severity = true ∧ (severity = .info → level ≤ s.verbosityLimit thresholds)

theorem admits_derive (s : Sink) (ds : List Derivation) (thresholds : Thresholds) (severity : Severity)
    (level : Nat) :
    (s.derive ds).Admits thresholds severity level ↔ s.Admits thresholds severity level := by
  have hsame := gate_derive s ds
  have henabled : (s.derive ds).enabled severity = s.enabled severity :=
    congrArg (fun gate => gate.1 severity) hsame
  have hlimit : (s.derive ds).verbosityLimit thresholds = s.verbosityLimit thresholds :=
    congrArg (fun gate => gate.2 thresholds) hsame
  rw [Admits, Admits, henabled, hlimit]

end Sink

/-! ### Derived loggers -/

namespace Logger

/-- What a logger can be derived with. -/
inductive Derivation where
  | values (kvs : List Value)
  | name (part : String)
  | context (c : Context) (keys : List ContextKey)
  | depth (n : Nat)
  | verbosity (level : UInt32)

namespace Derivation

/-- The logger that a derivation makes of a logger. -/
def apply (l : Logger) : Derivation → Logger
  | .values kvs => l.withValues kvs
  | .name part => l.withName part
  | .context c keys => l.withContext c keys
  | .depth n => l.withCallDepth n
  | .verbosity level => l.v level

/-- What a derivation does to the sink, if it does something to it. -/
def sink? : Derivation → Option Sink.Derivation
  | .values kvs => some (.values kvs)
  | .context c keys => some (.context c keys)
  | .depth n => some (.depth n)
  | .name _ => none
  | .verbosity _ => none

end Derivation

/-- The logger that derivations make of a logger, the first one first. -/
def derive (l : Logger) (ds : List Derivation) : Logger := ds.foldl Derivation.apply l

/-- The verbosity levels of derivations, added up. -/
def totalLevel : List Derivation → Nat
  | [] => 0
  | .verbosity level :: ds => level.toNat + totalLevel ds
  | _ :: ds => totalLevel ds

theorem sink_derive (l : Logger) (ds : List Derivation) :
    (l.derive ds).sink = l.sink.derive (ds.filterMap Derivation.sink?) := by
  induction ds generalizing l with
  | nil => rfl
  | cons d ds ih =>
    have hrest : (l.derive (d :: ds)).sink = (d.apply l).sink.derive (ds.filterMap Derivation.sink?) :=
      ih (d.apply l)
    cases d with
    | _ => exact hrest

theorem toNat_addLevels (a b : UInt32) : (addLevels a b).toNat = min (a.toNat + b.toNat) 4294967295 := by
  rw [addLevels, UInt32.toNat_ofNat_of_lt']
  exact Nat.lt_succ_of_le (Nat.min_le_right _ _)

/-- Levels add up to the highest one at most. -/
theorem level_derive (l : Logger) (ds : List Derivation) :
    (l.derive ds).level.toNat = min (l.level.toNat + totalLevel ds) 4294967295 := by
  induction ds generalizing l with
  | nil =>
    have hmax : l.level.toNat < 4294967296 := l.level.toNat_lt
    exact (Nat.min_eq_left (Nat.le_of_lt_succ hmax)).symm
  | cons d ds ih =>
    have hrest : (l.derive (d :: ds)).level.toNat =
        min ((d.apply l).level.toNat + totalLevel ds) 4294967295 := ih (d.apply l)
    cases d with
    | verbosity level =>
      have hstep : (Derivation.apply l (.verbosity level)).level.toNat =
          min (l.level.toNat + level.toNat) 4294967295 := toNat_addLevels l.level level
      rw [hrest, hstep, totalLevel]
      omega
    | _ => exact hrest

/-- A level of zero needs no question to the sink: it is within every limit. -/
theorem enabled_iff (l : Logger) (e : Engine) (severity : Severity) :
    l.enabled e severity = true ↔ l.sink.Admits e.settings.thresholds severity l.level.toNat := by
  rw [enabled, Bool.and_eq_true]
  refine and_congr_right fun _ => ?_
  by_cases hinfo : severity = .info
  · by_cases hzero : l.level = 0
    · simp [hinfo, hzero]
    · simp [hinfo, hzero, Sink.verbosityEnabled_iff]
  · simp [hinfo]

/-- Of all derivations of sinks and loggers only the levels count for what is let through. -/
theorem enabled_derive_iff (root : Sink) (stack : List Sink.Derivation) (ds : List Derivation) (e : Engine)
    (severity : Severity) :
    (derive { sink := root.derive stack } ds).enabled e severity = true ↔
      root.Admits e.settings.thresholds severity (min (totalLevel ds) 4294967295) := by
  rw [enabled_iff, sink_derive, level_derive, Sink.admits_derive, Sink.admits_derive]
  exact iff_of_eq (congrArg (fun n => root.Admits _ _ (min n _)) (Nat.zero_add _))

end Logger

/-! ### Calls -/

/-- A log call through a logger. Those that are named after a severity are calls of `log`. -/
inductive LoggerCall where
  | log (severity : Severity) (message : String) (kvs : List Value)
  /-- `cause` is what the conversion of the error comes to. -/
  | error (cause : Except Panic Value) (message : String) (kvs : List Value)
  | print (severity : Severity) (m : Message)

namespace LoggerCall

/-- Carries out a call. -/
def run (l : Logger) (e : Engine) (site : CallSite) : LoggerCall → Outcome Unit × Engine
  | .log severity message kvs => l.log e site severity message kvs
  | .error cause message kvs => l.error e site cause message kvs
  | .print severity m => l.print e site severity m

def severity : LoggerCall → Severity
  | .log severity _ _ => severity
  | .error _ _ _ => .error
  | .print severity _ => severity

/-- The message and the pairs of a call, or the panic that puts an end to it. -/
def request : LoggerCall → Traced (Except Panic (String × List Value))
  | .log _ message kvs => pure (.ok (message, kvs))
  | .error cause message kvs => do
    Traced.call .conversion
    pure (cause.map fun v => (message, .text "err" :: v :: kvs))
  | .print _ m => do
    match ← m.toText with
    | .ok text => pure (.ok (text, []))
    | .error p => pure (.error p)

/-- How often a call that is let through turns an argument into a value. -/
def conversions : LoggerCall → Nat
  | .error _ _ _ => 1
  | _ => 0

theorem run_eq (c : LoggerCall) (l : Logger) (e : Engine) (site : CallSite) :
    c.run l e site =
      if l.enabled e c.severity then
        match c.request.value with
        | .ok (message, kvs) => l.emit (e.absorb c.request).2 site c.severity message kvs
        | .error p => (.error (.panic p), (e.absorb c.request).2)
      else (.ok (), e) := by
  cases c with
  | log s message kvs =>
    have hidle : (e.absorb (request (.log s message kvs))).2 = e := by
      rw [Engine.absorb, request, Traced.calls_pure, List.append_nil]
    rw [hidle]
    rfl
  | error cause message kvs => cases cause <;> rfl
  | print s m =>
    cases htext : m.toText.value <;>
      simp [run, Logger.print, LoggerCall.severity, request, Engine.absorb, htext]

end LoggerCall

/-! ### Conversions -/

/-- Whether the run of a hook turned the error argument of a call into a value. -/
def HookCall.isConversion : HookCall → Bool
  | .conversion => true
  | _ => false

/-- How often a computation turns an error argument into a value. -/
def Traced.conversions {α : Type} (t : Traced α) : Nat := t.calls.countP HookCall.isConversion

/-- How often an error argument was turned into a value. -/
def Engine.conversions (e : Engine) : Nat := e.calls.countP HookCall.isConversion

namespace Traced

variable {α β : Type}

@[simp] theorem conversions_pure (a : α) : (pure a : Traced α).conversions = 0 := rfl

@[simp] theorem conversions_bind (x : Traced α) (f : α → Traced β) :
    (x >>= f).conversions = x.conversions + (f x.value).conversions := by
  rw [conversions, calls_bind, List.countP_append]
  rfl

end Traced

namespace Formatter

variable (f : Formatter)

theorem isConversion_anyRuns (v : Value) : ∀ call ∈ f.anyRuns v, call.isConversion = false := by
  unfold anyRuns
  split
  · exact List.forall_mem_singleton.mpr rfl
  · cases v <;> simp [Value.encodingRuns, HookCall.isConversion]

/-- No hook of a pair turns an error argument into a value. -/
theorem isConversion_pairRuns (pair : Value × Value) :
    ∀ call ∈ f.pairRuns pair, call.isConversion = false := by
  have hany := f.isConversion_anyRuns
  obtain ⟨key, value⟩ := pair
  refine List.forall_mem_append.mpr ⟨?_, ?_⟩
  · cases key <;> simp [Value.keyRuns, HookCall.isConversion]
  · cases value with
    | fault fault =>
      have hdetails : ∀ call ∈ fault.detailsRuns, call.isConversion = false := by
        intro call hmem
        cases call with
        | conversion => cases (kind_of_mem_detailsRuns hmem).2
        | _ => rfl
      refine List.forall_mem_cons.mpr ⟨rfl, List.forall_mem_append.mpr ⟨hdetails, ?_⟩⟩
      cases fault.loggedDetails? with
      | none => exact List.forall_mem_nil _
      | some d => exact hany (.json d)
    | marshal probe panic v =>
      rcases f.valueRuns_marshal probe panic v with heq | heq
      · exact heq ▸ List.forall_mem_singleton.mpr rfl
      · exact heq ▸ List.forall_mem_cons.mpr ⟨rfl, hany v⟩
    | written h => exact List.forall_mem_singleton.mpr rfl
    | shown h => exact List.forall_mem_singleton.mpr rfl
    | text s => exact List.forall_mem_nil _
    | bytes bs => exact List.forall_mem_nil _
    | _ => exact hany _

theorem conversions_writeLists (buf : Bytes) (lists : List (List Value)) :
    (f.writeLists buf lists).conversions = 0 := by
  rw [Traced.conversions, calls_writeLists, List.countP_eq_zero]
  intro call hmem
  obtain ⟨pair, -, hcall⟩ := List.mem_flatMap.mp hmem
  rw [calls_writePair] at hcall
  exact Bool.eq_false_iff.mp (f.isConversion_pairRuns pair call hcall)

end Formatter

/-- Showing the pieces of a message converts nothing. -/
theorem Message.conversions_toText (m : Message) : m.toText.conversions = 0 := by
  have hpieces : ∀ pieces, (assemble pieces).conversions = 0 := by
    intro pieces
    induction pieces with
    | nil => rfl
    | cons piece rest ih =>
      have hrun : piece.run.conversions = 0 := by cases piece <;> rfl
      rw [assemble, Traced.conversions_bind, hrun]
      cases piece.ending <;> simp [ih]
  rw [toText, Traced.conversions_bind, hpieces]
  generalize (assemble m.pieces).value = assembled
  obtain ⟨text, ending⟩ := assembled
  cases ending <;> rfl

theorem LoggerCall.conversions_request (c : LoggerCall) : c.request.conversions = c.conversions := by
  cases c with
  | log s message kvs => rfl
  | error cause message kvs => rfl
  | print s m =>
    cases hvalue : m.toText.value <;> simp [request, conversions, m.conversions_toText, hvalue]

namespace Engine

theorem conversions_absorb {α : Type} (e : Engine) (t : Traced α) :
    (e.absorb t).2.conversions = e.conversions + t.conversions :=
  List.countP_append

theorem conversions_output (e : Engine) (severity : Severity) (buffer : Buffer) :
    (e.output severity buffer).2.conversions = e.conversions := by
  obtain ⟨outcome, outlets, stats, exits, heq⟩ := e.output_frame severity buffer
  rw [heq]
  rfl

theorem conversions_printStructured (e : Engine) (site : CallSite) (severity : Severity) (message : String)
    (lists : List (List Value)) :
    (e.printStructured site severity message lists).2.conversions = e.conversions := by
  have hnone : (e.structured site severity message lists).conversions = 0 :=
    e.formatter.conversions_writeLists _ lists
  rcases e.printStructured_cases site severity message lists with ⟨-, heq⟩ | ⟨before, c, p, hleaves, heq⟩
  · rw [heq, conversions_output]
    exact List.countP_append.trans (congrArg (e.conversions + ·) hnone)
  · have hran : (before ++ [c]).countP HookCall.isConversion = 0 :=
      Nat.le_zero.mp (hnone ▸ hleaves.runs.sublist.countP_le)
    rw [heq]
    exact List.countP_append.trans (congrArg (e.conversions + ·) hran)

theorem conversions_deliver (e : Engine) (d : Delivery) : (e.deliver d).2.conversions = e.conversions := by
  cases d with
  | logged record values callDepth => exact e.conversions_printStructured _ _ _ _
  | recorded recorder entry => rfl
  | emitted name record values =>
    have hwritten := ({} : Formatter).conversions_writeLists
      (Text.utf8 (record.severity.name ++ " " ++ record.site.text ++ " " ++ record.message))
      [values, record.kvs]
    exact (e.conversions_absorb (basicText record values)).trans (congrArg (e.conversions + ·) hwritten)
  | helperMarked recorder => rfl

theorem conversions_deliverAll (e : Engine) (ds : List Delivery) :
    (e.deliverAll ds).2.conversions = e.conversions := by
  induction ds generalizing e with
  | nil => rfl
  | cons d ds ih =>
    have hfirst := e.conversions_deliver d
    rw [deliverAll]
    split
    · next e' heq =>
      rw [heq] at hfirst
      exact (ih e').trans hfirst
    · next i e' heq =>
      rw [heq] at hfirst
      exact hfirst

end Engine

/-! ### What a call does -/

namespace Sink

/-- Whether a delivery brings a record to a root, whatever values and depth the root adds to it. -/
def Receives (record : LogRecord) (delivery : Delivery) : Sink → Prop
  | .engine _ _ => ∃ values depth, delivery = .logged record values depth
  | .recording r => ∃ values depth, delivery = .recorded r.recorder
      ⟨record.site, record.severity, record.message, values, record.kvs, depth⟩
  | .basic name _ _ => ∃ values, delivery = .emitted name record values
  | _ => False

theorem IsRoot.exists_receives {s : Sink} (h : s.IsRoot) (record : LogRecord) :
    ∃ d : Delivery, s.emit record = [d] ∧ s.Receives record d := by
  cases s with
  | engine values callDepth => exact ⟨_, Sink.emit.eq_1 .., values, callDepth, rfl⟩
  | recording r => exact ⟨_, Sink.emit.eq_2 .., r.values, r.callDepth, rfl⟩
  | basic name muted values => exact ⟨_, Sink.emit.eq_3 .., values, rfl⟩
  | _ => exact h.elim

/-- A root receives what it receives with other values or another depth. -/
theorem IsRoot.receives_applyGround {s : Sink} (h : s.IsRoot) (d : Derivation) :
    (d.applyGround s).IsRoot ∧
      ∀ record delivery, (d.applyGround s).Receives record delivery ↔ s.Receives record delivery := by
  have hdeeper : ∀ n, (s.withCallDepth n).IsRoot ∧
      ∀ record delivery, (s.withCallDepth n).Receives record delivery ↔ s.Receives record delivery := by
    intro n
    refine ⟨h.withCallDepth n, fun record delivery => ?_⟩
    cases s with
    | recording r =>
      rw [withCallDepth_recording]
      rfl
    | engine values current => rfl
    | basic name muted values => rfl
    | _ => exact h.elim
  cases d with
  | values kvs =>
    refine ⟨h.withValues kvs, fun record delivery => ?_⟩
    cases s with
    | engine | recording | basic => rfl
    | _ => exact h.elim
  | depth n => exact hdeeper n
  | context c keys => exact ⟨h, fun _ _ => Iff.rfl⟩
  | offset n => exact hdeeper n
  | helper => exact ⟨h, fun _ _ => Iff.rfl⟩

theorem IsRoot.receives_foldl {s : Sink} (h : s.IsRoot) (ds : List Derivation) (record : LogRecord)
    (delivery : Delivery) :
    (ds.foldl Derivation.applyGround s).Receives record delivery ↔ s.Receives record delivery := by
  induction ds generalizing s with
  | nil => rfl
  | cons d ds ih =>
    obtain ⟨hroot, hstep⟩ := h.receives_applyGround d
    exact (ih hroot).trans (hstep record delivery)

/-- A stack brings one record to its root for each that it gets, and may mark helper frames before. -/
theorem emit_derive_eq {root : Sink} (hroot : root.IsRoot) (ds : List Derivation) (record : LogRecord) :
    ∃ (marks : List Delivery) (d : Delivery), (∀ m ∈ marks, m.isRecord = false) ∧
      root.Receives { record with kvs := record.kvs ++ contextPairs ds } d ∧
      (root.derive ds).emit record = marks ++ [d] := by
  obtain ⟨hcomposed, hground, hadded⟩ := hroot.plain
  have hpairs : (root.derive ds).added = contextPairs ds := by
    rw [added_derive, hadded, List.append_nil]
  obtain ⟨marks, hmarks, hemit⟩ := emit_eq (hcomposed.derive ds) record
  obtain ⟨d, hd, hreceives⟩ := (isRoot_ground (root.derive ds)).exists_receives
    { record with kvs := record.kvs ++ (root.derive ds).added }
  rw [hd] at hemit
  rw [ground_derive hcomposed, hground, hroot.receives_foldl, hpairs] at hreceives
  refine ⟨marks, d, fun m hm => ?_, hreceives, hemit⟩
  exact Bool.eq_false_of_not_eq_true (List.filter_eq_nil_iff.mp hmarks.1 m hm)

end Sink

/-- A root that comes with the library: the engine, or a recording sink. -/
def Sink.IsBuiltIn : Sink → Prop
  | .engine _ _ => True
  | .recording _ => True
  | _ => False

theorem Sink.IsBuiltIn.isRoot {s : Sink} (h : s.IsBuiltIn) : s.IsRoot := by
  cases s with
  | engine values depth => trivial
  | recording r => trivial
  | _ => exact h.elim

namespace LoggerCall

/-- A call through a logger on a stack is let through if and only if the root of the stack admits its
severity and, at the lowest severity, the sum of all levels of the logger, capped. If it is not let
through, it returns and nothing has changed. If it is, its argument is converted once if it has one, and
one record is brought to the root; only a call with an argument that panics, in a message or when an error
is converted, is left by that panic, with no other effect than the runs of hooks until then. What the stack
holds of depths is never more than the depth of the root and all depths of the derivations. -/
theorem run_gated (root : Sink) (hroot : root.IsBuiltIn) (stack : List Sink.Derivation)
    (ds : List Logger.Derivation) (c : LoggerCall) (e : Engine) (site : CallSite) :
    let l := Logger.derive { sink := root.derive stack } ds
    let all := stack ++ ds.filterMap Logger.Derivation.sink?
    let admitted := root.Admits e.settings.thresholds c.severity (min (Logger.totalLevel ds) 4294967295)
    let begun := (e.absorb c.request).2
    (¬ admitted → c.run l e site = (.ok (), e)) ∧
      (admitted → ∀ message kvs, c.request.value = .ok (message, kvs) →
        ∃ (marks : List Delivery) (d : Delivery), (∀ m ∈ marks, m.isRecord = false) ∧
          root.Receives ⟨site, c.severity, message, l.named kvs ++ Sink.contextPairs all⟩ d ∧
          c.run l e site = begun.deliverAll (marks ++ [d])) ∧
      (admitted → ∀ p, c.request.value = .error p →
        ((∃ m, c = .print c.severity m) ∨ ∃ message kvs, c = .error (.error p) message kvs) ∧
          c.run l e site = (.error (.panic p), begun)) ∧
      (admitted → (c.run l e site).2.conversions = e.conversions + c.conversions) ∧
      l.sink.heldDepth ≤ root.heldDepth + Sink.totalDepth all := by
  intro l all admitted begun
  have hgate : l.enabled e c.severity = true ↔ admitted :=
    Logger.enabled_derive_iff root stack ds e c.severity
  have hsink : l.sink = root.derive all := by
    rw [Logger.sink_derive, Sink.derive, Sink.derive, Sink.derive, List.foldl_append]
  have hrun : admitted → c.run l e site =
      match c.request.value with
      | .ok (message, kvs) => l.emit begun site c.severity message kvs
      | .error p => (.error (.panic p), begun) := fun h => by
    rw [run_eq, if_pos (hgate.mpr h)]
  have hbegun : begun.conversions = e.conversions + c.conversions := by
    rw [Engine.conversions_absorb, conversions_request]
  refine ⟨fun h => ?_, fun h message kvs hrequest => ?_, fun h p hrequest => ?_, fun h => ?_, ?_⟩
  · rw [run_eq, if_neg (mt hgate.mp h)]
  · obtain ⟨marks, d, hmarks, hreceives, hemit⟩ := Sink.emit_derive_eq hroot.isRoot all
      ⟨site, c.severity, message, l.named kvs⟩
    refine ⟨marks, d, hmarks, hreceives, ?_⟩
    rw [hrun h, hrequest, ← hemit, ← hsink]
    rfl
  · constructor
    · cases c with
      | log s message kvs => cases hrequest
      | error cause message kvs =>
        cases cause with
        | ok v => cases hrequest
        | error q =>
          cases hrequest
          exact .inr ⟨message, kvs, rfl⟩
      | print s m => exact .inl ⟨m, rfl⟩
    · rw [hrun h, hrequest]
  · rw [hrun h, ← hbegun]
    cases c.request.value with
    | ok request => exact begun.conversions_deliverAll _
    | error p => rfl
  · rw [hsink]
    exact Sink.heldDepth_derive_le root all

/-- The level of the logger is at its cap, and so is the limit of the root. An error whose conversion panics
is converted once, too. -/
theorem run_gated_capped :
    let root := Sink.recording Sink.marking
    let ds : List Logger.Derivation := [.verbosity 4294967295, .name "net", .depth 2, .verbosity 7]
    let l := Logger.derive { sink := root.derive Sink.interleaved } ds
    let e := Engine.initial {} ⟨1, 1, 0, 0, 0, 0⟩ 1
    root.IsBuiltIn ∧
      (∃ (marks : List Delivery) (d : Delivery), (∀ m ∈ marks, m.isRecord = false) ∧
        root.Receives ⟨⟨"a.rs", 7⟩, .info, "m", [.text "logger", .text "net", .text "k", .text "span",
          .nat 2, .text "trace", .nat 1]⟩ d ∧
        (LoggerCall.log .info "m" [.text "k"]).run l e ⟨"a.rs", 7⟩ = e.deliverAll (marks ++ [d])) ∧
      ((LoggerCall.error (.error .other) "m" []).run l e ⟨"a.rs", 7⟩).1 = .error (.panic .other) ∧
      ((LoggerCall.error (.error .other) "m" []).run l e ⟨"a.rs", 7⟩).2.conversions = 1 := by
  intro root ds l e
  have hroot : root.IsBuiltIn := trivial
  have hadmitted : ∀ severity,
      root.Admits e.settings.thresholds severity (min (Logger.totalLevel ds) 4294967295) := fun severity =>
    ⟨by cases severity <;> rfl, fun _ => by decide⟩
  obtain ⟨-, hemits, -, -, -⟩ := run_gated root hroot Sink.interleaved ds
    (.log .info "m" [.text "k"]) e ⟨"a.rs", 7⟩
  obtain ⟨-, -, hpanics, hconverted, -⟩ := run_gated root hroot Sink.interleaved ds
    (.error (.error .other) "m" []) e ⟨"a.rs", 7⟩
  exact ⟨hroot, hemits (hadmitted .info) "m" [.text "k"] rfl,
    congrArg Prod.fst (hpanics (hadmitted .error) .other rfl).2, hconverted (hadmitted .error)⟩

/-- A record that is let through is not always emitted: a message whose argument panics brings none, though
its hook was run. -/
theorem not_emitted_panicking :
    let root := Sink.recording { recorder := 0 }
    let half : ShowHook := { text := "half", ending := .panics (.message "p") }
    let e := (Engine.initial {} ⟨1, 1, 0, 0, 0, 0⟩ 1).addRecorder.2
    let result :=
      (LoggerCall.print .info ⟨[.literal "m", .argument half]⟩).run { sink := root } e ⟨"a.rs", 7⟩
    root.Admits e.settings.thresholds .info (min (Logger.totalLevel []) 4294967295) ∧
      result.1 = .error (.panic (.message "p")) ∧ (result.2.recorder 0).entries = [] ∧
      result.2.calls = [.shown half] := by
  exact ⟨⟨rfl, fun _ => by decide⟩, rfl, rfl, rfl⟩

end LoggerCall

end Logline
