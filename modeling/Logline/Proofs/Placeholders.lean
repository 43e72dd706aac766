import Mathlib
import Logline.Proofs.Deduplication

/-!
# Failing hooks and their placeholders

A value with a failing hook has a replacement that says the same and cannot fail: the hook is replaced by
one that returns the placeholder. `Formatter.settlePair` replaces the key and the value of a pair, each on
its own, and nothing in a pair whose hooks complete (`settlePair_of_completes`).

`rendering_settlePair`: the replacement is written as the original is, so that nothing of what a failed
hook produced is left. `completes_settlePair`: no hook fails any more that is run for it. Lists of pairs
are therefore written as if nothing had failed (`writeLists_settle`).

A hook that is not run does not count as failing. With a fallback of its own the formatter never encodes a
value, and so a failing encoder is left as it is.

Some placeholders are put between quotes as they are (`Formatter.unquoted?`), and their replacements write
them so. A text in their place would be written the same way only if it needed no quoting
(`rendering_textPair`).
-/

namespace Logline

/-- Whether the run of a hook gives its result. -/
def HookCall.Completes (f : Formatter) : HookCall → Prop
  | .shown h => h.ending = .returns
  | .details d => ∃ v, d.value = .ok v
  | .marshal _ panic _ => panic = none
  | .encoded e => ∃ v, e = .completes v
  | .written h => h.panic = none
  | .fallback v => ∀ hook ∈ f.fallback, ∃ s, hook v = .ok s
  | .conversion => True

/-! ### Replacing hooks -/

/-- A hook that shows the placeholder, if this one fails. -/
def ShowHook.settled (h : ShowHook) : ShowHook :=
  match h.run with
  | .ok _ => h
  | .error p => { h with text := p.placeholder, ending := .returns }

/-- A hook that writes the placeholder in quotes, if this one panics. -/
def WriteHook.settled (h : WriteHook) : WriteHook :=
  match h.panic with
  | none => h
  | some p => { written := Text.utf8 ("\"" ++ p.placeholder ++ "\"") }

/-- The details of an error, or the placeholder of their panic. -/
def guardedDetails : Except Panic Json → Json
  | .ok v => v
  | .error p => .string p.placeholder

/-- An error whose text is the placeholder, if its text cannot be shown. -/
def Fault.settledText (fault : Fault) : Fault :=
  { fault with base := { fault.base with shown := fault.base.shown.settled } }

/-- An error whose text and whose details are placeholders, each if it fails. -/
def Fault.settled (fault : Fault) : Fault :=
  match fault.evaluate.value with
  | some (.error p) => { fault.settledText with layers := [.eager (.string p.placeholder)] }
  | _ => fault.settledText

/-- A value that writes that an encoder failed. -/
def Value.internalError (message : String) : Value :=
  .written { written := Text.utf8 ("\"<internal error: " ++ message ++ ">\"") }

namespace Formatter

variable (f : Formatter)

/-- The formatter whose fallback shows the placeholder where the fallback of this one panics. -/
def settled : Formatter :=
  { f with fallback := f.fallback.map fun hook v => .ok (guarded (hook v)) }

/-- A replacement that is needed only where values are encoded. -/
def unlessFallback (value replacement : Value) : Value :=
  match f.fallback with
  | some _ => value
  | none => replacement

/-- The replacement of a value that has no form of its own. -/
def settleAny (value : Value) : Value :=
  match value with
  | .encoded (.stops _ failure) => f.unlessFallback value (.internalError failure.message)
  | .written ⟨_, some p⟩ => f.unlessFallback value (.internalError p.placeholder)
  | .shown h => f.unlessFallback value (.shown h.settled)
  | .fault fault => f.unlessFallback value (.fault fault.settledText)
  | other => other

/-- The replacement of a value. -/
def settleValue : Value → Value
  | .written h => .written h.settled
  | .shown h => .shown h.settled
  | .fault fault => .fault fault.settled
  | .marshal probe (some p) _ => .marshal probe none (.text p.placeholder)
  | .marshal probe none v => .marshal probe none (f.settleAny v)
  | other => f.settleAny other

/-- The replacement of a key. -/
def settleKey : Value → Value
  | .shown h => .shown h.settled
  | other => other

/-- The replacement of a pair. -/
def settlePair (pair : Value × Value) : Value × Value := (settleKey pair.1, f.settleValue pair.2)

end Formatter

/-- A list of keys and values in turn, with each of them replaced. -/
def KeyValues.replace (key value : Value → Value) : List Value → List Value
  | [] => []
  | [k] => [key k]
  | k :: v :: rest => key k :: value v :: replace key value rest

theorem KeyValues.completePairs_replace (key : Value → Value) {value : Value → Value}
    (h : value .missing = .missing) (kvs : List Value) :
    completePairs (replace key value kvs) =
      (completePairs kvs).map fun pair => (key pair.1, value pair.2) := by
  induction kvs using pairs.induct with
  | case1 => rfl
  | case2 k => exact congrArg (fun v => [(key k, v)]) h.symm
  | case3 k v rest ih => exact congrArg ((key k, value v) :: ·) ih

/-! ### Hooks -/

namespace ShowHook

variable (h : ShowHook)

theorem ending_settled : h.settled.ending = .returns := by
  rw [settled, run]
  cases hending : h.ending <;> simp [hending]

theorem guarded_run_settled : guarded h.settled.run = guarded h.run := by
  rw [settled]
  split
  · rfl
  · next p hrun => rw [hrun]; rfl

theorem settled_of_returns (hreturns : h.ending = .returns) : h.settled = h := by
  rw [settled, run, hreturns]

end ShowHook

namespace Fault

variable (fault : Fault)

theorem settledText_of_returns (hreturns : fault.shown.ending = .returns) : fault.settledText = fault := by
  obtain ⟨⟨shown, cause⟩, layers⟩ := fault
  have hshown : shown.settled = shown := shown.settled_of_returns hreturns
  simp only [settledText, hshown]

theorem shown_settled : fault.settled.shown = fault.shown.settled := by
  rw [settled]
  split <;> rfl

theorem evaluate_settled :
    fault.settled.evaluate.value = fault.evaluate.value.map fun result =>
      .ok (guardedDetails result) := by
  rw [settled]
  cases hvalue : fault.evaluate.value with
  | none => exact hvalue
  | some result =>
    cases result with
    | ok v => exact hvalue
    | error p => rfl

end Fault

/-! ### Details -/

namespace Details

/-- The producer that is run for a layer. -/
def runs : Details → List HookCall
  | .eager _ => []
  | .produced probe result => [.details (.produced probe result)]

variable (d : Details) (rest : List Details)

theorem evaluateAll_cons :
    (evaluateAll (d :: rest)).value =
        (match d.value with
        | .error p => .error p
        | .ok v => (evaluateAll rest).value.map (v :: ·)) ∧
      (evaluateAll (d :: rest)).calls =
        d.runs ++ match d.value with
          | .error _ => []
          | .ok _ => (evaluateAll rest).calls := by
  cases hrest : (evaluateAll rest).value <;> cases hd : d.value <;>
    cases d <;> simp [evaluateAll, runs, hd, hrest, Except.map]

variable (f : Formatter) {d}

theorem completes_runs {v : Json} (hd : d.value = .ok v) : ∀ call ∈ d.runs, call.Completes f := by
  intro call hcall
  cases d with
  | eager => exact (List.not_mem_nil hcall).elim
  | produced probe result => exact List.mem_singleton.mp hcall ▸ ⟨v, hd⟩

theorem evaluateAll_ok_iff (layers : List Details) :
    (∃ vs, (evaluateAll layers).value = .ok vs) ↔
      ∀ call ∈ (evaluateAll layers).calls, call.Completes f := by
  induction layers with
  | nil => exact ⟨fun _ call hcall => (List.not_mem_nil hcall).elim, fun _ => ⟨[], rfl⟩⟩
  | cons d rest ih =>
    obtain ⟨hvalue, hcalls⟩ := evaluateAll_cons d rest
    rw [hvalue, hcalls]
    cases hd : d.value with
    | error p =>
      refine ⟨fun ⟨_, h⟩ => (nomatch h), fun h => ?_⟩
      cases d with
      | eager v => cases hd
      | produced probe result =>
        obtain ⟨v, hv⟩ := h (.details (.produced probe result)) (by simp [runs])
        rw [hd] at hv
        cases hv
    | ok v =>
      have hmap : (∃ vs, (evaluateAll rest).value.map (v :: ·) = .ok vs) ↔
          ∃ vs, (evaluateAll rest).value = .ok vs := by
        cases (evaluateAll rest).value <;> simp [Except.map]
      rw [hmap, ih, List.forall_mem_append]
      exact (and_iff_right (completes_runs f hd)).symm

end Details

namespace Fault

variable (f : Formatter) (fault : Fault)

theorem calls_evaluate :
    fault.evaluate.calls = if fault.layers.isEmpty then [] else (Details.evaluateAll fault.layers).calls := by
  rw [evaluate]
  split
  · rfl
  · cases hvalue : (Details.evaluateAll fault.layers).value with
    | error p => simp [hvalue]
    | ok vs => cases vs <;> simp [hvalue]

/-- The details fail if and only if a producer does that is run for them. -/
theorem evaluate_error_iff :
    (∃ p, fault.evaluate.value = some (.error p)) ↔
      ¬ ∀ call ∈ fault.evaluate.calls, call.Completes f := by
  rw [calls_evaluate]
  by_cases hempty : fault.layers.isEmpty
  · simp [evaluate, hempty]
  · rw [if_neg hempty, ← Details.evaluateAll_ok_iff, evaluate, if_neg hempty]
    cases hvalue : (Details.evaluateAll fault.layers).value with
    | error p => simp [hvalue]
    | ok vs => cases vs <;> simp [hvalue]

theorem completes_evaluate_settled : ∀ call ∈ fault.settled.evaluate.calls, call.Completes f := by
  by_contra hfails
  obtain ⟨p, hp⟩ := (evaluate_error_iff f _).mpr hfails
  rw [evaluate_settled] at hp
  cases hvalue : fault.evaluate.value <;> simp [hvalue] at hp

theorem settled_of_completes (hshown : fault.shown.ending = .returns)
    (hdetails : ∀ call ∈ fault.evaluate.calls, call.Completes f) : fault.settled = fault := by
  rw [settled]
  split
  · next p hp => exact ((evaluate_error_iff f fault).mp ⟨p, hp⟩ hdetails).elim
  · exact fault.settledText_of_returns hshown

end Fault

/-! ### Values -/

namespace Formatter

variable (f : Formatter)

theorem completes_showGuarded (h : ShowHook) :
    ∀ call ∈ (showGuarded h.settled).calls, call.Completes f := by
  intro call hcall
  obtain rfl : call = .shown h.settled := by simpa [showGuarded, ShowHook.traced] using hcall
  exact h.ending_settled

theorem value_showGuarded (h : ShowHook) : (showGuarded h).value = guarded h.run := rfl

theorem settleAny_of_fallback (hook : Value → Except Panic String) (disposal : HookCall → Option Panic)
    (value : Value) : settleAny ⟨some hook, disposal⟩ value = value := by
  unfold settleAny
  split <;> rfl

/-- Behind an equals sign the replacement is written as the original, and no hook fails for it. -/
theorem writeAny_settleAny (value : Value) :
    (f.settled.writeAny [] (f.settleAny value)).value = (f.writeAny [] value).value ∧
      ∀ call ∈ (f.settled.writeAny [] (f.settleAny value)).calls, call.Completes f.settled := by
  obtain ⟨_ | hook, disposal⟩ := f
  · cases value with
    | encoded e =>
      cases e with
      | completes v => exact ⟨rfl, List.forall_mem_singleton.mpr ⟨v, rfl⟩⟩
      | stops written failure =>
        refine ⟨?_, List.forall_mem_singleton.mpr rfl⟩
        simp [settleAny, unlessFallback, settled, Value.internalError, writeAny, encodeValue]
    | written h =>
      obtain ⟨written, _ | p⟩ := h
      · exact ⟨rfl, List.forall_mem_singleton.mpr rfl⟩
      · refine ⟨?_, List.forall_mem_singleton.mpr rfl⟩
        simp [settleAny, unlessFallback, settled, Value.internalError, writeAny, encodeValue]
    | shown h =>
      refine ⟨?_, fun call hcall => completes_showGuarded _ h call ?_⟩
      · simp [settleAny, unlessFallback, settled, writeAny, encodeValue, value_showGuarded,
          h.guarded_run_settled]
      · simpa [settleAny, unlessFallback, settled, writeAny, encodeValue] using hcall
    | fault fault =>
      have hshown : fault.settledText.shown = fault.shown.settled := rfl
      refine ⟨?_, fun call hcall => completes_showGuarded _ fault.shown call ?_⟩
      · simp [settleAny, unlessFallback, settled, writeAny, encodeValue, value_showGuarded, hshown,
          fault.shown.guarded_run_settled]
      · simpa [settleAny, unlessFallback, settled, writeAny, encodeValue, hshown] using hcall
    | float x =>
      refine ⟨rfl, fun call hcall => ?_⟩
      by_cases hfinite : x.isFinite <;> simp [settleAny, settled, writeAny, encodeValue, hfinite] at hcall
    | _ => exact ⟨rfl, List.forall_mem_nil _⟩
  · -- the fallback is asked about the value itself, and its panic is guarded
    rw [settleAny_of_fallback]
    refine ⟨rfl, fun call hcall => ?_⟩
    obtain rfl : call = .fallback value := List.mem_singleton.mp hcall
    intro hook' hhook'
    obtain rfl := Option.some.inj hhook'
    exact ⟨_, rfl⟩

theorem settleAny_of_completes (value : Value)
    (h : ∀ call ∈ (f.writeAny [] value).calls, call.Completes f) : f.settleAny value = value := by
  obtain ⟨_ | hook, disposal⟩ := f
  · cases value with
    | encoded e =>
      cases e with
      | completes v => rfl
      | stops written failure =>
        obtain ⟨v, hv⟩ := h (.encoded (.stops written failure)) (by simp [writeAny, encodeValue])
        cases hv
    | written w =>
      have hpanic : w.panic = none := h (.written w) (by simp [writeAny, encodeValue])
      obtain ⟨written, panic⟩ := w
      cases hpanic
      rfl
    | shown s =>
      have hreturns : s.ending = .returns := h (.shown s) (by simp [writeAny, encodeValue, showGuarded,
        ShowHook.traced])
      exact congrArg Value.shown (s.settled_of_returns hreturns)
    | fault fault =>
      have hreturns : fault.shown.ending = .returns := h (.shown fault.shown) (by
        simp [writeAny, encodeValue, showGuarded, ShowHook.traced])
      exact congrArg Value.fault (fault.settledText_of_returns hreturns)
    | _ => rfl
  · exact settleAny_of_fallback hook disposal value

theorem writeFault_settled (key : Bytes) (fault : Fault) :
    (f.settled.writeFault [] key fault.settled).value = (f.writeFault [] key fault).value ∧
      ∀ call ∈ (f.settled.writeFault [] key fault.settled).calls, call.Completes f.settled := by
  have hshown : guarded fault.settled.shown.run = guarded fault.shown.run := by
    rw [fault.shown_settled, fault.shown.guarded_run_settled]
  have hshownCalls : ∀ call ∈ (showGuarded fault.settled.shown).calls, call.Completes f.settled := by
    rw [fault.shown_settled]
    exact f.settled.completes_showGuarded fault.shown
  have hdetailsCalls := fault.completes_evaluate_settled f.settled
  have hdetails := fault.evaluate_settled
  cases hvalue : fault.evaluate.value with
  | none =>
    rw [hvalue, Option.map_none] at hdetails
    simp only [writeFault, Traced.value_bind, Traced.calls_bind, hdetails, hvalue, value_showGuarded, hshown,
      Traced.value_pure, Traced.calls_pure, List.append_nil, List.forall_mem_append]
    exact ⟨trivial, hshownCalls, hdetailsCalls⟩
  | some result =>
    -- the pair for the details stands behind what is written of the text, which is the same
    rw [hvalue, Option.map_some] at hdetails
    simp only [writeFault, Traced.value_bind, Traced.calls_bind, hdetails, hvalue, value_showGuarded, hshown,
      List.forall_mem_append]
    rw [(f.settled.appends_writeAny _ _).1, (f.appends_writeAny _ _).1, (f.settled.appends_writeAny _ _).2]
    obtain ⟨hwritten, hcalls⟩ := f.writeAny_settleAny (.json (guardedDetails result))
    exact ⟨congrArg _ hwritten, hshownCalls, hdetailsCalls, hcalls⟩

theorem settleAny_ne_text {value : Value} (hne : ∀ s, value ≠ .text s) (s : String) :
    f.settleAny value ≠ .text s := by
  have hunless : ∀ replacement : Value, replacement ≠ .text s →
      f.unlessFallback value replacement ≠ .text s := by
    intro replacement hreplacement
    unfold unlessFallback
    split
    · exact hne s
    · exact hreplacement
  unfold settleAny
  split
  · exact hunless _ (by simp [Value.internalError])
  · exact hunless _ (by simp [Value.internalError])
  · exact hunless _ (by simp)
  · exact hunless _ (by simp)
  · exact hne s

/-- A value that another one stands for is written as if it had no form of its own, unless it is a text. -/
theorem writeValue_marshal (key : Bytes) (probe : Option String) {v : Value} (hne : ∀ s, v ≠ .text s) :
    f.writeValue [] key (.marshal probe none v) = (do
      Traced.call (.marshal probe none v)
      f.writeAny [] v) := by
  cases v with
  | text s => exact (hne s rfl).elim
  | _ => rfl

/-- Behind its key the replacement of a value is written as the original, and no hook fails for it. -/
theorem writeValue_settleValue (key : Bytes) (value : Value) :
    (f.settled.writeValue [] key (f.settleValue value)).value = (f.writeValue [] key value).value ∧
      ∀ call ∈ (f.settled.writeValue [] key (f.settleValue value)).calls, call.Completes f.settled := by
  have hany := f.writeAny_settleAny
  cases value with
  | written h =>
    obtain ⟨written, _ | p⟩ := h
    · exact ⟨rfl, List.forall_mem_singleton.mpr rfl⟩
    · refine ⟨?_, List.forall_mem_singleton.mpr rfl⟩
      simp [settleValue, WriteHook.settled, writeValue, writeWritten]
  | shown h =>
    refine ⟨?_, fun call hcall => completes_showGuarded _ h call ?_⟩
    · simp [settleValue, writeValue, value_showGuarded, h.guarded_run_settled]
    · simpa [settleValue, writeValue] using hcall
  | fault fault => exact f.writeFault_settled key fault
  | marshal probe panic v =>
    cases panic with
    | some p => exact ⟨rfl, List.forall_mem_singleton.mpr rfl⟩
    | none =>
      by_cases hne : ∀ s, v ≠ .text s
      · rw [show f.settleValue (.marshal probe none v) = .marshal probe none (f.settleAny v) from rfl,
          f.settled.writeValue_marshal key probe (f.settleAny_ne_text hne), f.writeValue_marshal key probe hne]
        refine ⟨(hany v).1, fun call hcall => ?_⟩
        rcases List.mem_cons.mp hcall with rfl | hlater
        · rfl
        · exact (hany v).2 call hlater
      · push Not at hne
        obtain ⟨s, rfl⟩ := hne
        exact ⟨rfl, List.forall_mem_singleton.mpr rfl⟩
  | encoded e =>
    cases e with
    | completes v => exact hany (.encoded (.completes v))
    | stops written failure =>
      obtain ⟨_ | hook, disposal⟩ := f
      · -- the replacement writes itself, where the original is encoded and cut off
        refine ⟨?_, List.forall_mem_singleton.mpr rfl⟩
        simp [settleValue, settleAny, unlessFallback, Value.internalError, writeValue, writeWritten,
          writeAny, encodeValue]
      · exact hany (.encoded (.stops written failure))
  | text s => exact ⟨rfl, List.forall_mem_nil _⟩
  | bytes bs => exact ⟨rfl, List.forall_mem_nil _⟩
  | null => exact hany .null
  | bool b => exact hany (.bool b)
  | int i => exact hany (.int i)
  | nat n => exact hany (.nat n)
  | float x => exact hany (.float x)
  | json v => exact hany (.json v)

theorem settleValue_of_completes (key : Bytes) (value : Value)
    (h : ∀ call ∈ (f.writeValue [] key value).calls, call.Completes f) : f.settleValue value = value := by
  have hany := f.settleAny_of_completes
  cases value with
  | written w =>
    have hpanic : w.panic = none := h (.written w) (by
      cases hw : w.panic <;> simp [writeValue, writeWritten, hw])
    obtain ⟨written, panic⟩ := w
    cases hpanic
    rfl
  | shown s =>
    have hreturns : s.ending = .returns := h (.shown s) (by simp [writeValue, showGuarded, ShowHook.traced])
    exact congrArg Value.shown (s.settled_of_returns hreturns)
  | fault fault =>
    simp only [writeValue, writeFault, Traced.calls_bind, List.forall_mem_append] at h
    obtain ⟨hshown, hdetails, -⟩ := h
    have hreturns : fault.shown.ending = .returns := hshown (.shown fault.shown) (by
      simp [showGuarded, ShowHook.traced])
    exact congrArg Value.fault (fault.settled_of_completes f hreturns hdetails)
  | marshal probe panic v =>
    have hpanic : panic = none := h (.marshal probe panic v) (by simp [writeValue])
    subst hpanic
    refine congrArg (Value.marshal probe none) ?_
    by_cases hne : ∀ s, v ≠ .text s
    · rw [f.writeValue_marshal key probe hne] at h
      exact hany v fun call hcall => h call (List.mem_cons_of_mem _ hcall)
    · push Not at hne
      obtain ⟨s, rfl⟩ := hne
      rfl
  | encoded e => exact hany (.encoded e) h
  | _ => rfl

/-! ### Keys and pairs -/

theorem writeKey_settleKey (key : Value) :
    (writeKey [] (settleKey key)).value = (writeKey [] key).value ∧
      ∀ call ∈ (writeKey [] (settleKey key)).calls, call.Completes f := by
  cases key with
  | shown h =>
    refine ⟨?_, fun call hcall => completes_showGuarded f h call ?_⟩
    · simp [settleKey, writeKey, value_showGuarded, h.guarded_run_settled]
    · simpa [settleKey, writeKey] using hcall
  | _ => exact ⟨rfl, List.forall_mem_nil _⟩

theorem settleKey_of_completes (key : Value) (h : ∀ call ∈ (writeKey [] key).calls, call.Completes f) :
    settleKey key = key := by
  cases key with
  | shown s =>
    have hreturns : s.ending = .returns := h (.shown s) (by simp [writeKey, showGuarded, ShowHook.traced])
    exact congrArg Value.shown (s.settled_of_returns hreturns)
  | _ => rfl

theorem rendering_settlePair (pair : Value × Value) :
    f.settled.rendering (f.settlePair pair) = f.rendering pair := by
  have hkey : keyBytes (settleKey pair.1) = keyBytes pair.1 := (f.writeKey_settleKey pair.1).1
  have hvalue := (f.writeValue_settleValue (keyBytes pair.1) pair.2).1
  simp only [rendering, settlePair, hkey, valueBytes, hvalue]

theorem completes_settlePair (buf : Bytes) (pair : Value × Value) :
    ∀ call ∈ (f.settled.writePair buf (f.settlePair pair).1 (f.settlePair pair).2).calls,
      call.Completes f.settled := by
  rw [writePair_calls, List.forall_mem_append]
  exact ⟨(f.settled.writeKey_settleKey pair.1).2, (f.writeValue_settleValue _ pair.2).2⟩

theorem settlePair_of_completes (buf : Bytes) (pair : Value × Value)
    (h : ∀ call ∈ (f.writePair buf pair.1 pair.2).calls, call.Completes f) : f.settlePair pair = pair := by
  rw [writePair_calls, List.forall_mem_append] at h
  rw [settlePair, f.settleKey_of_completes pair.1 h.1, f.settleValue_of_completes _ pair.2 h.2]

/-! ### Lists of pairs -/

theorem completes_writePairs (p : Progress) (pairs : List (Value × Value)) :
    ∀ call ∈ (f.settled.writePairs p (pairs.map f.settlePair)).calls, call.Completes f.settled := by
  induction pairs generalizing p with
  | nil => exact List.forall_mem_nil _
  | cons pair rest ih =>
    rw [List.map_cons, writePairs, Traced.calls_bind, List.forall_mem_append]
    exact ⟨f.completes_settlePair p.buf pair, ih _⟩

/-- The pairs of lists in which keys and values are replaced. -/
theorem completePairs_map_replace (key : Value → Value) {value : Value → Value}
    (h : value .missing = .missing) (lists : List (List Value)) :
    (lists.map (KeyValues.replace key value)).flatMap KeyValues.completePairs =
      (lists.flatMap KeyValues.completePairs).map fun pair => (key pair.1, value pair.2) := by
  simp only [List.flatMap_map, List.map_flatMap, KeyValues.completePairs_replace key h]

/-- Replacing what fails leaves what is written of lists, and makes all hooks complete. -/
theorem writeLists_settle (buf : Bytes) (lists : List (List Value)) :
    let settled := lists.map (KeyValues.replace settleKey f.settleValue)
    (f.settled.writeLists buf settled).value = (f.writeLists buf lists).value ∧
      ∀ call ∈ (f.settled.writeLists buf settled).calls, call.Completes f.settled := by
  intro settled
  have hpairs : settled.flatMap KeyValues.completePairs =
      (lists.flatMap KeyValues.completePairs).map f.settlePair := completePairs_map_replace settleKey rfl lists
  simp only [writeLists, Traced.value_bind, Traced.value_pure, Traced.calls_bind, Traced.calls_pure,
    List.append_nil, compact_writePairs, hpairs]
  refine ⟨?_, f.completes_writePairs _ _⟩
  simp only [List.map_map, Function.comp_def, rendering_settlePair]

end Formatter

/-! ### Placeholders that are not quoted -/

/-- What is written between quotes where a value could not be encoded. -/
def internalError (message : String) : String := "<internal error: " ++ message ++ ">"

namespace Value

/-- The text that is written between quotes, as it is, because a hook failed to encode the value. -/
def unencoded? : Value → Option String
  | .encoded (.stops _ failure) => some (Logline.internalError failure.message)
  | .written h => h.panic.map fun p => Logline.internalError p.placeholder
  | _ => none

/-- The text that is written between quotes, as it is, because a hook of the value failed. -/
def unquoted? : Value → Option String
  | .written h => h.panic.map Panic.placeholder
  | .marshal _ none v => v.unencoded?
  | .encoded e => unencoded? (.encoded e)
  | _ => none

end Value

namespace Formatter

variable (f : Formatter)

/-- The text that is written between quotes, as it is. With a fallback nothing is encoded. -/
def unquoted? : Value → Option String
  | .written h => h.panic.map Panic.placeholder
  | v => match f.fallback with
    | some _ => none
    | none => v.unquoted?

/-- The replacement of a value, by a text where a placeholder is not quoted. -/
def textOrSettled (value : Value) : Value :=
  match f.unquoted? value with
  | some text => .text text
  | none => f.settleValue value

variable {f} (hf : f.fallback = none)

include hf

theorem value_writeAny_of_failure {v : Value} {message : String}
    (h : (encodeValue v).value.2 = some message) :
    (f.writeAny [] v).value = 0x3D :: Text.utf8 ("\"" ++ internalError message ++ "\"") := by
  have hequals : Text.utf8 "=" = [0x3D] := by decide
  have hopen : "\"<internal error: " = "\"" ++ "<internal error: " := by decide
  have hclose : ">\"" = ">" ++ "\"" := by decide
  have htext : "\"<internal error: " ++ message ++ ">\"" = "\"" ++ internalError message ++ "\"" := by
    unfold internalError
    rw [hopen, hclose]
    simp only [String.append_assoc]
  simp only [writeAny, hf, Traced.value_bind, h, Traced.value_pure, hequals, htext]
  rfl

theorem value_writeAny_of_unencoded {v : Value} {text : String} (h : v.unencoded? = some text) :
    (f.writeAny [] v).value = 0x3D :: Text.utf8 ("\"" ++ text ++ "\"") := by
  cases v with
  | encoded e =>
    cases e with
    | completes written => cases h
    | stops written failure =>
      cases h
      exact value_writeAny_of_failure hf rfl
  | written h' =>
    obtain ⟨written, _ | p⟩ := h'
    · cases h
    · cases h
      exact value_writeAny_of_failure hf rfl
  | _ => cases h

omit hf

theorem valueBytes_of_unquoted {key : Bytes} {v : Value} {text : String} (h : f.unquoted? v = some text) :
    f.valueBytes key v = 0x3D :: Text.utf8 ("\"" ++ text ++ "\"") := by
  have hequals : Text.utf8 "=" = [0x3D] := by decide
  cases v with
  | written h' =>
    obtain ⟨written, _ | p⟩ := h'
    · cases h
    · cases h
      simp only [valueBytes, writeValue, writeWritten, Traced.value_bind, Traced.value_pure, hequals]
      rfl
  | encoded e =>
    obtain ⟨_ | hook, disposal⟩ := f
    · exact value_writeAny_of_unencoded rfl h
    · cases h
  | marshal probe panic v =>
    obtain ⟨_ | hook, disposal⟩ := f
    · cases panic with
      | some p => cases h
      | none =>
        have hne : ∀ s, v ≠ .text s := by
          rintro s rfl
          cases h
        rw [valueBytes, writeValue_marshal _ _ _ hne]
        exact value_writeAny_of_unencoded rfl h
    · cases h
  | _ => obtain ⟨_ | hook, disposal⟩ := f <;> cases h

/-- A text that is written between quotes as it is. -/
def Plain (text : String) : Prop := Text.textValue text = 0x3D :: Text.utf8 ("\"" ++ text ++ "\"")

instance (text : String) : Decidable (Plain text) := inferInstanceAs (Decidable (_ = _))

variable (f)

/-- Where placeholders need no quoting, a text in their place is written as the original. -/
theorem rendering_textPair (pair : Value × Value) (h : ∀ text ∈ f.unquoted? pair.2, Plain text) :
    f.settled.rendering (settleKey pair.1, f.textOrSettled pair.2) = f.rendering pair := by
  rw [textOrSettled]
  cases htext : f.unquoted? pair.2 with
  | none => exact f.rendering_settlePair pair
  | some text =>
    have hkey : keyBytes (settleKey pair.1) = keyBytes pair.1 := (f.writeKey_settleKey pair.1).1
    have hplain : f.settled.valueBytes (keyBytes pair.1) (.text text) =
        f.valueBytes (keyBytes pair.1) pair.2 := by
      rw [valueBytes_of_unquoted htext]
      exact h text htext
    rw [rendering, rendering, hkey, hplain]

theorem value_writeLists_text (buf : Bytes) (lists : List (List Value))
    (h : ∀ pair ∈ lists.flatMap KeyValues.completePairs, ∀ text ∈ f.unquoted? pair.2, Plain text) :
    (f.settled.writeLists buf (lists.map (KeyValues.replace settleKey f.textOrSettled))).value =
      (f.writeLists buf lists).value := by
  have hmissing : f.textOrSettled .missing = .missing := by
    obtain ⟨_ | hook, disposal⟩ := f <;> rfl
  simp only [writeLists, Traced.value_bind, Traced.value_pure, compact_writePairs,
    completePairs_map_replace settleKey hmissing, List.map_map]
  congr 3
  exact List.map_congr_left fun pair hpair => f.rendering_textPair pair (h pair hpair)

end Formatter

end Logline
