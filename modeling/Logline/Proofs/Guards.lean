import Mathlib
import Logline.Engine

/-!
# Panics that get out of a guard

The failure of a hook is caught, and a placeholder is written for it. What is left of the failure is thrown
away behind the guard, and if that panics in turn, the log call is left by this panic. Of the hooks of the
call those are run that come before; its buffer goes back to the pool, and its line is not put out.

Main statement: `Engine.printStructured_cases`. Where nothing gets out of a guard (`Formatter.Contains`), the
line is written and output, and otherwise the call ends at the first hook that something gets out of.
-/

namespace Logline

namespace Formatter

variable (f : Formatter)

/-- Nothing gets out of the guard of a hook. -/
def Contains (calls : List HookCall) : Prop := ∀ c ∈ calls, f.escape? c = none

instance (calls : List HookCall) : Decidable (f.Contains calls) :=
  inferInstanceAs (Decidable (∀ c ∈ calls, f.escape? c = none))

/-- A panic gets out of the guard of a hook, and of none of those that are run before it. -/
structure LeavesAt (calls before : List HookCall) (c : HookCall) (p : Panic) : Prop where
  runs : before ++ [c] <+: calls
  contains : f.Contains before
  escapes : f.escape? c = some p

theorem LeavesAt.not_contains {f : Formatter} {calls before : List HookCall} {c : HookCall} {p : Panic}
    (h : f.LeavesAt calls before c p) : ¬ f.Contains calls := by
  intro hcontains
  have hnone : f.escape? c = none :=
    hcontains c (h.runs.subset (List.mem_append_right before List.mem_cons_self))
  rw [h.escapes] at hnone
  cases hnone

theorem contains_or_leavesAt (calls : List HookCall) :
    f.Contains calls ∨ ∃ before c p, f.LeavesAt calls before c p := by
  induction calls with
  | nil => exact .inl (List.forall_mem_nil _)
  | cons c rest ih =>
    cases hescape : f.escape? c with
    | some p => exact .inr ⟨[], c, p, ⟨rest, rfl⟩, List.forall_mem_nil _, hescape⟩
    | none =>
      rcases ih with hcontains | ⟨before, d, p, hleaves⟩
      · exact .inl (List.forall_mem_cons.mpr ⟨hescape, hcontains⟩)
      · refine .inr ⟨c :: before, d, p, ?_, ?_, hleaves.escapes⟩
        · exact List.cons_prefix_cons.mpr ⟨rfl, hleaves.runs⟩
        · exact List.forall_mem_cons.mpr ⟨hescape, hleaves.contains⟩

variable {f}

theorem runGuarded_of_contains {calls : List HookCall} (h : f.Contains calls) :
    f.runGuarded calls = (calls, .ok ()) := by
  induction calls with
  | nil => rfl
  | cons c rest ih =>
    obtain ⟨hc, hrest⟩ := List.forall_mem_cons.mp h
    rw [runGuarded, hc, ih hrest]

theorem LeavesAt.runGuarded {calls before : List HookCall} {c : HookCall} {p : Panic}
    (h : f.LeavesAt calls before c p) : f.runGuarded calls = (before ++ [c], .error p) := by
  obtain ⟨⟨rest, rfl⟩, hcontains, hescapes⟩ := h
  induction before with
  | nil => simp [Formatter.runGuarded, hescapes]
  | cons b before ih =>
    obtain ⟨hb, hbefore⟩ := List.forall_mem_cons.mp hcontains
    rw [List.cons_append, List.cons_append, Formatter.runGuarded, hb, ih hbefore]

variable {α : Type} {t : Traced α}

theorem guardHooks_of_contains (h : f.Contains t.calls) : f.guardHooks t = ⟨.ok t.value, t.calls⟩ := by
  rw [guardHooks, runGuarded_of_contains h]
  rfl

theorem LeavesAt.guardHooks {before : List HookCall} {c : HookCall} {p : Panic}
    (h : f.LeavesAt t.calls before c p) : f.guardHooks t = ⟨.error p, before ++ [c]⟩ := by
  rw [Formatter.guardHooks, h.runGuarded]
  rfl

end Formatter

namespace Engine

variable (e : Engine) (site : CallSite) (severity : Severity) (message : String) (lists : List (List Value))

/-- What a call with a message and pairs writes into the buffer that it gets, if nothing gets out of a
guard. -/
def structured : Traced Bytes :=
  e.formatter.writeStructured (e.acquire.1.bytes ++ e.headerOf severity site) message lists

/-- A call with pairs outputs its line, or it is left by the first panic that gets out of a guard. -/
theorem printStructured_cases :
    (e.formatter.Contains (e.structured site severity message lists).calls ∧
        e.printStructured site severity message lists =
          output { e.acquire.2 with calls := e.calls ++ (e.structured site severity message lists).calls }
            severity
            { e.acquire.1 with bytes := finishLine (e.structured site severity message lists).value }) ∨
      ∃ before c p, e.formatter.LeavesAt (e.structured site severity message lists).calls before c p ∧
        e.printStructured site severity message lists =
          (.error (.panic p), { e with
            pool := e.pool.acquire.2.release e.pool.acquire.1, calls := e.calls ++ (before ++ [c]) }) := by
  rcases e.formatter.contains_or_leavesAt (e.structured site severity message lists).calls with
    hcontains | ⟨before, c, p, hleaves⟩
  · have heq := Formatter.guardHooks_of_contains hcontains
    refine .inl ⟨hcontains, ?_⟩
    simp only [structured, headerOf, acquire] at heq
    simp only [printStructured, absorb, headerOf, acquire, heq]
    rfl
  · have heq := hleaves.guardHooks
    refine .inr ⟨before, c, p, hleaves, ?_⟩
    simp only [structured, headerOf, acquire] at heq
    simp only [printStructured, absorb, headerOf, acquire, heq]

end Engine

end Logline
