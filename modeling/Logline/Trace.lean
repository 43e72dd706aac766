import Logline.Value
/-!
# Runs of hooks

Formatting a record runs hooks, and which ones it runs is part of what it does. A traced computation has
a result and the log of the hooks it ran, in order; traced computations compose like plain ones, and their
logs are joined.

Main statements: `value_bind` and `calls_bind`.
-/

namespace Logline

/-- One run of a hook. -/
inductive HookCall where
  | shown (h : ShowHook)
  | details (d : Details)
  | marshal (probe : Option String) (panic : Option Panic) (value : Value)
  | encoded (e : Encoder)
  | written (h : WriteHook)
  /-- The formatter's own hook was run on a value. -/
  | fallback (v : Value)
  /-- The error argument of a log call was turned into a value. -/
  | conversion

/-- The name under which a run is counted. -/
def HookCall.probe? : HookCall → Option String
  | .shown h => h.probe
  | .details (.produced probe _) => probe
  | .marshal probe _ _ => probe
  | .conversion => some "into"
  | _ => none

/-- A result with the hooks that were run for it. -/
structure Traced (α : Type) where
  value : α
  calls : List HookCall

namespace Traced

instance : Monad Traced where
  pure a := ⟨a, []⟩
  bind x f := ⟨(f x.value).value, x.calls ++ (f x.value).calls⟩

/-- Runs a hook. -/
def call (c : HookCall) : Traced Unit := ⟨(), [c]⟩

variable {α β : Type}

@[simp] theorem value_pure (a : α) : (pure a : Traced α).value = a := rfl

@[simp] theorem calls_pure (a : α) : (pure a : Traced α).calls = [] := rfl

@[simp] theorem value_bind (x : Traced α) (f : α → Traced β) :
    (x >>= f).value = (f x.value).value := rfl

@[simp] theorem calls_bind (x : Traced α) (f : α → Traced β) :
    (x >>= f).calls = x.calls ++ (f x.value).calls := rfl

@[simp] theorem value_call (c : HookCall) : (call c).value = () := rfl

@[simp] theorem calls_call (c : HookCall) : (call c).calls = [c] := rfl

end Traced

/-- Runs a hook that shows a value. -/
def ShowHook.traced (h : ShowHook) : Traced (Except Panic String) := ⟨h.run, [.shown h]⟩

end Logline
