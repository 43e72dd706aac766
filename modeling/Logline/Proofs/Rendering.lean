import Mathlib
import Logline.Formatter.Lists
import Logline.Proofs.Compaction

/-!
# A pair is rendered the same way everywhere

Writing a pair only appends to the buffer, and what it appends depends on the pair and the formatter
alone: not on what the buffer holds (`writePair_value`, `writePair_calls`). So a pair has a *rendering*:
a space, the octets of its key, and the rest.

The guarded parts cut the buffer back where a hook failed. They cut it back to a place behind the part
that was there before, which is why all of them still append (`Appends`).
-/

namespace Logline

/-- What one pair is written as: a space, the key and the value. The value begins with the equals sign,
and for an error it takes the pair for the details in. -/
structure Rendering where
  key : Bytes
  value : Bytes
  deriving DecidableEq, Repr

/-- The octets of a pair. -/
def Rendering.bytes (r : Rendering) : Bytes := 0x20 :: (r.key ++ r.value)

theorem Rendering.length_bytes (r : Rendering) :
    r.bytes.length = 1 + r.key.length + r.value.length := by
  simp only [bytes, List.length_cons, List.length_append]
  omega

/-- Writing adds octets to the buffer that do not depend on it, and runs hooks that do not either. -/
def Appends (write : Bytes → Traced Bytes) : Prop :=
  ∀ buf, (write buf).value = buf ++ (write []).value ∧ (write buf).calls = (write []).calls

namespace Formatter

variable (f : Formatter)

/-! ### The parts of a pair -/

theorem appends_writeKey (key : Value) : Appends fun buf => writeKey buf key := by
  intro buf
  cases key <;> simp [writeKey]

theorem appends_writeWritten (h : WriteHook) : Appends fun buf => writeWritten buf h := by
  intro buf
  cases hpanic : h.panic with
  | none => simp [writeWritten, hpanic]
  | some p =>
    constructor
    · simp only [writeWritten, hpanic, Traced.value_bind, Traced.value_pure, List.take_left]
      simp only [List.append_assoc, List.nil_append]
    · simp [writeWritten, hpanic]

theorem appends_writeAny (value : Value) : Appends fun buf => f.writeAny buf value := by
  intro buf
  cases hfallback : f.fallback with
  | some hook => simp [writeAny, hfallback]
  | none =>
    cases hfailure : (encodeValue value).value.2 with
    | none => simp [writeAny, hfallback, hfailure]
    | some message =>
      constructor
      · simp only [writeAny, hfallback, hfailure, Traced.value_bind, Traced.value_pure, List.take_left]
        simp only [List.append_assoc, List.nil_append]
      · simp [writeAny, hfallback, hfailure]

theorem appends_writeFault (key : Bytes) (fault : Fault) :
    Appends fun buf => f.writeFault buf key fault := by
  intro buf
  cases hdetails : fault.evaluate.value with
  | none => simp [writeFault, hdetails]
  | some result =>
    -- the pair for the details is appended to what is there, before and after
    have hvalue := fun start (v : Value) => (f.appends_writeAny v start).1
    have hcalls := fun start (v : Value) => (f.appends_writeAny v start).2
    constructor
    · simp only [writeFault, Traced.value_bind, hdetails, hvalue (_ ++ _)]
      simp only [List.append_assoc, List.nil_append]
    · simp only [writeFault, Traced.calls_bind, hdetails, hcalls (_ ++ _)]

theorem appends_writeValue (key : Bytes) (value : Value) :
    Appends fun buf => f.writeValue buf key value := by
  intro buf
  cases value with
  | written h => exact appends_writeWritten h buf
  | fault fault => exact f.appends_writeFault key fault buf
  | marshal probe panic v =>
    have hany := fun v : Value => f.appends_writeAny v buf
    simp only [writeValue, Traced.value_bind, Traced.calls_bind]
    split
    · simp
    · next other _ => exact ⟨(hany _).1, by rw [(hany _).2]⟩
  | shown h => simp [writeValue]
  | text s => simp [writeValue]
  | bytes bs => simp [writeValue]
  | _ => exact f.appends_writeAny _ buf

/-! ### The pair -/

/-- The octets that a key is written as. -/
def keyBytes (key : Value) : Bytes := (writeKey [] key).value

/-- The octets that a value is written as behind a key. -/
def valueBytes (key : Bytes) (value : Value) : Bytes := (f.writeValue [] key value).value

/-- The rendering of a pair. -/
def rendering (pair : Value × Value) : Rendering :=
  ⟨keyBytes pair.1, f.valueBytes (keyBytes pair.1) pair.2⟩

theorem slice_key (buf key : Bytes) :
    Span.slice ⟨(buf ++ Text.utf8 " ").length, (buf ++ Text.utf8 " " ++ key).length⟩
      (buf ++ Text.utf8 " " ++ key) = key := by
  have h := Span.slice_append_append (buf ++ Text.utf8 " ") key []
  rwa [List.append_nil, ← List.length_append] at h

/-- A pair is written as its rendering behind whatever is there, and its key stands behind the space. -/
theorem writePair_value (buf : Bytes) (key value : Value) :
    (f.writePair buf key value).value =
      (buf ++ (f.rendering (key, value)).bytes,
        ⟨buf.length + 1, buf.length + 1 + (f.rendering (key, value)).key.length⟩) := by
  have hkey := fun start => (appends_writeKey key start).1
  have hvalue := fun start k => (f.appends_writeValue k value start).1
  have hspace : Text.utf8 " " = [0x20] := by decide
  simp only [writePair, Traced.value_bind, Traced.value_pure, hkey (_ ++ _), slice_key, hvalue (_ ++ _)]
  simp only [rendering, Rendering.bytes, keyBytes, valueBytes, hspace, List.append_assoc,
    List.nil_append, List.cons_append, List.length_append, List.length_cons, List.length_nil,
    Nat.add_assoc, Nat.zero_add, Nat.add_comm 1]

theorem writePair_calls (buf : Bytes) (key value : Value) :
    (f.writePair buf key value).calls =
      (writeKey [] key).calls ++ (f.writeValue [] (keyBytes key) value).calls := by
  have hkey := fun start => (appends_writeKey key start).1
  have hkeyCalls := fun start => (appends_writeKey key start).2
  have hvalueCalls := fun start k => (f.appends_writeValue k value start).2
  simp only [writePair, Traced.calls_bind, Traced.calls_pure, hkey (_ ++ _),
    hkeyCalls (_ ++ _), slice_key, hvalueCalls (_ ++ _), keyBytes, List.append_nil]

/-! ### Hooks that are run for lists -/

theorem calls_writePairs (p : Progress) (pairs : List (Value × Value)) :
    (f.writePairs p pairs).calls = pairs.flatMap fun pair => (f.writePair [] pair.1 pair.2).calls := by
  induction pairs generalizing p with
  | nil => rfl
  | cons pair rest ih =>
    obtain ⟨k, v⟩ := pair
    rw [writePairs, Traced.calls_bind, ih, List.flatMap_cons, writePair_calls, writePair_calls]

/-- Which pairs stay has no influence on the hooks that are run. -/
theorem calls_writeLists (buf : Bytes) (lists : List (List Value)) :
    (f.writeLists buf lists).calls =
      (lists.flatMap KeyValues.completePairs).flatMap fun pair => (f.writePair [] pair.1 pair.2).calls := by
  rw [writeLists, Traced.calls_bind, Traced.calls_pure, List.append_nil, calls_writePairs]

end Formatter

end Logline
