import Mathlib
import Logline.Proofs.SinkStack

/-!
# Helper marks of derived sinks

A helper decorator marks the current frame before each record. Asked for a depth, it hands the question on
to the sink that it decorates, and an answer that it gets comes back without the decorator. So a helper
decorator around a root outlasts all extensions by values; of those by depths it outlasts all if the root
has no use for depths (`Sink.extend_helper_of_kept`), and none if it has (`Sink.extend_helper_of_lost`).

Main statement: `Sink.emit_extend_helper`. Each record is preceded by one run of the root's helper if and
only if the root cannot attribute records to a frame further out or was not asked to.
-/

namespace Logline

namespace Sink

/-- What a sink is extended by: values, or a depth that it is asked for. -/
inductive Extension where
  | values (kvs : List Value)
  | depth (n : Nat)

def Extension.derivation : Extension → Derivation
  | .values kvs => .values kvs
  | .depth n => .depth n

/-- The sink that extensions make of a sink, the first one first. -/
def extend (s : Sink) (xs : List Extension) : Sink := s.derive (xs.map Extension.derivation)

theorem extend_cons (s : Sink) (x : Extension) (xs : List Extension) :
    s.extend (x :: xs) = (x.derivation.apply s).extend xs := rfl

/-! ### The decorator -/

theorem IsRoot.hasCallDepth_withValues {s : Sink} (h : s.IsRoot) (kvs : List Value) :
    (s.withValues kvs).hasCallDepth = s.hasCallDepth := by
  cases s with
  | recording r =>
    rw [hasCallDepth, hasCallDepth, Sink.withValues, withCallDepth?, withCallDepth?]
    split <;> rfl
  | engine values current => rfl
  | basic name muted values => rfl
  | _ => exact h.elim

theorem withCallDepth_helper_of_hasCallDepth {s : Sink} (h : s.hasCallDepth = true) (n : Nat) :
    (helper s).withCallDepth n = s.withCallDepth n := by
  rw [← withCallDepth?_isSome s n, Option.isSome_iff_exists] at h
  obtain ⟨deeper, hdeeper⟩ := h
  have houter : (helper s).withCallDepth? n = some deeper := hdeeper
  rw [withCallDepth, withCallDepth, houter, hdeeper, Option.getD_some, Option.getD_some]

/-- The first depth that a root has a use for takes the helper decorator around it away. -/
theorem extend_helper_of_lost {root : Sink} (h : root.IsRoot) (hcan : root.hasCallDepth = true)
    {xs : List Extension} (hasked : ∃ n, .depth n ∈ xs) : (helper root).extend xs = root.extend xs := by
  induction xs generalizing root with
  | nil =>
    obtain ⟨n, hn⟩ := hasked
    cases hn
  | cons x xs ih =>
    rw [extend_cons, extend_cons]
    cases x with
    | values kvs =>
      have hlater : ∃ n, .depth n ∈ xs := by
        obtain ⟨n, hn⟩ := hasked
        exact ⟨n, (List.mem_cons.mp hn).resolve_left nofun⟩
      exact ih (h.withValues kvs) ((h.hasCallDepth_withValues kvs).trans hcan) hlater
    | depth n =>
      change ((helper root).withCallDepth n).extend xs = _
      rw [withCallDepth_helper_of_hasCallDepth hcan]
      rfl

theorem extend_helper_of_kept {root : Sink} (h : root.IsRoot) {xs : List Extension}
    (hkept : root.hasCallDepth = false ∨ ∀ n, .depth n ∉ xs) :
    (helper root).extend xs = helper (root.extend xs) := by
  induction xs generalizing root with
  | nil => rfl
  | cons x xs ih =>
    have hlater : root.hasCallDepth = false ∨ ∀ n, .depth n ∉ xs :=
      hkept.imp_right fun hnone n hn => hnone n (List.mem_cons_of_mem x hn)
    rw [extend_cons, extend_cons]
    cases x with
    | values kvs =>
      rw [← h.hasCallDepth_withValues kvs] at hlater
      exact ih (h.withValues kvs) hlater
    | depth n =>
      have hcannot : root.hasCallDepth = false := hkept.resolve_right fun hnone => hnone n List.mem_cons_self
      have hcannotOuter : (helper root).hasCallDepth = false := hcannot
      change ((helper root).withCallDepth n).extend xs = helper ((root.withCallDepth n).extend xs)
      rw [withCallDepth_of_not_hasCallDepth hcannotOuter, withCallDepth_of_not_hasCallDepth hcannot]
      exact ih h hlater

/-! ### Records -/

theorem hasCallDepth_recording (r : Recording) : (recording r).hasCallDepth = r.supportsCallDepth := by
  rw [hasCallDepth, withCallDepth?]
  cases r.supportsCallDepth <;> rfl

theorem extend_recording (r : Recording) (xs : List Extension) :
    ∃ values callDepth, (recording r).extend xs = .recording { r with values, callDepth } := by
  induction xs generalizing r with
  | nil => exact ⟨r.values, r.callDepth, rfl⟩
  | cons x xs ih =>
    cases x with
    | values kvs => exact ih { r with values := KeyValues.withValues r.values kvs }
    | depth n =>
      rw [extend_cons, Extension.derivation, Derivation.apply, withCallDepth_recording]
      exact ih { r with callDepth := if r.supportsCallDepth then r.callDepth + n else r.callDepth }

/-- A helper decorator around a recording sink, extended in any way, brings one record to the recorder for
each that it gets. The helper of the recording sink is run once before that, if the sink has no use for
depths or no depth was asked for; otherwise it is not run at all. -/
theorem emit_extend_helper (r : Recording) (h : r.supportsHelper = true) (xs : List Extension)
    (record : LogRecord) :
    ∃ entry : RecordedEntry,
      (entry.site = record.site ∧ entry.severity = record.severity ∧ entry.message = record.message ∧
        entry.kvs = record.kvs) ∧
      (((helper (recording r)).extend xs).emit record =
          [.helperMarked r.recorder, .recorded r.recorder entry] ↔
        r.supportsCallDepth = false ∨ ∀ n, .depth n ∉ xs) ∧
      (r.supportsCallDepth = true ∧ (∃ n, .depth n ∈ xs) →
        ((helper (recording r)).extend xs).emit record = [.recorded r.recorder entry]) := by
  obtain ⟨values, callDepth, hextend⟩ := extend_recording r xs
  have hroot : (recording r).IsRoot := trivial
  refine ⟨⟨record.site, record.severity, record.message, values, record.kvs, callDepth⟩,
    ⟨rfl, rfl, rfl, rfl⟩, ?_⟩
  have hlost : r.supportsCallDepth = true ∧ (∃ n, .depth n ∈ xs) →
      ((helper (recording r)).extend xs).emit record = [.recorded r.recorder
        ⟨record.site, record.severity, record.message, values, record.kvs, callDepth⟩] := by
    rintro ⟨hcan, hasked⟩
    rw [extend_helper_of_lost hroot ((hasCallDepth_recording r).trans hcan) hasked, hextend, emit]
  refine ⟨⟨fun hmarked => ?_, fun hkept => ?_⟩, hlost⟩
  · by_contra hnot
    push Not at hnot
    rw [hlost ⟨Bool.eq_true_of_not_eq_false hnot.1, hnot.2⟩] at hmarked
    cases hmarked
  · rw [← hasCallDepth_recording] at hkept
    rw [extend_helper_of_kept hroot hkept, hextend, emit, helper?, if_pos h, emit]
    rfl

theorem emit_extend_helper_marking :
    marking.supportsHelper = true ∧ ∃ entry : RecordedEntry,
      ((helper (recording marking)).extend [.depth 1, .values [.text "k"], .depth 2]).emit
          ⟨⟨"a.rs", 7⟩, .info, "m", []⟩ = [.helperMarked 0, .recorded 0 entry] ∧ entry.message = "m" := by
  obtain ⟨entry, ⟨-, -, hmessage, -⟩, hmarked, -⟩ := emit_extend_helper marking rfl
    [.depth 1, .values [.text "k"], .depth 2] ⟨⟨"a.rs", 7⟩, .info, "m", []⟩
  exact ⟨rfl, entry, hmarked.mpr (Or.inl rfl), hmessage⟩

/-- A recording sink with both abilities. -/
def able : Recording := { recorder := 0, supportsCallDepth := true, supportsHelper := true }

/-- A root with both abilities that is asked for a depth gets its record, but its helper is not run. -/
theorem not_helperMarked_depth :
    ((helper (recording able)).extend [.depth 1]).emit ⟨⟨"a.rs", 7⟩, .info, "m", []⟩ =
        [.recorded 0 ⟨⟨"a.rs", 7⟩, .info, "m", [], [], 1⟩] ∧
      ¬ ∃ entry : RecordedEntry,
        ((helper (recording able)).extend [.depth 1]).emit ⟨⟨"a.rs", 7⟩, .info, "m", []⟩ =
          [.helperMarked 0, .recorded 0 entry] := by
  have hemit : ((helper (recording able)).extend [.depth 1]).emit ⟨⟨"a.rs", 7⟩, .info, "m", []⟩ =
      [.recorded 0 ⟨⟨"a.rs", 7⟩, .info, "m", [], [], 1⟩] := by
    change ((recording able).withCallDepth 1).emit _ = _
    rw [withCallDepth_recording, emit]
    rfl
  refine ⟨hemit, ?_⟩
  rintro ⟨entry, hmarked⟩
  cases hemit.symm.trans hmarked

end Sink

end Logline
