import Mathlib
import Logline.Sink

/-!
# Stacks of decorators

A sink is a root with decorators around it, put together in any order. What a decorator does depends on
the abilities that it finds in what it decorates, and they are passed on in different ways. All the same
a stack does what its root would do by itself with one record: the root with all depths of the stack
(`Sink.ground`), given the pairs of all contexts behind those of the call (`Sink.added`), and before
that it may mark helper frames. This is `Sink.emit_eq`; it needs that every context decorator still has
the ability that it would find now (`Sink.Composed`), which every derivation preserves.

What a derivation does to the stack it does to the ground (`Sink.ground_apply`), so the ground of a stack
is its root with the sum of the depths and the values of all derivations (`Sink.ground_derive`).

Main statements: `Sink.emit_derive`, the one record that reaches the root of a stack; and
`Engine.emit_derived`, what is there once the record is carried out: a log call with its values and pairs, or
one more entry of a recorder.
-/

namespace Logline

/-- Whether a delivery brings a record to a root. -/
def Delivery.isRecord : Delivery → Bool
  | .helperMarked _ => false
  | _ => true

namespace KeyValues

theorem padded_of_even {kvs : List Value} (h : kvs.length % 2 = 0) : padded kvs = kvs := if_pos h

theorem withValues_of_even {old : List Value} (h : old.length % 2 = 0) (new : List Value) :
    withValues old new = old ++ padded new := by
  cases new with
  | nil => exact (List.append_nil old).symm
  | cons v rest =>
    rw [withValues, if_neg (by simp), padded, padded, List.length_append, Nat.add_mod, h, Nat.zero_add,
      Nat.mod_mod]
    split_ifs
    · rfl
    · rw [List.append_assoc]

/-- Lists that are added one after the other are added like one list. -/
theorem withValues_withValues {old : List Value} (h : old.length % 2 = 0) (kvs : List Value)
    {more : List Value} (hmore : more.length % 2 = 0) :
    withValues (withValues old kvs) more = withValues old (padded kvs ++ more) := by
  have hpadded := length_padded kvs
  have hlength : (padded kvs ++ more).length % 2 = 0 := by
    rw [List.length_append]
    omega
  rw [withValues_of_even (length_withValues old kvs h), withValues_of_even h, withValues_of_even h,
    padded_of_even hmore, padded_of_even hlength, List.append_assoc]

end KeyValues

namespace Sink

/-! ### Ground -/

/-- The root of a stack, with all depths that the stack has for it. -/
def ground : Sink → Sink
  | .callDepth inner offset => inner.ground.withCallDepth offset
  | .helper inner => inner.ground
  | .context inner _ _ flavor => inner.ground.withCallDepth (Flavor.depth flavor)
  | root => root

/-- The pairs that a stack adds to a record, the outermost context first. -/
def added : Sink → List Value
  | .callDepth inner _ => inner.added
  | .helper inner => inner.added
  | .context inner c keys _ => c.extract keys ++ inner.added
  | _ => []

/-- Every context decorator of the stack has the ability that it would find now. -/
def Composed : Sink → Prop
  | .callDepth inner _ => inner.Composed
  | .helper inner => inner.Composed
  | .context inner _ _ flavor => inner.Composed ∧ flavor = inner.detect (Flavor.depth flavor)
  | _ => True

/-- A sink that decorates no other. -/
def IsRoot : Sink → Prop
  | .callDepth _ _ => False
  | .helper _ => False
  | .context _ _ _ _ => False
  | _ => True

theorem withCallDepth_recording (r : Recording) (depth : Nat) :
    (recording r).withCallDepth depth =
      .recording { r with callDepth := if r.supportsCallDepth then r.callDepth + depth else r.callDepth } := by
  rw [withCallDepth, withCallDepth?]
  split <;> rfl

theorem IsRoot.withCallDepth {s : Sink} (h : s.IsRoot) (depth : Nat) : (s.withCallDepth depth).IsRoot := by
  cases s with
  | recording r =>
    rw [withCallDepth_recording]
    trivial
  | engine values current => trivial
  | basic name muted values => trivial
  | _ => exact h.elim

theorem IsRoot.withValues {s : Sink} (h : s.IsRoot) (kvs : List Value) : (s.withValues kvs).IsRoot := by
  cases s with
  | engine | recording | basic => trivial
  | _ => exact h.elim

theorem IsRoot.withValues_nil {s : Sink} (h : s.IsRoot) : s.withValues [] = s := by
  cases s with
  | engine | recording | basic => rfl
  | _ => exact h.elim

theorem isRoot_ground (s : Sink) : s.ground.IsRoot := by
  induction s with
  | callDepth inner offset ih => exact ih.withCallDepth offset
  | helper inner ih => exact ih
  | context inner c keys flavor ih => exact ih.withCallDepth (Flavor.depth flavor)
  | _ => trivial

theorem IsRoot.withCallDepth_zero {s : Sink} (h : s.IsRoot) : s.withCallDepth 0 = s := by
  cases s with
  | recording r =>
    rw [withCallDepth_recording, Nat.add_zero, ite_self]
  | engine values current => rfl
  | basic name muted values => rfl
  | _ => exact h.elim

theorem IsRoot.withCallDepth_withCallDepth {s : Sink} (h : s.IsRoot) (m n : Nat) :
    (s.withCallDepth m).withCallDepth n = s.withCallDepth (m + n) := by
  cases s with
  | recording r =>
    simp only [withCallDepth_recording]
    split_ifs <;> simp only [Nat.add_assoc]
  | engine values current =>
    change Sink.engine values (current + m + n) = .engine values (current + (m + n))
    rw [Nat.add_assoc]
  | basic name muted values => rfl
  | _ => exact h.elim

theorem IsRoot.withCallDepth_withValues {s : Sink} (h : s.IsRoot) (kvs : List Value) (depth : Nat) :
    (s.withValues kvs).withCallDepth depth = (s.withCallDepth depth).withValues kvs := by
  cases s with
  | recording r =>
    simp only [Sink.withValues, withCallDepth_recording]
  | engine values current => rfl
  | basic name muted values => rfl
  | _ => exact h.elim

/-! ### Abilities -/

theorem withCallDepth?_isSome (s : Sink) (depth : Nat) : (s.withCallDepth? depth).isSome = s.hasCallDepth := by
  induction s with
  | recording r =>
    rw [hasCallDepth, withCallDepth?, withCallDepth?]
    split <;> rfl
  | helper inner ih => exact ih
  | context inner c keys flavor ih => cases flavor <;> rfl
  | _ => rfl

theorem withCallDepth_of_not_hasCallDepth {s : Sink} (h : s.hasCallDepth = false) (depth : Nat) :
    s.withCallDepth depth = s := by
  rw [← withCallDepth?_isSome s depth, Option.isSome_eq_false_iff, Option.isNone_iff_eq_none] at h
  rw [withCallDepth, h, Option.getD_none]

theorem detect_of_hasCallDepth {s : Sink} (h : s.hasCallDepth = true) (depth : Nat) :
    s.detect depth = .callDepth depth := by
  rw [detect, if_pos h]

theorem depth_detect_of_not_hasCallDepth {s : Sink} (h : s.hasCallDepth = false) (depth : Nat) :
    Flavor.depth (s.detect depth) = 0 := by
  rw [detect, h, if_neg Bool.false_ne_true]
  split <;> rfl

/-- What a context decorator keeps of a depth is what a later look at the same sink keeps of it. -/
theorem detect_depth_detect (s : Sink) (depth : Nat) :
    s.detect (Flavor.depth (s.detect depth)) = s.detect depth := by
  cases h : s.hasCallDepth with
  | true => rw [detect_of_hasCallDepth h, detect_of_hasCallDepth h]; rfl
  | false =>
    rw [depth_detect_of_not_hasCallDepth h]
    simp only [detect, h]
    rfl

/-- A context decorator that is composed as it would be now can attribute records to a frame further out
if and only if the sink that it decorates can. -/
theorem hasCallDepth_context {inner : Sink} {c : Context} {keys : List ContextKey} {flavor : Flavor}
    (h : (context inner c keys flavor).Composed) :
    (context inner c keys flavor).hasCallDepth = inner.hasCallDepth := by
  obtain ⟨-, hflavor⟩ := h
  cases hcan : inner.hasCallDepth with
  | true =>
    rw [hflavor, detect_of_hasCallDepth hcan]
    rfl
  | false =>
    rw [hflavor, detect, hcan, if_neg Bool.false_ne_true]
    split <;> rfl

/-- A helper decorator passes a depth on and is gone, or it stays and the sink that it decorates is as
it was. -/
theorem withCallDepth_helper (inner : Sink) (depth : Nat) :
    (helper inner).withCallDepth depth = inner.withCallDepth depth ∨
      (helper inner).withCallDepth depth = helper inner ∧ inner.withCallDepth depth = inner := by
  have houter : (helper inner).withCallDepth? depth = inner.withCallDepth? depth := rfl
  cases hdeeper : inner.withCallDepth? depth with
  | some deeper => left; rw [withCallDepth, withCallDepth, houter, hdeeper]; rfl
  | none => right; rw [withCallDepth, withCallDepth, houter, hdeeper]; exact ⟨rfl, rfl⟩

/-! ### Depths -/

/-- A depth that is asked of a stack is asked of its ground. -/
theorem ground_withCallDepth {s : Sink} (h : s.Composed) (depth : Nat) :
    (s.withCallDepth depth).ground = s.ground.withCallDepth depth := by
  induction s with
  | callDepth inner offset ih =>
    exact ((isRoot_ground inner).withCallDepth_withCallDepth offset depth).symm
  | helper inner ih =>
    have hinner := ih h
    rcases withCallDepth_helper inner depth with heq | ⟨heq, hsame⟩
    · rw [heq]
      exact hinner
    · rw [hsame] at hinner
      rw [heq]
      exact hinner
  | context inner c keys flavor ih =>
    cases hcan : (context inner c keys flavor).hasCallDepth with
    | true =>
      cases flavor with
      | callDepth current =>
        exact ((isRoot_ground inner).withCallDepth_withCallDepth current depth).symm
      | plain => cases hcan
      | helper => cases hcan
    | false =>
      -- no sink of the stack takes the depth, so by the induction hypothesis it makes no difference to the
      -- ground
      have hinner := ih h.1
      have hcannot := hasCallDepth_context h
      rw [hcan] at hcannot
      rw [withCallDepth_of_not_hasCallDepth hcannot.symm] at hinner
      have hroot := isRoot_ground inner
      rw [withCallDepth_of_not_hasCallDepth hcan, ground, hroot.withCallDepth_withCallDepth, Nat.add_comm,
        ← hroot.withCallDepth_withCallDepth, ← hinner]
  | recording r =>
    rw [withCallDepth_recording]
    exact (withCallDepth_recording r depth).symm
  | _ => rfl

/-- The ability that a context decorator finds makes no difference to the ground. -/
theorem ground_withCallDepth_detect {s : Sink} (h : s.Composed) (depth : Nat) :
    s.ground.withCallDepth (Flavor.depth (s.detect depth)) = s.ground.withCallDepth depth := by
  cases hcan : s.hasCallDepth with
  | true =>
    rw [detect_of_hasCallDepth hcan]
    rfl
  | false =>
    have hself := ground_withCallDepth h depth
    rw [withCallDepth_of_not_hasCallDepth hcan] at hself
    rw [depth_detect_of_not_hasCallDepth hcan, (isRoot_ground s).withCallDepth_zero]
    exact hself

theorem Composed.withCallDepth {s : Sink} (h : s.Composed) (depth : Nat) :
    (s.withCallDepth depth).Composed := by
  induction s with
  | callDepth inner offset ih => exact h
  | helper inner ih =>
    rcases withCallDepth_helper inner depth with heq | ⟨heq, -⟩
    · rw [heq]
      exact ih h
    · rw [heq]
      exact h
  | context inner c keys flavor ih =>
    cases flavor with
    | callDepth current =>
      have hcan : inner.hasCallDepth = true := (hasCallDepth_context h).symm
      exact ⟨h.1, (detect_of_hasCallDepth hcan _).symm⟩
    | plain => exact h
    | helper => exact h
  | recording r =>
    rw [withCallDepth_recording]
    trivial
  | _ => trivial

theorem added_withCallDepth (s : Sink) (depth : Nat) : (s.withCallDepth depth).added = s.added := by
  induction s with
  | callDepth inner offset ih => rfl
  | helper inner ih =>
    rcases withCallDepth_helper inner depth with heq | ⟨heq, -⟩
    · rw [heq]
      exact ih
    · rw [heq]
  | context inner c keys flavor ih => cases flavor <;> rfl
  | recording r =>
    rw [withCallDepth_recording]
    rfl
  | _ => rfl

/-! ### Values -/

theorem Composed.withValues {s : Sink} (h : s.Composed) (kvs : List Value) :
    (s.withValues kvs).Composed := by
  induction s with
  | callDepth inner offset ih => exact ih h
  | helper inner ih => exact ih h
  | context inner c keys flavor ih => exact ⟨ih h.1, (detect_depth_detect _ _).symm⟩
  | _ => trivial

theorem ground_withValues {s : Sink} (h : s.Composed) (kvs : List Value) :
    (s.withValues kvs).ground = s.ground.withValues kvs := by
  induction s with
  | callDepth inner offset ih =>
    rw [withValues, ground, ih h, (isRoot_ground inner).withCallDepth_withValues, ground]
  | helper inner ih => exact ih h
  | context inner c keys flavor ih =>
    rw [withValues, ground, ground_withCallDepth_detect (h.1.withValues kvs), ih h.1,
      (isRoot_ground inner).withCallDepth_withValues, ground]
  | _ => rfl

theorem added_withValues (s : Sink) (kvs : List Value) : (s.withValues kvs).added = s.added := by
  induction s with
  | callDepth inner offset ih => exact ih
  | helper inner ih => exact ih
  | context inner c keys flavor ih => exact congrArg (c.extract keys ++ ·) ih
  | _ => rfl

/-! ### Records -/

theorem filter_helper?_getD (s : Sink) : (s.helper?.getD []).filter Delivery.isRecord = [] := by
  induction s with
  | callDepth inner offset ih => exact ih
  | helper inner ih => exact ih
  | context inner c keys flavor ih =>
    cases flavor with
    | helper => exact ih
    | plain => rfl
    | callDepth depth => rfl
  | recording r =>
    rw [helper?]
    split <;> rfl
  | _ => rfl

theorem helper?_withCallDepth {s : Sink} (h : s.IsRoot) (depth : Nat) :
    (s.withCallDepth depth).helper? = s.helper? := by
  cases s with
  | recording r =>
    rw [withCallDepth_recording]
    rfl
  | engine values current => rfl
  | basic name muted values => rfl
  | _ => exact h.elim

/-- Where the root cannot mark helper frames, a stack marks none. -/
theorem helper?_getD_of_ground {s : Sink} (h : s.ground.helper? = none) : s.helper?.getD [] = [] := by
  induction s with
  | callDepth inner offset ih =>
    rw [ground, helper?_withCallDepth (isRoot_ground inner)] at h
    exact ih h
  | helper inner ih => exact ih h
  | context inner c keys flavor ih =>
    rw [ground, helper?_withCallDepth (isRoot_ground inner)] at h
    cases flavor with
    | helper => exact ih h
    | plain => rfl
    | callDepth depth => rfl
  | recording r => rw [show (recording r).helper? = none from h]; rfl
  | _ => rfl

theorem ground_context {inner : Sink} {c : Context} {keys : List ContextKey} {flavor : Flavor}
    (h : Flavor.depth flavor = 0) : (context inner c keys flavor).ground = inner.ground := by
  rw [ground, h, (isRoot_ground inner).withCallDepth_zero]

theorem IsRoot.filter_emit {s : Sink} (h : s.IsRoot) (record : LogRecord) :
    (s.emit record).filter Delivery.isRecord = s.emit record := by
  cases s with
  | engine | recording | basic => rw [emit]; rfl
  | _ => exact h.elim

/-- Deliveries that bring no record, and of which there are none if the root cannot mark helper frames. -/
def OnlyMarks (root : Sink) (marks : List Delivery) : Prop :=
  marks.filter Delivery.isRecord = [] ∧ (root.helper? = none → marks = [])

theorem OnlyMarks.helper {s : Sink} {marks : List Delivery} (h : OnlyMarks s.ground marks) :
    OnlyMarks s.ground (s.helper?.getD [] ++ marks) := by
  constructor
  · rw [List.filter_append, filter_helper?_getD, h.1, List.append_nil]
  · intro hground
    rw [helper?_getD_of_ground hground, h.2 hground, List.append_nil]

/-- A stack does with a record what its ground does with the record and the pairs of all contexts. Before
that it may mark helper frames. -/
theorem emit_eq {s : Sink} (h : s.Composed) (record : LogRecord) :
    ∃ marks : List Delivery, OnlyMarks s.ground marks ∧
      s.emit record = marks ++ s.ground.emit { record with kvs := record.kvs ++ s.added } := by
  -- the cases are those of `emit`: three roots, two decorators, and the context by its ability
  induction s, record using Sink.emit.induct with
  | case1 record values depth => exact ⟨[], ⟨rfl, fun _ => rfl⟩, by simp [emit, ground, added]⟩
  | case2 record r => exact ⟨[], ⟨rfl, fun _ => rfl⟩, by simp [emit, ground, added]⟩
  | case3 record name muted values => exact ⟨[], ⟨rfl, fun _ => rfl⟩, by simp [emit, ground, added]⟩
  | case4 record inner offset ih =>
    have hinner : inner.Composed := h
    rw [ground_withCallDepth hinner, added_withCallDepth] at ih
    obtain ⟨marks, hmarks, hemit⟩ := ih (hinner.withCallDepth offset)
    exact ⟨marks, hmarks, by rw [emit, hemit]; rfl⟩
  | case5 record inner ih =>
    obtain ⟨marks, hmarks, hemit⟩ := ih h
    refine ⟨inner.helper?.getD [] ++ marks, hmarks.helper, ?_⟩
    rw [emit, hemit, List.append_assoc]
    rfl
  | case6 record inner c keys extended ih =>
    obtain ⟨marks, hmarks, hemit⟩ := ih h.1
    rw [ground_context rfl]
    refine ⟨marks, hmarks, ?_⟩
    rw [emit, hemit, added]
    simp only [extended, List.append_assoc]
  | case7 record inner c keys extended ih =>
    obtain ⟨marks, hmarks, hemit⟩ := ih h.1
    rw [ground_context rfl]
    refine ⟨marks, hmarks, ?_⟩
    rw [emit, if_pos rfl, hemit, added]
    simp only [extended, List.append_assoc]
  | case8 record inner c keys extended depth hdepth ih =>
    rw [ground_withCallDepth h.1, added_withCallDepth] at ih
    obtain ⟨marks, hmarks, hemit⟩ := ih (h.1.withCallDepth depth)
    refine ⟨marks, hmarks, ?_⟩
    rw [emit, if_neg hdepth, hemit, added]
    simp only [extended, List.append_assoc]
    rfl
  | case9 record inner c keys extended ih =>
    obtain ⟨marks, hmarks, hemit⟩ := ih h.1
    rw [ground_context rfl]
    refine ⟨inner.helper?.getD [] ++ marks, hmarks.helper, ?_⟩
    rw [emit, hemit, added, List.append_assoc]
    simp only [extended, List.append_assoc]

/-- A stack brings to its root what its ground would do with the record and the pairs of all contexts. -/
theorem records_emit {s : Sink} (h : s.Composed) (record : LogRecord) :
    (s.emit record).filter Delivery.isRecord =
      s.ground.emit { record with kvs := record.kvs ++ s.added } := by
  obtain ⟨marks, hmarks, hemit⟩ := emit_eq h record
  rw [hemit, List.filter_append, hmarks.1, List.nil_append, (isRoot_ground s).filter_emit]

/-! ### Derivations -/

/-- What a sink can be derived with. -/
inductive Derivation where
  | values (kvs : List Value)
  /-- A depth that the sink is asked for. -/
  | depth (n : Nat)
  | context (c : Context) (keys : List ContextKey)
  /-- A call depth decorator. -/
  | offset (n : Nat)
  | helper

/-- The sink that a derivation makes of a sink. -/
def Derivation.apply (s : Sink) : Derivation → Sink
  | .values kvs => s.withValues kvs
  | .depth n => s.withCallDepth n
  | .context c keys => s.withContext c keys
  | .offset n => .callDepth s n
  | .helper => .helper s

/-- The sink that derivations make of a sink, the first one first. -/
def derive (s : Sink) (ds : List Derivation) : Sink := ds.foldl Derivation.apply s

/-- The depths of derivations, added up. -/
def totalDepth : List Derivation → Nat
  | [] => 0
  | .depth n :: ds => n + totalDepth ds
  | .offset n :: ds => n + totalDepth ds
  | _ :: ds => totalDepth ds

/-- The values of derivations in their order, each list padded to even length. -/
def allValues : List Derivation → List Value
  | [] => []
  | .values kvs :: ds => KeyValues.padded kvs ++ allValues ds
  | _ :: ds => allValues ds

/-- The pairs of contexts, from the last derivation to the first. -/
def contextPairs : List Derivation → List Value
  | [] => []
  | .context c keys :: ds => contextPairs ds ++ c.extract keys
  | _ :: ds => contextPairs ds

theorem Composed.apply {s : Sink} (h : s.Composed) (d : Derivation) : (d.apply s).Composed := by
  cases d with
  | values kvs => exact h.withValues kvs
  | depth n => exact h.withCallDepth n
  | context c keys => exact ⟨h, (detect_depth_detect s 0).symm⟩
  | offset n => exact h
  | helper => exact h

theorem Composed.derive {s : Sink} (h : s.Composed) (ds : List Derivation) : (s.derive ds).Composed := by
  induction ds generalizing s with
  | nil => exact h
  | cons d ds ih => exact ih (h.apply d)

theorem added_derive (s : Sink) (ds : List Derivation) :
    (s.derive ds).added = contextPairs ds ++ s.added := by
  induction ds generalizing s with
  | nil => rfl
  | cons d ds ih =>
    change ((d.apply s).derive ds).added = _
    rw [ih]
    cases d with
    | values kvs => rw [Derivation.apply, added_withValues]; rfl
    | depth n => rw [Derivation.apply, added_withCallDepth]; rfl
    | context c keys =>
      change contextPairs ds ++ (c.extract keys ++ s.added) = contextPairs ds ++ c.extract keys ++ s.added
      rw [List.append_assoc]
    | offset n => rfl
    | helper => rfl

/-! ### The ground of a derived stack -/

/-- What a derivation of a stack does to its ground. -/
def Derivation.applyGround (root : Sink) : Derivation → Sink
  | .values kvs => root.withValues kvs
  | .depth n => root.withCallDepth n
  | .context _ _ => root
  | .offset n => root.withCallDepth n
  | .helper => root

theorem ground_apply {s : Sink} (h : s.Composed) (d : Derivation) :
    (d.apply s).ground = d.applyGround s.ground := by
  cases d with
  | values kvs => exact ground_withValues h kvs
  | depth n => exact ground_withCallDepth h n
  | context c keys =>
    have hzero := (isRoot_ground s).withCallDepth_zero
    exact (ground_withCallDepth_detect h 0).trans hzero
  | offset n => rfl
  | helper => rfl

theorem ground_derive {s : Sink} (h : s.Composed) (ds : List Derivation) :
    (s.derive ds).ground = ds.foldl Derivation.applyGround s.ground := by
  induction ds generalizing s with
  | nil => rfl
  | cons d ds ih =>
    rw [List.foldl_cons, ← ground_apply h d]
    exact ih (h.apply d)

theorem IsRoot.plain {s : Sink} (h : s.IsRoot) : s.Composed ∧ s.ground = s ∧ s.added = [] := by
  cases s with
  | engine | recording | basic => exact ⟨trivial, rfl, rfl⟩
  | _ => exact h.elim

theorem length_allValues (ds : List Derivation) : (allValues ds).length % 2 = 0 := by
  induction ds with
  | nil => rfl
  | cons d ds ih =>
    cases d with
    | values kvs =>
      have hpadded := KeyValues.length_padded kvs
      rw [allValues, List.length_append]
      omega
    | _ => exact ih

/-- The values of a root are pairs. -/
def EvenValues : Sink → Prop
  | .engine values _ => values.length % 2 = 0
  | .recording r => r.values.length % 2 = 0
  | .basic _ _ values => values.length % 2 = 0
  | _ => True

theorem EvenValues.withCallDepth {s : Sink} (h : s.EvenValues) (hroot : s.IsRoot) (depth : Nat) :
    (s.withCallDepth depth).EvenValues := by
  cases s with
  | recording r =>
    rw [withCallDepth_recording]
    exact h
  | engine values current => exact h
  | basic name muted values => exact h
  | _ => exact hroot.elim

theorem EvenValues.withValues {s : Sink} (h : s.EvenValues) (hroot : s.IsRoot) (kvs : List Value) :
    (s.withValues kvs).EvenValues := by
  cases s with
  | engine values current => exact KeyValues.length_withValues _ _ h
  | recording r => exact KeyValues.length_withValues _ _ h
  | basic name muted values => exact KeyValues.length_withValues _ _ h
  | _ => exact hroot.elim

theorem EvenValues.withValues_withValues {s : Sink} (h : s.EvenValues) (hroot : s.IsRoot)
    (kvs : List Value) {more : List Value} (hmore : more.length % 2 = 0) :
    (s.withValues kvs).withValues more = s.withValues (KeyValues.padded kvs ++ more) := by
  cases s with
  | engine values current => exact congrArg (engine · current) (KeyValues.withValues_withValues h kvs hmore)
  | recording r =>
    exact congrArg (fun values => recording { r with values }) (KeyValues.withValues_withValues h kvs hmore)
  | basic name muted values =>
    exact congrArg (basic name muted) (KeyValues.withValues_withValues h kvs hmore)
  | _ => exact hroot.elim

/-- Derivations give a root their depths, added up, and their values, one list behind the other. -/
theorem foldl_applyGround {s : Sink} (hroot : s.IsRoot) (heven : s.EvenValues) (ds : List Derivation) :
    ds.foldl Derivation.applyGround s = (s.withCallDepth (totalDepth ds)).withValues (allValues ds) := by
  induction ds generalizing s with
  | nil =>
    change s = (s.withCallDepth 0).withValues []
    rw [hroot.withCallDepth_zero, hroot.withValues_nil]
  | cons d ds ih =>
    -- a depth that comes first is added to those of the derivations behind it
    have hdeeper : ∀ n, ds.foldl Derivation.applyGround (s.withCallDepth n) =
        (s.withCallDepth (n + totalDepth ds)).withValues (allValues ds) := fun n => by
      rw [ih (hroot.withCallDepth n) (heven.withCallDepth hroot n), hroot.withCallDepth_withCallDepth]
    rw [List.foldl_cons]
    cases d with
    | values kvs =>
      rw [Derivation.applyGround, ih (hroot.withValues kvs) (heven.withValues hroot kvs),
        hroot.withCallDepth_withValues,
        (heven.withCallDepth hroot _).withValues_withValues (hroot.withCallDepth _) kvs (length_allValues ds)]
      rfl
    | depth n => exact hdeeper n
    | context c keys => exact ih hroot heven
    | offset n => exact hdeeper n
    | helper => exact ih hroot heven

/-! ### Depths that a stack holds -/

/-- All depths that a stack holds, those of its root included. -/
def heldDepth : Sink → Nat
  | .engine _ depth => depth
  | .recording r => r.callDepth
  | .basic _ _ _ => 0
  | .callDepth inner offset => inner.heldDepth + offset
  | .helper inner => inner.heldDepth
  | .context inner _ _ flavor => inner.heldDepth + Flavor.depth flavor

theorem heldDepth_withCallDepth_le (s : Sink) (depth : Nat) :
    (s.withCallDepth depth).heldDepth ≤ s.heldDepth + depth := by
  induction s with
  | callDepth inner offset ih => exact (Nat.add_assoc _ _ _).ge
  | helper inner ih =>
    rcases withCallDepth_helper inner depth with heq | ⟨heq, -⟩
    · rw [heq]
      exact ih
    · rw [heq]
      exact Nat.le_add_right _ _
  | context inner c keys flavor ih =>
    cases flavor with
    | callDepth current => exact (Nat.add_assoc _ _ _).ge
    | plain => exact Nat.le_add_right _ _
    | helper => exact Nat.le_add_right _ _
  | recording r =>
    rw [withCallDepth_recording]
    simp only [heldDepth]
    split_ifs <;> omega
  | engine values current => exact le_rfl
  | basic name muted values => exact Nat.zero_le _

theorem depth_detect_le (s : Sink) (depth : Nat) : Flavor.depth (s.detect depth) ≤ depth := by
  cases h : s.hasCallDepth with
  | true => rw [detect_of_hasCallDepth h]; exact le_rfl
  | false => rw [depth_detect_of_not_hasCallDepth h]; exact Nat.zero_le _

theorem heldDepth_withValues_le (s : Sink) (kvs : List Value) :
    (s.withValues kvs).heldDepth ≤ s.heldDepth := by
  induction s with
  | callDepth inner offset ih => exact Nat.add_le_add_right ih offset
  | helper inner ih => exact ih
  | context inner c keys flavor ih => exact Nat.add_le_add ih (depth_detect_le _ _)
  | _ => exact le_rfl

theorem heldDepth_derive_le (s : Sink) (ds : List Derivation) :
    (s.derive ds).heldDepth ≤ s.heldDepth + totalDepth ds := by
  induction ds generalizing s with
  | nil => exact le_rfl
  | cons d ds ih =>
    have hrest : (s.derive (d :: ds)).heldDepth ≤ (d.apply s).heldDepth + totalDepth ds := ih (d.apply s)
    cases d with
    | values kvs =>
      have hstep : (Derivation.apply s (.values kvs)).heldDepth ≤ s.heldDepth := heldDepth_withValues_le s kvs
      exact hrest.trans (Nat.add_le_add_right hstep _)
    | depth n =>
      have hstep : (Derivation.apply s (.depth n)).heldDepth ≤ s.heldDepth + n := heldDepth_withCallDepth_le s n
      rw [totalDepth]
      omega
    | context c keys =>
      have hstep : (Derivation.apply s (.context c keys)).heldDepth ≤ s.heldDepth :=
        Nat.add_le_add_left (depth_detect_le s 0) s.heldDepth
      exact hrest.trans (Nat.add_le_add_right hstep _)
    | offset n => exact hrest.trans (Nat.add_assoc _ _ _).le
    | helper => exact hrest

/-! ### The record that reaches the root -/

/-- What a stack does with a record: it may mark helper frames, and then its root, as the derivations make it,
gets the record with the pairs of the contexts behind its own. -/
theorem exists_emit_derive {root : Sink} (hroot : root.IsRoot) (heven : root.EvenValues)
    (ds : List Derivation) (record : LogRecord) :
    ∃ marks, OnlyMarks ((root.withCallDepth (totalDepth ds)).withValues (allValues ds)) marks ∧
      (root.derive ds).emit record = marks ++
        ((root.withCallDepth (totalDepth ds)).withValues (allValues ds)).emit
          { record with kvs := record.kvs ++ contextPairs ds } := by
  obtain ⟨hcomposed, hground, hadded⟩ := hroot.plain
  obtain ⟨marks, hmarks, hemit⟩ := emit_eq (hcomposed.derive ds) record
  rw [ground_derive hcomposed, hground, foldl_applyGround hroot heven] at hmarks hemit
  rw [added_derive, hadded, List.append_nil] at hemit
  exact ⟨marks, hmarks, hemit⟩

/-- What reaches the root of a stack: one record. -/
theorem records_emit_derive {root : Sink} (hroot : root.IsRoot) (heven : root.EvenValues)
    (ds : List Derivation) (record : LogRecord) :
    ((root.derive ds).emit record).filter Delivery.isRecord =
      ((root.withCallDepth (totalDepth ds)).withValues (allValues ds)).emit
        { record with kvs := record.kvs ++ contextPairs ds } := by
  obtain ⟨marks, hmarks, hemit⟩ := exists_emit_derive hroot heven ds record
  have hmade := (hroot.withCallDepth (totalDepth ds)).withValues (allValues ds)
  rw [hemit, List.filter_append, hmarks.1, List.nil_append, hmade.filter_emit]

/-- What derivations make of the engine's sink. -/
theorem engine_derived {values : List Value} (h : values.length % 2 = 0) (depth : Nat) (ds : List Derivation) :
    ((engine values depth).withCallDepth (totalDepth ds)).withValues (allValues ds) =
      .engine (values ++ allValues ds) (depth + totalDepth ds) := by
  have hdeeper : (engine values depth).withCallDepth (totalDepth ds) =
      .engine values (depth + totalDepth ds) := rfl
  rw [hdeeper, withValues, KeyValues.withValues_of_even h, KeyValues.padded_of_even (length_allValues ds)]

/-- What derivations make of a recording sink. -/
theorem recording_derived {r : Recording} (h : r.values.length % 2 = 0) (ds : List Derivation) :
    ((recording r).withCallDepth (totalDepth ds)).withValues (allValues ds) = .recording
      { r with
        values := r.values ++ allValues ds
        callDepth := if r.supportsCallDepth then r.callDepth + totalDepth ds else r.callDepth } := by
  rw [withCallDepth_recording, withValues, KeyValues.withValues_of_even h,
    KeyValues.padded_of_even (length_allValues ds)]

/-- A stack on the engine or on a recording sink brings one record to its root for each that it gets: with
its call site, severity and message, its pairs and behind them those of the contexts, the last context
first; with the values of the root and of all derivations; and, if the root can, with its depth and all
depths of the derivations added up. What the stack holds of depths is never more than that sum. -/
theorem emit_derive (values : List Value) (depth : Nat) (r : Recording) (ds : List Derivation)
    (record : LogRecord) (hvalues : values.length % 2 = 0) (hr : r.values.length % 2 = 0) :
    (((engine values depth).derive ds).emit record).filter Delivery.isRecord =
        [.logged { record with kvs := record.kvs ++ contextPairs ds } (values ++ allValues ds)
          (depth + totalDepth ds)] ∧
      (((recording r).derive ds).emit record).filter Delivery.isRecord =
        [.recorded r.recorder
          { site := record.site
            severity := record.severity
            message := record.message
            values := r.values ++ allValues ds
            kvs := record.kvs ++ contextPairs ds
            callDepth := if r.supportsCallDepth then r.callDepth + totalDepth ds else r.callDepth }] ∧
      ((engine values depth).derive ds).heldDepth ≤ depth + totalDepth ds ∧
      ((recording r).derive ds).heldDepth ≤ r.callDepth + totalDepth ds := by
  refine ⟨?_, ?_, heldDepth_derive_le _ ds, heldDepth_derive_le _ ds⟩
  · have hroot : (engine values depth).IsRoot := trivial
    rw [records_emit_derive hroot hvalues, engine_derived hvalues, emit]
  · have hroot : (recording r).IsRoot := trivial
    rw [records_emit_derive hroot hr, recording_derived hr, emit]

/-- Derivations of all kinds, with two contexts, values of odd length, and a key that is not bound. -/
def interleaved : List Derivation :=
  [.values [.text "a"], .context ⟨[("t", .nat 1)]⟩ [⟨"t", "trace"⟩, ⟨"u", "user"⟩], .depth 1, .helper,
    .offset 2, .context ⟨[("s", .nat 2)]⟩ [⟨"s", "span"⟩], .values [.text "b", .null], .depth 4]

/-- A recording sink that can mark helper frames but has no use for a depth. -/
def marking : Recording := { recorder := 0, supportsHelper := true, callDepth := 5 }

theorem emit_derive_interleaved :
    [Value.text "r", .null].length % 2 = 0 ∧ marking.values.length % 2 = 0 ∧
      (((engine [.text "r", .null] 3).derive interleaved).emit ⟨⟨"a.rs", 7⟩, .info, "m", [.text "k"]⟩).filter
          Delivery.isRecord =
        [.logged ⟨⟨"a.rs", 7⟩, .info, "m", [.text "k", .text "span", .nat 2, .text "trace", .nat 1]⟩
          [.text "r", .null, .text "a", .missing, .text "b", .null] 10] ∧
      (((recording marking).derive interleaved).emit ⟨⟨"a.rs", 7⟩, .info, "m", [.text "k"]⟩).filter
          Delivery.isRecord =
        [.recorded 0 ⟨⟨"a.rs", 7⟩, .info, "m", [.text "a", .missing, .text "b", .null],
          [.text "k", .text "span", .nat 2, .text "trace", .nat 1], 5⟩] := by
  obtain ⟨hlogged, hrecorded, -, -⟩ := emit_derive [.text "r", .null] 3 marking interleaved
    ⟨⟨"a.rs", 7⟩, .info, "m", [.text "k"]⟩ rfl rfl
  exact ⟨rfl, rfl, hlogged, hrecorded⟩

end Sink

/-! ### Records that are carried out -/

namespace Engine

variable (e : Engine)

theorem deliverAll_singleton (d : Delivery) : e.deliverAll [d] = e.deliver d := by
  rw [deliverAll]
  split
  · next heq => rw [heq]; rfl
  · next heq => rw [heq]

/-- A change of a recorder changes its entries alone. -/
theorem entries_modifyRecorder (n : Nat) {change : Recorder → Recorder}
    {add : List RecordedEntry → List RecordedEntry} (h : ∀ r, (change r).entries = add r.entries) :
    (e.modifyRecorder n change).recorders.map Recorder.entries =
      (e.recorders.map Recorder.entries).modify n add := by
  refine List.ext_getElem? fun i => ?_
  rw [modifyRecorder, List.getElem?_map, List.getElem?_modify, List.getElem?_modify, List.getElem?_map]
  by_cases hi : n = i <;> cases e.recorders[i]? <;> simp [hi, h]

/-- Marks change nothing but the recorders, and no entry of these, so they do not matter to what comes behind
them. -/
theorem deliverAll_marks {marks : List Delivery} (hmarks : ∀ m ∈ marks, m.isRecord = false)
    (ds : List Delivery) :
    ∃ recorders, recorders.map Recorder.entries = e.recorders.map Recorder.entries ∧
      e.deliverAll (marks ++ ds) = { e with recorders := recorders }.deliverAll ds := by
  induction marks generalizing e with
  | nil => exact ⟨e.recorders, rfl, rfl⟩
  | cons m marks ih =>
    obtain ⟨hm, hrest⟩ := List.forall_mem_cons.mp hmarks
    cases m with
    | helperMarked recorder =>
      let change : Recorder → Recorder := fun r => { r with helperCalls := r.helperCalls + 1 }
      have hsame : (e.modifyRecorder recorder change).recorders.map Recorder.entries =
          e.recorders.map Recorder.entries :=
        (e.entries_modifyRecorder recorder fun _ => rfl).trans (List.modify_id ..)
      obtain ⟨recorders, hentries, heq⟩ := ih (e.modifyRecorder recorder change) hrest
      exact ⟨recorders, hentries.trans hsame, heq⟩
    | _ => cases hm

/-- A stack on the engine logs its one record like a call with the values and the pairs of the stack, at the
place for all depths added up. A stack on a recording sink leaves one more entry in its recorder, and all
else as it is. -/
theorem emit_derived (values : List Value) (depth : Nat) (r : Recording) (ds : List Sink.Derivation)
    (record : LogRecord) (hvalues : values.length % 2 = 0) (hr : r.values.length % 2 = 0) :
    e.emit ((Sink.engine values depth).derive ds) record =
        e.printStructured (record.site.attributed (depth + Sink.totalDepth ds) e.stack) record.severity
          record.message [values ++ Sink.allValues ds, record.kvs ++ Sink.contextPairs ds] ∧
      ∃ recorders, e.emit ((Sink.recording r).derive ds) record = (.ok (), { e with recorders := recorders }) ∧
        recorders.map Recorder.entries = (e.recorders.map Recorder.entries).modify r.recorder (· ++
          [{ site := record.site
             severity := record.severity
             message := record.message
             values := r.values ++ Sink.allValues ds
             kvs := record.kvs ++ Sink.contextPairs ds
             callDepth :=
               if r.supportsCallDepth then r.callDepth + Sink.totalDepth ds else r.callDepth }]) := by
  constructor
  · have hroot : (Sink.engine values depth).IsRoot := trivial
    obtain ⟨marks, hmarks, hemit⟩ := Sink.exists_emit_derive hroot hvalues ds record
    rw [Sink.engine_derived hvalues] at hmarks hemit
    rw [emit, hemit, hmarks.2 rfl, List.nil_append, Sink.emit, deliverAll_singleton, deliver]
  · have hroot : (Sink.recording r).IsRoot := trivial
    obtain ⟨marks, hmarks, hemit⟩ := Sink.exists_emit_derive hroot hr ds record
    have hnone : ∀ m ∈ marks, m.isRecord = false := fun m hm =>
      Bool.eq_false_of_not_eq_true (List.filter_eq_nil_iff.mp hmarks.1 m hm)
    rw [Sink.recording_derived hr, Sink.emit] at hemit
    obtain ⟨recorders, hentries, hmarked⟩ := e.deliverAll_marks hnone _
    rw [emit, hemit, hmarked, deliverAll_singleton, deliver]
    refine ⟨_, rfl, ?_⟩
    rw [← hentries]
    exact entries_modifyRecorder _ _ fun _ => rfl

end Engine

end Logline
