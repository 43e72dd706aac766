import Logline.Value
/-!
# Contexts

A context binds keys to values. Binding makes a new context and leaves the old one as it is. Which values
of a context are logged, and under which names, is said by a table of context keys.

Main statements: `value?_bind` (the last binding of a key counts) and `nodup_keys_bind` (a key is bound
once).
-/

namespace Logline

/-- A context value to log: looked up by `key`, logged as `name`. -/
structure ContextKey where
  key : String
  name : String
  deriving DecidableEq, Repr

/-- Bindings of keys to values, the oldest first. -/
structure Context where
  values : List (String × Value) := []

namespace Context

/-- The context with one more binding. An older binding of the key is dropped. -/
def bind (c : Context) (key : String) (value : Value) : Context :=
  ⟨(c.values.filter fun b => b.1 != key) ++ [(key, value)]⟩

/-- The value bound to a key. -/
def value? (c : Context) (key : String) : Option Value :=
  (c.values.find? fun b => b.1 == key).map Prod.snd

/-- The number of bindings. -/
def size (c : Context) : Nat := c.values.length

/-- The bindings for diagnostics. -/
def inspect (c : Context) : String :=
  "\x7b" ++ ", ".intercalate (c.values.map fun b => Text.inspect b.1 ++ ": " ++ b.2.inspect) ++ "\x7d"

/-- The pairs that a table of context keys finds in a context, in the order of the table. -/
def extract (c : Context) (keys : List ContextKey) : List Value :=
  keys.flatMap fun k =>
    match c.value? k.key with
    | some v => [.text k.name, v]
    | none => []

/-! ### Laws -/

theorem find?_others (values : List (String × Value)) (key k : String) :
    (values.filter fun b => b.1 != key).find? (fun b => b.1 == k) =
      if key = k then none else values.find? fun b => b.1 == k := by
  induction values with
  | nil => simp
  | cons b rest ih =>
    rw [List.filter_cons, List.find?_cons]
    by_cases hk : b.1 = key
    · rw [if_neg (by simp [hk]), ih]
      split
      · rfl
      · next h => rw [show (b.1 == k) = false by simp [hk, h]]
    · rw [if_pos (by simp [hk]), List.find?_cons, ih]
      by_cases h : b.1 = k
      · have hne : key ≠ k := fun e => hk (h.trans e.symm)
        simp [h, hne]
      · rw [show (b.1 == k) = false from beq_eq_false_iff_ne.mpr h]

theorem value?_bind (c : Context) (key k : String) (value : Value) :
    (c.bind key value).value? k = if key = k then some value else c.value? k := by
  simp only [bind, value?, List.find?_append, find?_others]
  by_cases h : key = k
  · simp [h]
  · simp [h]

theorem nodup_keys_bind (c : Context) (key : String) (value : Value)
    (h : (c.values.map Prod.fst).Nodup) : ((c.bind key value).values.map Prod.fst).Nodup := by
  simp only [bind, List.map_append, List.map_cons, List.map_nil]
  refine List.nodup_append.mpr ⟨?_, by simp, ?_⟩
  · exact h.sublist ((List.filter_sublist).map Prod.fst)
  · intro a ha b hb
    simp only [List.mem_singleton] at hb
    subst hb
    simp only [List.mem_map, List.mem_filter, bne_iff_ne] at ha
    obtain ⟨x, ⟨_, hx⟩, rfl⟩ := ha
    exact hx

end Context

end Logline
