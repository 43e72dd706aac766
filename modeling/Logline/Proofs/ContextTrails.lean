import Mathlib
import Logline.Context

/-!
# What a context holds

Contexts are derived from each other: each derivation binds one key on top of any context that there is
already, so that the contexts of a program form a tree. The bindings on the way from the empty context to
a context are its *trail* (`Context.trail`), which is read off the derivations alone.

A derivation drops an older binding of its key and puts the new one at the end, so the bindings of a
context are not in the order of its trail. What is kept is `Context.Reflects`: every key is bound once, to
the value that the trail bound it to last. It holds of the empty context, one more binding keeps it
(`Reflects.bind`), and so it holds of every context of every program (`reflects_derived`).

Main statement: `Context.derived_persistent`.
-/

namespace Logline.Context

/-! ### Derivations -/

/-- One derivation of a context: the number of the context that it starts from, and what it binds. -/
structure Derivation where
  source : Nat
  key : String
  value : Value

/-- One more derivation adds a context to those that there are; it starts from the empty one if there is
none of its number yet. -/
def Derivation.step (cs : List Context) (d : Derivation) : List Context :=
  cs ++ [((cs[d.source]?).getD {}).bind d.key d.value]

/-- The contexts of a program. Number zero is the empty one, and the `n`-th derivation makes number `n`. -/
def derived (ds : List Derivation) : List Context := ds.foldl Derivation.step [{}]

/-- The bindings on the way from the empty context to a context, the oldest first. -/
def trail (ds : List Derivation) : Nat → List (String × Value)
  | 0 => []
  | n + 1 =>
    match ds[n]? with
    | none => []
    | some d => (if d.source ≤ n then trail ds d.source else []) ++ [(d.key, d.value)]

/-- The value that a key was bound to last. -/
def lastBound (bindings : List (String × Value)) (key : String) : Option Value :=
  (bindings.reverse.find? fun b => b.1 == key).map Prod.snd

variable {ds : List Derivation} {n : Nat} {c : Context} {bindings : List (String × Value)} {k : String}

theorem derived_concat (ds : List Derivation) (d : Derivation) :
    derived (ds ++ [d]) = derived ds ++ [(((derived ds)[d.source]?).getD {}).bind d.key d.value] := by
  rw [derived, List.foldl_concat]
  rfl

theorem length_derived (ds : List Derivation) : (derived ds).length = ds.length + 1 := by
  induction ds using List.reverseRecOn with
  | nil => rfl
  | append_singleton ds d ih =>
    rw [derived_concat, List.length_append, ih, List.length_append]
    rfl

/-- Later derivations leave the contexts that there are as they are. -/
theorem derived_prefix (ds more : List Derivation) : derived ds <+: derived (ds ++ more) := by
  induction more using List.reverseRecOn with
  | nil => rw [List.append_nil]
  | append_singleton more d ih =>
    rw [← List.append_assoc, derived_concat]
    exact ih.trans (List.prefix_append _ _)

theorem getElem?_derived_append (hn : n ≤ ds.length) (more : List Derivation) :
    (derived (ds ++ more))[n]? = (derived ds)[n]? := by
  obtain ⟨later, hlater⟩ := derived_prefix ds more
  rw [← hlater, List.getElem?_append_left (by rw [length_derived]; omega)]

theorem trail_append (hn : n ≤ ds.length) (more : List Derivation) :
    trail (ds ++ more) n = trail ds n := by
  induction n using Nat.strong_induction_on with
  | _ n ih =>
    cases n with
    | zero => simp only [trail]
    | succ n =>
      rw [trail, trail, List.getElem?_append_left hn]
      cases ds[n]? with
      | none => rfl
      | some d =>
        by_cases hsource : d.source ≤ n
        · simp only [if_pos hsource, ih d.source (by omega) (by omega)]
        · simp only [if_neg hsource]

/-! ### The last binding of a key -/

theorem lastBound_concat (bindings : List (String × Value)) (key k : String) (value : Value) :
    lastBound (bindings ++ [(key, value)]) k = if key = k then some value else lastBound bindings k := by
  rw [lastBound, List.reverse_concat, List.find?_cons]
  by_cases h : key = k
  · simp [h]
  · rw [if_neg h, show (key == k) = false from beq_eq_false_iff_ne.mpr h]
    rfl

theorem lastBound_eq_some_iff {v : Value} :
    lastBound bindings k = some v ↔
      ∃ before after, bindings = before ++ (k, v) :: after ∧ ∀ b ∈ after, b.1 ≠ k := by
  rw [lastBound, Option.map_eq_some_iff]
  constructor
  · rintro ⟨⟨key, value⟩, hfind, rfl⟩
    obtain ⟨hkey, after, before, hsplit, hafter⟩ := List.find?_eq_some_iff_append.mp hfind
    obtain rfl : key = k := by simpa using hkey
    refine ⟨before.reverse, after.reverse, ?_, fun b hb => ?_⟩
    · simpa using congrArg List.reverse hsplit
    · simpa using hafter b (List.mem_reverse.mp hb)
  · rintro ⟨before, after, rfl, hafter⟩
    refine ⟨(k, v), List.find?_eq_some_iff_append.mpr ⟨by simp, after.reverse, before.reverse, ?_, ?_⟩, rfl⟩
    · simp
    · intro b hb
      simpa using hafter b (List.mem_reverse.mp hb)

theorem lastBound_eq_none_iff : lastBound bindings k = none ↔ ∀ b ∈ bindings, b.1 ≠ k := by
  simp [lastBound]

/-! ### What is kept -/

/-- A context reflects bindings: every key is bound once, to what it was bound to last. -/
structure Reflects (c : Context) (bindings : List (String × Value)) : Prop where
  nodup_keys : (c.values.map Prod.fst).Nodup
  value?_eq : ∀ k, c.value? k = lastBound bindings k

theorem reflects_empty : Reflects {} [] := ⟨List.nodup_nil, fun _ => rfl⟩

theorem Reflects.bind (h : Reflects c bindings) (key : String) (value : Value) :
    Reflects (c.bind key value) (bindings ++ [(key, value)]) := by
  refine ⟨nodup_keys_bind c key value h.nodup_keys, fun k => ?_⟩
  rw [value?_bind, lastBound_concat, h.value?_eq]

theorem notMem_keys_iff : k ∉ bindings.map Prod.fst ↔ ∀ b ∈ bindings, b.1 ≠ k := by
  simp only [List.mem_map, not_exists, not_and, ne_eq]

theorem value?_eq_none_iff : c.value? k = none ↔ k ∉ c.values.map Prod.fst := by
  rw [notMem_keys_iff, value?]
  simp only [Option.map_eq_none_iff, List.find?_eq_none, beq_iff_eq, ne_eq]

theorem Reflects.mem_keys (h : Reflects c bindings) :
    k ∈ c.values.map Prod.fst ↔ k ∈ bindings.map Prod.fst := by
  rw [← not_iff_not, ← value?_eq_none_iff, h.value?_eq, lastBound_eq_none_iff, notMem_keys_iff]

/-- A context has as many bindings as different keys were bound. -/
theorem Reflects.size_eq (h : Reflects c bindings) : c.size = (bindings.map Prod.fst).dedup.length := by
  have hperm : (c.values.map Prod.fst).Perm (bindings.map Prod.fst).dedup :=
    (List.perm_ext_iff_of_nodup h.nodup_keys (List.nodup_dedup _)).mpr fun k => by
      rw [h.mem_keys, List.mem_dedup]
  rw [size, ← hperm.length_eq, List.length_map]

theorem Reflects.extract_eq (h : Reflects c bindings) (keys : List ContextKey) :
    c.extract keys = keys.flatMap fun k =>
      ((lastBound bindings k.key).map fun v => [.text k.name, v]).getD [] := by
  rw [extract]
  congr 1
  funext k
  rw [h.value?_eq]
  cases lastBound bindings k.key <;> rfl

/-- Every context of a program reflects its trail. -/
theorem reflects_derived (ds : List Derivation) {n : Nat} {c : Context} (hc : (derived ds)[n]? = some c) :
    Reflects c (trail ds n) := by
  induction ds using List.reverseRecOn generalizing n c with
  | nil =>
    obtain ⟨hlt, rfl⟩ := List.getElem?_eq_some_iff.mp hc
    obtain rfl : n = 0 := by simpa [derived] using hlt
    rw [trail]
    exact reflects_empty
  | append_singleton ds d ih =>
    have hlt := (List.getElem?_eq_some_iff.mp hc).1
    rw [length_derived, List.length_append, List.length_singleton] at hlt
    rcases Nat.lt_or_ge ds.length n with hnew | hold
    · -- the context that the last derivation made
      obtain rfl : n = ds.length + 1 := by omega
      rw [derived_concat, ← length_derived ds, List.getElem?_concat_length, Option.some.injEq] at hc
      rw [trail, List.getElem?_concat_length, ← hc]
      refine Reflects.bind ?_ d.key d.value
      by_cases hsource : d.source ≤ ds.length
      · have hget : (derived ds)[d.source]? = some _ :=
          List.getElem?_eq_getElem (by rw [length_derived]; omega)
        rw [hget, Option.getD_some, if_pos hsource, trail_append hsource]
        exact ih hget
      · rw [List.getElem?_eq_none (by rw [length_derived]; omega), if_neg hsource]
        exact reflects_empty
    · rw [getElem?_derived_append hold] at hc
      rw [trail_append hold]
      exact ih hc

/-- After any derivations, and after any more of them, a context binds every key once, to the value that
its own trail bound it to last; keys that its trail does not bind have no value; it has as many bindings
as its trail has different keys; and a table of keys takes out of it the names and values of the entries
whose keys it binds, in the order of the table. -/
theorem derived_persistent (ds : List Derivation) (n : Nat) (hn : n ≤ ds.length) :
    ∃ c : Context, (∀ more, (derived (ds ++ more))[n]? = some c) ∧
      (c.values.map Prod.fst).Nodup ∧
      (∀ k v, c.value? k = some v ↔
        ∃ before after, trail ds n = before ++ (k, v) :: after ∧ ∀ b ∈ after, b.1 ≠ k) ∧
      (∀ k, c.value? k = none ↔ ∀ b ∈ trail ds n, b.1 ≠ k) ∧
      c.size = ((trail ds n).map Prod.fst).dedup.length ∧
      ∀ keys, c.extract keys = keys.flatMap fun k =>
        ((lastBound (trail ds n) k.key).map fun v => [.text k.name, v]).getD [] := by
  have hlt : n < (derived ds).length := by
    rw [length_derived]
    omega
  have hc : (derived ds)[n]? = some (derived ds)[n] := List.getElem?_eq_getElem hlt
  have hreflects := reflects_derived ds hc
  refine ⟨(derived ds)[n], fun more => (getElem?_derived_append hn more).trans hc, hreflects.nodup_keys,
    fun k v => ?_, fun k => ?_, hreflects.size_eq, hreflects.extract_eq⟩
  · rw [hreflects.value?_eq, lastBound_eq_some_iff]
  · rw [hreflects.value?_eq, lastBound_eq_none_iff]

/-- Two branches off the first context, of which one binds its key again. -/
def branches : List Derivation :=
  [⟨0, "tenant", .text "a"⟩, ⟨1, "user", .nat 1⟩, ⟨2, "tenant", .text "b"⟩, ⟨1, "user", .nat 2⟩]

theorem derived_persistent_branches :
    3 ≤ branches.length ∧
      trail branches 3 = [("tenant", .text "a"), ("user", .nat 1), ("tenant", .text "b")] ∧
      ∃ c : Context, (∀ more, (derived (branches ++ more))[3]? = some c) ∧ c.size = 2 ∧
        c.extract [⟨"tenant", "t"⟩, ⟨"none", "n"⟩, ⟨"user", "u"⟩, ⟨"tenant", "t"⟩] =
          [.text "t", .text "b", .text "u", .nat 1, .text "t", .text "b"] := by
  have htrail : trail branches 3 = [("tenant", .text "a"), ("user", .nat 1), ("tenant", .text "b")] := by
    simp [trail, branches]
  obtain ⟨c, hkept, -, -, -, hsize, hextract⟩ := derived_persistent branches 3 (by decide)
  rw [htrail] at hsize hextract
  exact ⟨by decide, htrail, c, hkept, hsize, hextract _⟩

end Logline.Context
