import Mathlib
import Logline.Proofs.Rendering

/-!
# Which renderings survive

Of renderings in order, one is *settled* if all later ones of its key have the same octets, and it
*survives* if it is the first settled one of its key: the first of the last run of equal renderings of
that key. `survivors` are those renderings, in their order.

The facts below say how this changes when one more rendering comes: an earlier one goes on to survive
unless the new one has its key and other octets (`survives_snoc`), and the new one survives unless it
repeats a survivor (`survives_snoc_last`). Every key has exactly one survivor (`exists_survivor`,
`Survives.unique`, `nodup_keys_survivors`).
-/

namespace Logline

/-- Every later rendering of the key of the `i`-th one has the octets of the `i`-th one. -/
def Settled (rs : List Rendering) (i : Nat) : Prop :=
  ∀ j < rs.length, i < j → ∀ r ∈ rs[i]?, ∀ s ∈ rs[j]?, s.key = r.key → s.bytes = r.bytes

/-- The `i`-th rendering is settled, and no earlier one of its key is. -/
def Survives (rs : List Rendering) (i : Nat) : Prop :=
  Settled rs i ∧ ∀ j < i, ∀ r ∈ rs[i]?, ∀ s ∈ rs[j]?, s.key = r.key → ¬ Settled rs j

instance (rs : List Rendering) (i : Nat) : Decidable (Settled rs i) :=
  inferInstanceAs <| Decidable <|
    ∀ j < rs.length, i < j → ∀ r ∈ rs[i]?, ∀ s ∈ rs[j]?, s.key = r.key → s.bytes = r.bytes

instance (rs : List Rendering) (i : Nat) : Decidable (Survives rs i) :=
  inferInstanceAs <| Decidable <|
    Settled rs i ∧ ∀ j < i, ∀ r ∈ rs[i]?, ∀ s ∈ rs[j]?, s.key = r.key → ¬ Settled rs j

/-- The renderings that survive, in their order. -/
def survivors (rs : List Rendering) : List Rendering :=
  ((List.range rs.length).filter fun i => Survives rs i).filterMap fun i => rs[i]?

-- a key that gets its first value back is last where it got it back
example : survivors [⟨[1], [7]⟩, ⟨[2], [7]⟩, ⟨[1], [8]⟩, ⟨[2], [7]⟩, ⟨[1], [7]⟩] =
    [⟨[2], [7]⟩, ⟨[1], [7]⟩] := by decide

variable {rs : List Rendering} {i j : Nat} {r s : Rendering}

/-! ### One survivor for each key -/

theorem Settled.bytes_eq (h : Settled rs i) (hij : i < j) (hi : rs[i]? = some r) (hj : rs[j]? = some s)
    (hkey : s.key = r.key) : s.bytes = r.bytes := by
  obtain ⟨hlt, -⟩ := List.getElem?_eq_some_iff.mp hj
  exact h j hlt hij r hi s hj hkey

/-- Up to a settled rendering there is a survivor of its key, and it has the same octets. -/
theorem exists_survivor_le (h : Settled rs j) (hj : rs[j]? = some s) :
    ∃ i ≤ j, ∃ r, rs[i]? = some r ∧ Survives rs i ∧ r.key = s.key ∧ r.bytes = s.bytes := by
  induction j using Nat.strong_induction_on generalizing s with
  | _ j ih =>
    by_cases hfirst : ∀ k < j, ∀ t ∈ rs[k]?, t.key = s.key → ¬ Settled rs k
    · have hsurvives : Survives rs j := by
        refine ⟨h, fun k hk r hr t ht hkey => hfirst k hk t ht ?_⟩
        rwa [Option.some.inj (hj.symm.trans hr)]
      exact ⟨j, le_refl j, s, hj, hsurvives, rfl, rfl⟩
    · push Not at hfirst
      obtain ⟨k, hk, t, ht, hkey, hsettled⟩ := hfirst
      obtain ⟨i, hik, r, hr, hsurvives, hrt, hbytes⟩ := ih k hk hsettled ht
      have hst : s.bytes = t.bytes := hsettled.bytes_eq hk ht hj hkey.symm
      exact ⟨i, by omega, r, hr, hsurvives, hrt.trans hkey, hbytes.trans hst.symm⟩

/-- Behind any rendering, or at it, there is a settled one of its key. -/
theorem exists_settled (hi : rs[i]? = some r) :
    ∃ j s, rs[j]? = some s ∧ Settled rs j ∧ s.key = r.key := by
  obtain ⟨hlt, -⟩ := List.getElem?_eq_some_iff.mp hi
  -- towards the end of the list: an unsettled rendering has a later one of its key
  induction hn : rs.length - i using Nat.strong_induction_on generalizing i r with
  | _ n ih =>
    by_cases h : Settled rs i
    · exact ⟨i, r, hi, h, rfl⟩
    · unfold Settled at h
      push Not at h
      obtain ⟨j, hj, hij, r', hr', s, hs, hkey, -⟩ := h
      obtain ⟨k, t, ht, hsettled, htkey⟩ := ih (rs.length - j) (by omega) hs hj rfl
      obtain rfl : r = r' := Option.some.inj (hi.symm.trans hr')
      exact ⟨k, t, ht, hsettled, htkey.trans hkey⟩

theorem exists_survivor (hi : rs[i]? = some r) :
    ∃ j s, rs[j]? = some s ∧ Survives rs j ∧ s.key = r.key := by
  obtain ⟨j, s, hs, hsettled, hkey⟩ := exists_settled hi
  obtain ⟨k, -, t, ht, hsurvives, htkey, -⟩ := exists_survivor_le hsettled hs
  exact ⟨k, t, ht, hsurvives, htkey.trans hkey⟩

theorem Survives.unique (hi : Survives rs i) (hj : Survives rs j) (hr : rs[i]? = some r)
    (hs : rs[j]? = some s) (hkey : s.key = r.key) : i = j := by
  rcases Nat.lt_trichotomy i j with hlt | heq | hlt
  · exact absurd hi.1 (hj.2 i hlt s hs r hr hkey.symm)
  · exact heq
  · exact absurd hj.1 (hi.2 j hlt r hr s hs hkey)

theorem mem_survivors : r ∈ survivors rs ↔ ∃ i, rs[i]? = some r ∧ Survives rs i := by
  simp only [survivors, List.mem_filterMap, List.mem_filter, List.mem_range, decide_eq_true_eq]
  constructor
  · rintro ⟨i, ⟨-, hsurvives⟩, hr⟩
    exact ⟨i, hr, hsurvives⟩
  · rintro ⟨i, hr, hsurvives⟩
    exact ⟨i, ⟨(List.getElem?_eq_some_iff.mp hr).1, hsurvives⟩, hr⟩

theorem mem_survivors_map {α : Type} {f : α → Rendering} {xs : List α} :
    r ∈ survivors (xs.map f) ↔ ∃ i x, xs[i]? = some x ∧ Survives (xs.map f) i ∧ f x = r := by
  simp only [mem_survivors, List.getElem?_map, Option.map_eq_some_iff]
  constructor
  · rintro ⟨i, ⟨x, hx, heq⟩, hsurvives⟩
    exact ⟨i, x, hx, hsurvives, heq⟩
  · rintro ⟨i, x, hx, hsurvives, heq⟩
    exact ⟨i, ⟨x, hx, heq⟩, hsurvives⟩

theorem nodup_keys_survivors (rs : List Rendering) : ((survivors rs).map Rendering.key).Nodup := by
  have hrange : ((List.range rs.length).filter fun i => Survives rs i).Nodup := List.nodup_range.filter _
  rw [survivors, List.Nodup, List.pairwise_map, List.pairwise_filterMap]
  refine hrange.pairwise_of_forall_ne fun i hi j hj hne r hr s hs hkey => hne ?_
  rw [List.mem_filter, decide_eq_true_eq] at hi hj
  exact hi.2.unique hj.2 hr hs hkey.symm

theorem mem_keys_survivors {key : Bytes} :
    key ∈ (survivors rs).map Rendering.key ↔ ∃ r ∈ rs, r.key = key := by
  constructor
  · intro h
    obtain ⟨r, hr, rfl⟩ := List.mem_map.mp h
    obtain ⟨i, hi, -⟩ := mem_survivors.mp hr
    exact ⟨r, List.mem_of_getElem? hi, rfl⟩
  · rintro ⟨r, hr, rfl⟩
    obtain ⟨i, hi⟩ := List.getElem?_of_mem hr
    obtain ⟨j, s, hs, hsurvives, hkey⟩ := exists_survivor hi
    exact List.mem_map.mpr ⟨s, mem_survivors.mpr ⟨j, hs, hsurvives⟩, hkey⟩

/-! ### One more rendering -/

variable {x : Rendering}

theorem getElem?_snoc_of_lt (hi : i < rs.length) : (rs ++ [x])[i]? = rs[i]? :=
  List.getElem?_append_left hi

theorem settled_snoc_last (rs : List Rendering) (x : Rendering) : Settled (rs ++ [x]) rs.length := by
  intro j hj hlt
  rw [List.length_append, List.length_singleton] at hj
  omega

theorem settled_snoc (hi : rs[i]? = some r) :
    Settled (rs ++ [x]) i ↔ Settled rs i ∧ (x.key = r.key → x.bytes = r.bytes) := by
  obtain ⟨hlt, -⟩ := List.getElem?_eq_some_iff.mp hi
  have hlast : (rs ++ [x])[rs.length]? = some x := List.getElem?_concat_length
  have hold : (rs ++ [x])[i]? = some r := (getElem?_snoc_of_lt hlt).trans hi
  constructor
  · intro h
    refine ⟨fun j hj hij r' hr' s hs hkey => ?_, h.bytes_eq hlt hold hlast⟩
    rw [← getElem?_snoc_of_lt (x := x) hlt] at hr'
    rw [← getElem?_snoc_of_lt (x := x) hj] at hs
    exact h.bytes_eq hij hr' hs hkey
  · rintro ⟨h, hx⟩ j hj hij r' hr' s hs hkey
    obtain rfl : r = r' := Option.some.inj (hold.symm.trans hr')
    rw [List.length_append, List.length_singleton] at hj
    rcases Nat.lt_succ_iff_lt_or_eq.mp hj with hj | rfl
    · exact h.bytes_eq hij hi ((getElem?_snoc_of_lt hj).symm.trans hs) hkey
    · obtain rfl : x = s := Option.some.inj (hlast.symm.trans hs)
      exact hx hkey

/-- An earlier rendering goes on to survive, unless the new one has its key and other octets. -/
theorem survives_snoc (hi : rs[i]? = some r) :
    Survives (rs ++ [x]) i ↔ Survives rs i ∧ (x.key = r.key → x.bytes = r.bytes) := by
  obtain ⟨hlt, -⟩ := List.getElem?_eq_some_iff.mp hi
  have hold : (rs ++ [x])[i]? = some r := (getElem?_snoc_of_lt hlt).trans hi
  constructor
  · rintro ⟨hsettled, hfirst⟩
    obtain ⟨hsettled, hx⟩ := (settled_snoc hi).mp hsettled
    refine ⟨⟨hsettled, fun j hj r' hr' s hs hkey h => ?_⟩, hx⟩
    obtain rfl : r = r' := Option.some.inj (hi.symm.trans hr')
    have hbytes : r.bytes = s.bytes := h.bytes_eq hj hs hi hkey.symm
    refine hfirst j hj r hold s ((getElem?_snoc_of_lt (by omega)).trans hs) hkey ?_
    exact (settled_snoc hs).mpr ⟨h, fun hxs => (hx (hxs.trans hkey)).trans hbytes⟩
  · rintro ⟨⟨hsettled, hfirst⟩, hx⟩
    refine ⟨(settled_snoc hi).mpr ⟨hsettled, hx⟩, fun j hj r' hr' s hs hkey h => ?_⟩
    obtain rfl : r = r' := Option.some.inj (hold.symm.trans hr')
    rw [getElem?_snoc_of_lt (by omega)] at hs
    exact hfirst j hj r hi s hs hkey ((settled_snoc hs).mp h).1

/-- The new rendering survives, unless it repeats a survivor. -/
theorem survives_snoc_last :
    Survives (rs ++ [x]) rs.length ↔
      ∀ i r, rs[i]? = some r → Survives rs i → r.key = x.key → r.bytes ≠ x.bytes := by
  have hlast : (rs ++ [x])[rs.length]? = some x := List.getElem?_concat_length
  constructor
  · intro h i r hi hsurvives hkey hbytes
    obtain ⟨hlt, -⟩ := List.getElem?_eq_some_iff.mp hi
    refine h.2 i hlt x hlast r ((getElem?_snoc_of_lt hlt).trans hi) hkey ?_
    exact (settled_snoc hi).mpr ⟨hsurvives.1, fun _ => hbytes.symm⟩
  · intro h
    refine ⟨settled_snoc_last rs x, fun j hj x' hx' s hs hkey hsettled => ?_⟩
    obtain rfl : x = x' := Option.some.inj (hlast.symm.trans hx')
    rw [getElem?_snoc_of_lt hj] at hs
    obtain ⟨hsettled, hx⟩ := (settled_snoc hs).mp hsettled
    obtain ⟨i, -, r, hr, hsurvives, hrs, hbytes⟩ := exists_survivor_le hsettled hs
    exact h i r hr hsurvives (hrs.trans hkey) (hbytes.trans (hx hkey.symm).symm)

end Logline
