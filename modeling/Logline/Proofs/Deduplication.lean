import Mathlib
import Logline.Proofs.Survivors

/-!
# Every key keeps the last run of its renderings

Lists of pairs are written in place: all pairs go to the buffer, ranges are marked as obsolete, and one
pass cuts those out. `writeLists_survivors`: what is left is the original content and the survivors of the
renderings, in their order.

`Progress.Tracks` is the loop invariant. The buffer holds all renderings so far; the entries stand for the
survivors among them, in some order; the obsolete ranges are those of all others, in ascending order.
Pairs are named by their position in the list of renderings.
-/

namespace Logline

/-! ### Where a rendering stands -/

/-- Where the `i`-th rendering starts, when the first one starts at `base`. -/
def offset (base : Nat) (rs : List Rendering) (i : Nat) : Nat :=
  base + ((rs.take i).flatMap Rendering.bytes).length

/-- The range of the `i`-th rendering. -/
def spanAt (base : Nat) (rs : List Rendering) (i : Nat) : Span :=
  ⟨offset base rs i, offset base rs (i + 1)⟩

/-- The entry of the `i`-th rendering: its key stands right behind the space. -/
def entryAt (base : Nat) (rs : List Rendering) (i : Nat) : Entry where
  key := ⟨offset base rs i + 1, offset base rs i + 1 + ((rs[i]?).map (·.key.length)).getD 0⟩
  span := spanAt base rs i

@[simp] theorem span_entryAt (base : Nat) (rs : List Rendering) (i : Nat) :
    (entryAt base rs i).span = spanAt base rs i := rfl

variable {base : Nat} {start : Bytes} {rs : List Rendering} {i j : Nat} {r s x : Rendering}

theorem offset_snoc (hi : i ≤ rs.length) : offset base (rs ++ [x]) i = offset base rs i := by
  rw [offset, offset, List.take_append_of_le_length hi]

theorem offset_succ (hi : rs[i]? = some r) :
    offset base rs (i + 1) = offset base rs i + r.bytes.length := by
  simp only [offset, List.take_add_one, hi, Option.toList_some, List.flatMap_append,
    List.flatMap_singleton, List.length_append, Nat.add_assoc]

theorem offset_length : offset base rs rs.length = base + (rs.flatMap Rendering.bytes).length := by
  rw [offset, List.take_length]

theorem offset_lt_succ (hi : i < rs.length) : offset base rs i < offset base rs (i + 1) := by
  have hget : rs[i]? = some rs[i] := List.getElem?_eq_getElem hi
  rw [offset_succ hget, Rendering.length_bytes]
  omega

theorem offset_lt (hij : i < j) (hj : j ≤ rs.length) : offset base rs i < offset base rs j := by
  induction j, hij using Nat.le_induction with
  | base => exact offset_lt_succ (by omega)
  | succ j hij ih => exact (ih (by omega)).trans (offset_lt_succ (by omega))

theorem spanAt_snoc (hi : i < rs.length) : spanAt base (rs ++ [x]) i = spanAt base rs i := by
  rw [spanAt, spanAt, offset_snoc hi.le, offset_snoc hi]

theorem entryAt_snoc (hi : i < rs.length) : entryAt base (rs ++ [x]) i = entryAt base rs i := by
  rw [entryAt, entryAt, spanAt_snoc hi, offset_snoc hi.le, getElem?_snoc_of_lt hi]

theorem flatMap_bytes_split (hi : rs[i]? = some r) :
    rs.flatMap Rendering.bytes =
      (rs.take i).flatMap Rendering.bytes ++ r.bytes ++ (rs.drop (i + 1)).flatMap Rendering.bytes := by
  obtain ⟨hlt, rfl⟩ := List.getElem?_eq_some_iff.mp hi
  conv_lhs => rw [← List.take_append_drop i rs, List.drop_eq_getElem_cons hlt]
  rw [List.flatMap_append, List.flatMap_cons, List.append_assoc]

theorem slice_spanAt (start : Bytes) (hi : rs[i]? = some r) :
    (spanAt start.length rs i).slice (start ++ rs.flatMap Rendering.bytes) = r.bytes := by
  have h := Span.slice_append_append (start ++ (rs.take i).flatMap Rendering.bytes) r.bytes
    ((rs.drop (i + 1)).flatMap Rendering.bytes)
  rw [List.length_append] at h
  rw [spanAt, offset_succ hi, offset, flatMap_bytes_split hi, ← List.append_assoc, ← List.append_assoc, h]

theorem slice_entryAt_key (start : Bytes) (hi : rs[i]? = some r) :
    (entryAt start.length rs i).key.slice (start ++ rs.flatMap Rendering.bytes) = r.key := by
  have h := Span.slice_append_append (start ++ (rs.take i).flatMap Rendering.bytes ++ [0x20]) r.key
    (r.value ++ (rs.drop (i + 1)).flatMap Rendering.bytes)
  simp only [List.length_append, List.length_singleton, List.append_assoc, List.singleton_append] at h
  simp only [entryAt, offset, hi, Option.map_some, Option.getD_some]
  rw [flatMap_bytes_split hi, Rendering.bytes]
  simpa only [List.append_assoc, List.cons_append, Nat.add_assoc] using h

/-! ### Obsolete ranges in ascending order -/

namespace Progress

theorem insertSpan_append {span : Span} {before after : List Span}
    (hbefore : ∀ s ∈ before, s.start < span.start) (hafter : ∀ s ∈ after, span.start ≤ s.start) :
    insertSpan span (before ++ after) = before ++ span :: after := by
  have hpos : ∀ s ∈ before, decide (s.start < span.start) = true := fun s hs => decide_eq_true (hbefore s hs)
  rw [insertSpan, List.takeWhile_append_of_pos hpos, List.dropWhile_append_of_pos hpos]
  cases after with
  | nil => simp
  | cons s rest =>
    have hneg : ¬ s.start < span.start := not_lt.mpr (hafter s List.mem_cons_self)
    rw [List.takeWhile_cons_of_neg (by simpa using hneg), List.dropWhile_cons_of_neg (by simpa using hneg),
      List.append_nil]

theorem mem_set_of_nodup {l : List Nat} (hl : l.Nodup) {k : Nat} (hk : k < l.length) (a j : Nat) :
    j ∈ l.set k a ↔ j = a ∨ (j ∈ l ∧ j ≠ l[k]) := by
  have hsplit : l.take k ++ l[k] :: l.drop (k + 1) = l := by
    rw [← List.drop_eq_getElem_cons hk, List.take_append_drop]
  have hmem : j ∈ l ↔ j = l[k] ∨ j ∈ l.take k ++ l.drop (k + 1) := by
    conv_lhs => rw [← hsplit]
    simp only [List.mem_append, List.mem_cons]
    tauto
  have hother : l[k] ∉ l.take k ++ l.drop (k + 1) := by
    have hnodup : (l.take k ++ l[k] :: l.drop (k + 1)).Nodup := hsplit.symm ▸ hl
    exact (List.nodup_cons.mp (List.nodup_middle.mp hnodup)).1
  rw [List.set_eq_take_append_cons_drop, if_pos hk, hmem]
  by_cases hj : j = l[k]
  · subst hj
    simp only [List.mem_append, List.mem_cons] at hother ⊢
    tauto
  · simp only [List.mem_append, List.mem_cons]
    tauto

theorem range_split {n : Nat} (hi : i < n) :
    List.range n = List.range i ++ i :: List.range' (i + 1) (n - (i + 1)) := by
  have happend := List.range'_append_1 (s := 0) (m := i) (n := n - (i + 1) + 1)
  rw [Nat.zero_add] at happend
  rw [List.range_eq_range', List.range_eq_range', ← List.range'_succ, happend]
  congr 1
  omega

/-- One more position among those whose ranges are obsolete. -/
theorem insertSpan_filter {n : Nat} {dead : Nat → Prop} [DecidablePred dead] (hi : i < n)
    (hn : n ≤ rs.length) (hlive : ¬ dead i) :
    insertSpan (spanAt base rs i) (((List.range n).filter fun j => dead j).map (spanAt base rs)) =
      ((List.range n).filter fun j => dead j ∨ j = i).map (spanAt base rs) := by
  have hbefore : ((List.range i).filter fun j => dead j ∨ j = i) = (List.range i).filter fun j => dead j := by
    refine List.filter_congr fun j hj => ?_
    have hne : j ≠ i := (List.mem_range.mp hj).ne
    simp only [hne, or_false]
  have hafter : ((List.range' (i + 1) (n - (i + 1))).filter fun j => dead j ∨ j = i) =
      (List.range' (i + 1) (n - (i + 1))).filter fun j => dead j := by
    refine List.filter_congr fun j hj => ?_
    have hne : j ≠ i := by
      have := List.mem_range'_1.mp hj
      omega
    simp only [hne, or_false]
  rw [range_split hi, List.filter_append, List.filter_append, hbefore,
    List.filter_cons_of_neg (by simpa using hlive), List.filter_cons_of_pos (by simp), hafter,
    List.map_append, List.map_append, List.map_cons]
  refine insertSpan_append ?_ ?_
  · intro s hs
    obtain ⟨j, hj, rfl⟩ := List.mem_map.mp hs
    have hlt := List.mem_range.mp (List.mem_of_mem_filter hj)
    exact offset_lt hlt (by omega)
  · intro s hs
    obtain ⟨j, hj, rfl⟩ := List.mem_map.mp hs
    have hlt := List.mem_range'_1.mp (List.mem_of_mem_filter hj)
    exact (offset_lt (show i < j by omega) (by omega)).le

end Progress

/-! ### The loop invariant -/

/-- The state after the renderings `rs` were written behind `start`; `current` are the positions of the
renderings that the entries stand for. -/
structure Progress.Tracks (start : Bytes) (rs : List Rendering) (current : List Nat) (p : Progress) :
    Prop where
  buf_eq : p.buf = start ++ rs.flatMap Rendering.bytes
  entries_eq : p.entries = current.map (entryAt start.length rs)
  obsolete_eq : p.obsolete =
    ((List.range rs.length).filter fun i => ¬ Survives rs i).map (spanAt start.length rs)
  nodup : current.Nodup
  mem_current : ∀ i, i ∈ current ↔ i < rs.length ∧ Survives rs i

namespace Progress.Tracks

variable {current : List Nat} {p : Progress}

theorem initial (start : Bytes) : Tracks start [] [] { buf := start } where
  buf_eq := by simp
  entries_eq := rfl
  obsolete_eq := rfl
  nodup := List.nodup_nil
  mem_current := by simp

/-! ### What recording a rendering does -/

theorem buf_snoc (h : Tracks start rs current p) (x : Rendering) :
    p.buf ++ x.bytes = start ++ (rs ++ [x]).flatMap Rendering.bytes := by
  rw [h.buf_eq, List.flatMap_append, List.flatMap_singleton, List.append_assoc]

theorem entries_snoc (h : Tracks start rs current p) (x : Rendering) :
    p.entries = current.map (entryAt start.length (rs ++ [x])) := by
  rw [h.entries_eq]
  refine List.map_congr_left fun i hi => ?_
  exact (entryAt_snoc ((h.mem_current i).mp hi).1).symm

theorem obsolete_snoc (h : Tracks start rs current p) (x : Rendering) :
    p.obsolete =
      ((List.range rs.length).filter fun i => ¬ Survives rs i).map (spanAt start.length (rs ++ [x])) := by
  rw [h.obsolete_eq]
  refine List.map_congr_left fun i hi => ?_
  exact (spanAt_snoc (List.mem_range.mp (List.mem_of_mem_filter hi))).symm

/-- The range of the key of the new rendering. -/
def newKey (p : Progress) (x : Rendering) : Span :=
  ⟨p.buf.length + 1, p.buf.length + 1 + x.key.length⟩

theorem entryAt_last (h : Tracks start rs current p) (x : Rendering) :
    entryAt start.length (rs ++ [x]) rs.length =
      ⟨newKey p x, ⟨p.buf.length, (p.buf ++ x.bytes).length⟩⟩ := by
  have hlast : (rs ++ [x])[rs.length]? = some x := List.getElem?_concat_length
  have hstart : offset start.length (rs ++ [x]) rs.length = p.buf.length := by
    rw [offset_snoc le_rfl, offset_length, h.buf_eq, List.length_append]
  simp only [entryAt, spanAt, offset_succ hlast, hstart, hlast, newKey, Option.map_some,
    Option.getD_some, List.length_append]

theorem exists_of_mem_current (h : Tracks start rs current p) (hi : i ∈ current) :
    ∃ r, rs[i]? = some r ∧ Survives rs i := by
  obtain ⟨hlt, hsurvives⟩ := (h.mem_current i).mp hi
  exact ⟨rs[i], List.getElem?_eq_getElem hlt, hsurvives⟩

theorem slice_old (h : Tracks start rs current p) (x : Rendering) (hi : rs[i]? = some r) :
    (entryAt start.length (rs ++ [x]) i).key.slice (p.buf ++ x.bytes) = r.key ∧
      (spanAt start.length (rs ++ [x]) i).slice (p.buf ++ x.bytes) = r.bytes := by
  obtain ⟨hlt, -⟩ := List.getElem?_eq_some_iff.mp hi
  have hold : (rs ++ [x])[i]? = some r := (getElem?_snoc_of_lt hlt).trans hi
  rw [h.buf_snoc x]
  exact ⟨slice_entryAt_key start hold, slice_spanAt start hold⟩

theorem slice_new (h : Tracks start rs current p) (x : Rendering) :
    (newKey p x).slice (p.buf ++ x.bytes) = x.key ∧
      Span.slice ⟨p.buf.length, (p.buf ++ x.bytes).length⟩ (p.buf ++ x.bytes) = x.bytes := by
  have hlast : (rs ++ [x])[rs.length]? = some x := List.getElem?_concat_length
  have hkey := slice_entryAt_key start hlast
  have hspan := slice_spanAt start hlast
  rw [show spanAt start.length (rs ++ [x]) rs.length = _ from
    congrArg Entry.span (h.entryAt_last x)] at hspan
  rw [h.entryAt_last x] at hkey
  rw [← h.buf_snoc x] at hkey hspan
  exact ⟨hkey, hspan⟩

/-- A key that no rendering has so far gets an entry. -/
theorem record_fresh (h : Tracks start rs current p) (hfresh : ∀ r ∈ rs, r.key ≠ x.key) :
    p.record (p.buf ++ x.bytes) (newKey p x) =
      { buf := p.buf ++ x.bytes
        entries := (current ++ [rs.length]).map (entryAt start.length (rs ++ [x]))
        obsolete := p.obsolete } := by
  have hfind : p.entries.findIdx? (fun e => e.key.slice (p.buf ++ x.bytes) ==
      (newKey p x).slice (p.buf ++ x.bytes)) = none := by
    rw [List.findIdx?_eq_none_iff, h.entries_snoc x, (h.slice_new x).1]
    intro e he
    obtain ⟨i, hi, rfl⟩ := List.mem_map.mp he
    obtain ⟨r, hr, -⟩ := h.exists_of_mem_current hi
    rw [(h.slice_old x hr).1]
    exact beq_false_of_ne (hfresh r (List.mem_of_getElem? hr))
  rw [record, hfind]
  simp only [List.map_append, List.map_cons, List.map_nil, ← h.entries_snoc x, h.entryAt_last x]

/-- A key that a rendering has is found with the survivor of that key. The new rendering is obsolete if it
repeats the survivor; else it takes the survivor's place, and that one is obsolete. -/
theorem record_known (h : Tracks start rs current p) (hr : r ∈ rs) (hkey : r.key = x.key) :
    ∃ k i s, current[k]? = some i ∧ rs[i]? = some s ∧ Survives rs i ∧ s.key = x.key ∧
      p.record (p.buf ++ x.bytes) (newKey p x) =
        if s.bytes = x.bytes then
          { buf := p.buf ++ x.bytes
            entries := p.entries
            obsolete := p.obsolete ++ [spanAt start.length (rs ++ [x]) rs.length] }
        else
          { buf := p.buf ++ x.bytes
            entries := (current.set k rs.length).map (entryAt start.length (rs ++ [x]))
            obsolete := insertSpan (spanAt start.length (rs ++ [x]) i) p.obsolete } := by
  obtain ⟨hnewKey, hnewSpan⟩ := h.slice_new x
  cases hfind : p.entries.findIdx? (fun e => e.key.slice (p.buf ++ x.bytes) ==
      (newKey p x).slice (p.buf ++ x.bytes)) with
  | none =>
    -- impossible: the survivor of the key has an entry
    obtain ⟨i, hi⟩ := List.getElem?_of_mem hr
    obtain ⟨j, s, hs, hsurvives, hsr⟩ := exists_survivor hi
    obtain ⟨hlt, -⟩ := List.getElem?_eq_some_iff.mp hs
    rw [List.findIdx?_eq_none_iff, h.entries_snoc x] at hfind
    have hne := hfind _ (List.mem_map_of_mem ((h.mem_current j).mpr ⟨hlt, hsurvives⟩))
    rw [(h.slice_old x hs).1, hnewKey, beq_eq_false_iff_ne] at hne
    exact absurd (hsr.trans hkey) hne
  | some k =>
    obtain ⟨hk, hfound, -⟩ := List.findIdx?_eq_some_iff_getElem.mp hfind
    have hlength : k < current.length := by rwa [h.entries_eq, List.length_map] at hk
    have hentry : p.entries[k]? = some (entryAt start.length (rs ++ [x]) current[k]) := by
      rw [h.entries_snoc x, List.getElem?_map, List.getElem?_eq_getElem hlength, Option.map_some]
    obtain ⟨s, hs, hsurvives⟩ := h.exists_of_mem_current (List.getElem_mem hlength)
    obtain ⟨holdKey, holdSpan⟩ := h.slice_old x hs
    rw [(List.getElem?_eq_some_iff.mp hentry).2, holdKey, hnewKey, beq_iff_eq] at hfound
    refine ⟨k, current[k], s, List.getElem?_eq_getElem hlength, hs, hsurvives, hfound, ?_⟩
    have hset : (current.set k rs.length).map (entryAt start.length (rs ++ [x])) =
        p.entries.set k (entryAt start.length (rs ++ [x]) rs.length) := by
      rw [List.map_set, ← h.entries_snoc x]
    have hspan : spanAt start.length (rs ++ [x]) rs.length =
        ⟨p.buf.length, (p.buf ++ x.bytes).length⟩ := congrArg Entry.span (h.entryAt_last x)
    rw [record, hfind]
    simp only [hentry]
    rw [hnewSpan, span_entryAt, holdSpan, hset, hspan, h.entryAt_last x]
    simp only [beq_iff_eq]

/-! ### One rendering -/

/-- Which earlier renderings survive, when the new one has the key of the survivor `s` at `i`. -/
theorem survives_snoc_known (hi : rs[i]? = some s) (hsurvives : Survives rs i) (hkey : s.key = x.key)
    (hj : j < rs.length) :
    Survives (rs ++ [x]) j ↔ Survives rs j ∧ (j = i → s.bytes = x.bytes) := by
  have hget : rs[j]? = some rs[j] := List.getElem?_eq_getElem hj
  rw [survives_snoc hget]
  refine and_congr_right fun h => ⟨?_, ?_⟩
  · rintro hx rfl
    obtain rfl : rs[j] = s := Option.some.inj (hget.symm.trans hi)
    exact (hx hkey.symm).symm
  · intro hx hxj
    obtain rfl : j = i := h.unique hsurvives hget hi (hkey.trans hxj)
    obtain rfl : rs[j] = s := Option.some.inj (hget.symm.trans hi)
    exact (hx rfl).symm

/-- The obsolete positions with one more rendering: those up to it, and possibly its own. -/
theorem filter_range_snoc (rs : List Rendering) (x : Rendering) :
    ((List.range (rs ++ [x]).length).filter fun i => ¬ Survives (rs ++ [x]) i) =
      ((List.range rs.length).filter fun i => ¬ Survives (rs ++ [x]) i) ++
        if Survives (rs ++ [x]) rs.length then [] else [rs.length] := by
  rw [List.length_append, List.length_singleton, List.range_succ, List.filter_append]
  by_cases hlast : Survives (rs ++ [x]) rs.length <;> simp [hlast]

theorem filter_range_congr (hold : ∀ i < rs.length, (Survives (rs ++ [x]) i ↔ Survives rs i)) :
    ((List.range rs.length).filter fun i => ¬ Survives (rs ++ [x]) i) =
      (List.range rs.length).filter fun i => ¬ Survives rs i := by
  refine List.filter_congr fun i hi => ?_
  simp only [hold i (List.mem_range.mp hi)]

theorem mem_range_snoc {q : Nat → Prop} {l : List Nat}
    (hold : ∀ i < rs.length, i ∈ l ↔ q i) (hlast : rs.length ∈ l ↔ q rs.length)
    (hbound : ∀ i ∈ l, i ≤ rs.length) (i : Nat) : i ∈ l ↔ i < (rs ++ [x]).length ∧ q i := by
  rw [List.length_append, List.length_singleton]
  rcases Nat.lt_trichotomy i rs.length with hlt | rfl | hgt
  · rw [hold i hlt]
    exact ⟨fun hq => ⟨by omega, hq⟩, And.right⟩
  · rw [hlast]
    exact ⟨fun hq => ⟨by omega, hq⟩, And.right⟩
  · exact ⟨fun hmem => absurd (hbound i hmem) (by omega), fun hq => absurd hq.1 (by omega)⟩

theorem step_fresh (h : Tracks start rs current p) (hfresh : ∀ r ∈ rs, r.key ≠ x.key) :
    Tracks start (rs ++ [x]) (current ++ [rs.length]) (p.record (p.buf ++ x.bytes) (newKey p x)) := by
  have hbound : ∀ i ∈ current, i < rs.length := fun i hi => ((h.mem_current i).mp hi).1
  have hold : ∀ i < rs.length, (Survives (rs ++ [x]) i ↔ Survives rs i) := by
    intro i hi
    rw [survives_snoc (List.getElem?_eq_getElem hi), and_iff_left_iff_imp]
    exact fun _ hkey => absurd hkey.symm (hfresh _ (List.getElem_mem hi))
  have hlast : Survives (rs ++ [x]) rs.length :=
    survives_snoc_last.mpr fun i r hr _ hkey => absurd hkey (hfresh r (List.mem_of_getElem? hr))
  rw [h.record_fresh hfresh]
  refine ⟨h.buf_snoc x, rfl, ?_, ?_, ?_⟩
  · rw [filter_range_snoc, if_pos hlast, List.append_nil, filter_range_congr hold]
    exact h.obsolete_snoc x
  · refine List.nodup_append.mpr ⟨h.nodup, List.nodup_singleton _, ?_⟩
    intro i hi j hj heq
    rw [List.mem_singleton] at hj
    exact absurd (hbound i hi) (by omega)
  · refine mem_range_snoc (fun i hi => ?_) ?_ ?_
    · rw [List.mem_append, List.mem_singleton, h.mem_current, hold i hi]
      constructor
      · rintro (⟨-, hsurvives⟩ | rfl)
        · exact hsurvives
        · omega
      · exact fun hsurvives => Or.inl ⟨hi, hsurvives⟩
    · simp [hlast]
    · intro i hi
      rcases List.mem_append.mp hi with hi | hi
      · exact (hbound i hi).le
      · exact (List.mem_singleton.mp hi).le

theorem step_repeated (h : Tracks start rs current p) (hi : rs[i]? = some s) (hsurvives : Survives rs i)
    (hkey : s.key = x.key) (hbytes : s.bytes = x.bytes) :
    Tracks start (rs ++ [x]) current
      { buf := p.buf ++ x.bytes
        entries := p.entries
        obsolete := p.obsolete ++ [spanAt start.length (rs ++ [x]) rs.length] } := by
  have hold : ∀ j < rs.length, (Survives (rs ++ [x]) j ↔ Survives rs j) := fun j hj => by
    rw [survives_snoc_known hi hsurvives hkey hj, and_iff_left fun _ => hbytes]
  have hlast : ¬ Survives (rs ++ [x]) rs.length := fun hlast =>
    survives_snoc_last.mp hlast i s hi hsurvives hkey hbytes
  refine ⟨h.buf_snoc x, h.entries_snoc x, ?_, h.nodup, ?_⟩
  · rw [filter_range_snoc, if_neg hlast, filter_range_congr hold, List.map_append, ← h.obsolete_snoc x]
    rfl
  · refine mem_range_snoc (fun j hj => ?_) ?_ fun j hj => ((h.mem_current j).mp hj).1.le
    · rw [h.mem_current, hold j hj]
      exact and_iff_right hj
    · exact iff_of_false (fun hmem => absurd ((h.mem_current _).mp hmem).1 (lt_irrefl _)) hlast

theorem step_replaced (h : Tracks start rs current p) {k : Nat} (hk : current[k]? = some i)
    (hi : rs[i]? = some s) (hsurvives : Survives rs i) (hkey : s.key = x.key)
    (hbytes : s.bytes ≠ x.bytes) :
    Tracks start (rs ++ [x]) (current.set k rs.length)
      { buf := p.buf ++ x.bytes
        entries := (current.set k rs.length).map (entryAt start.length (rs ++ [x]))
        obsolete := insertSpan (spanAt start.length (rs ++ [x]) i) p.obsolete } := by
  obtain ⟨hlt, -⟩ := List.getElem?_eq_some_iff.mp hi
  obtain ⟨hlength, rfl⟩ := List.getElem?_eq_some_iff.mp hk
  have hbound : ∀ j ∈ current, j < rs.length := fun j hj => ((h.mem_current j).mp hj).1
  have hold : ∀ j < rs.length, (Survives (rs ++ [x]) j ↔ Survives rs j ∧ j ≠ current[k]) := fun j hj => by
    rw [survives_snoc_known hi hsurvives hkey hj, imp_iff_not hbytes]
  have hlast : Survives (rs ++ [x]) rs.length := by
    refine survives_snoc_last.mpr fun j r hr hother hrx heq => hbytes ?_
    obtain rfl : j = current[k] := hother.unique hsurvives hr hi (hkey.trans hrx.symm)
    rwa [← Option.some.inj (hr.symm.trans hi)]
  have hmem := fun j => mem_set_of_nodup h.nodup hlength rs.length j
  have hfilter : ((List.range rs.length).filter fun j => ¬ Survives (rs ++ [x]) j) =
      (List.range rs.length).filter fun j => ¬ Survives rs j ∨ j = current[k] := by
    refine List.filter_congr fun j hj => ?_
    rw [decide_eq_decide, hold j (List.mem_range.mp hj), not_and_or, not_not]
  refine ⟨h.buf_snoc x, rfl, ?_, ?_, ?_⟩
  · rw [filter_range_snoc, if_pos hlast, List.append_nil, h.obsolete_snoc x,
      insertSpan_filter hlt (by simp) (not_not.mpr hsurvives), hfilter]
  · exact h.nodup.set fun hmem => absurd (hbound _ hmem) (lt_irrefl _)
  · refine mem_range_snoc (fun j hj => ?_) ?_ ?_
    · rw [hmem, h.mem_current, hold j hj]
      constructor
      · rintro (rfl | ⟨⟨-, hother⟩, hne⟩)
        · omega
        · exact ⟨hother, hne⟩
      · exact fun hother => Or.inr ⟨⟨hj, hother.1⟩, hother.2⟩
    · exact iff_of_true ((hmem _).mpr (Or.inl rfl)) hlast
    · intro j hj
      rcases (hmem j).mp hj with rfl | ⟨hj, -⟩
      · exact le_rfl
      · exact (hbound j hj).le

theorem step (h : Tracks start rs current p) (x : Rendering) :
    ∃ current', Tracks start (rs ++ [x]) current' (p.record (p.buf ++ x.bytes) (newKey p x)) := by
  by_cases hknown : ∃ r ∈ rs, r.key = x.key
  · obtain ⟨r, hr, hkey⟩ := hknown
    obtain ⟨k, i, s, hk, hi, hsurvives, hsx, hrecord⟩ := h.record_known hr hkey
    rw [hrecord]
    split
    · next hbytes => exact ⟨current, h.step_repeated hi hsurvives hsx hbytes⟩
    · next hbytes => exact ⟨_, h.step_replaced hk hi hsurvives hsx hbytes⟩
  · push Not at hknown
    exact ⟨_, h.step_fresh hknown⟩

theorem writePairs (f : Formatter) (h : Tracks start rs current p) (pairs : List (Value × Value)) :
    ∃ current', Tracks start (rs ++ pairs.map f.rendering) current' (f.writePairs p pairs).value := by
  induction pairs generalizing rs current p with
  | nil => exact ⟨current, by simpa [Formatter.writePairs] using h⟩
  | cons pair rest ih =>
    obtain ⟨current', hstep⟩ := h.step (f.rendering pair)
    obtain ⟨current'', hrest⟩ := ih hstep
    refine ⟨current'', ?_⟩
    rw [Formatter.writePairs, Traced.value_bind, Formatter.writePair_value, List.map_cons,
      ← List.singleton_append, ← List.append_assoc]
    exact hrest

end Progress.Tracks

/-! ### The result -/

/-- From the `k`-th rendering on, the ranges of some renderings are ascending, and what lies outside them
are the other renderings. -/
theorem outside_spans (dead : Nat → Prop) [DecidablePred dead] (start : Bytes) (n k : Nat)
    (hn : k + n = rs.length) :
    Ascending (offset start.length rs k) (start ++ rs.flatMap Rendering.bytes).length
        (((List.range' k n).filter fun i => dead i).map (spanAt start.length rs)) ∧
      outside (offset start.length rs k) (start ++ rs.flatMap Rendering.bytes)
          (((List.range' k n).filter fun i => dead i).map (spanAt start.length rs)) =
        (((List.range' k n).filter fun i => ¬ dead i).filterMap fun i => rs[i]?).flatMap
          Rendering.bytes := by
  induction n generalizing k with
  | zero =>
    obtain rfl : k = rs.length := hn
    rw [offset_length, ← List.length_append]
    exact ⟨le_rfl, List.drop_length⟩
  | succ n ih =>
    obtain ⟨hascending, houtside⟩ := ih (k + 1) (by omega)
    have hlt : k < rs.length := by omega
    have hle : offset start.length rs k ≤ offset start.length rs (k + 1) := (offset_lt_succ hlt).le
    have hget : rs[k]? = some rs[k] := List.getElem?_eq_getElem hlt
    rw [List.range'_succ]
    by_cases hdead : dead k
    · rw [List.filter_cons_of_pos (by simpa using hdead), List.filter_cons_of_neg (by simpa using hdead),
        List.map_cons, outside]
      refine ⟨⟨le_rfl, hle, hascending⟩, ?_⟩
      rw [show (spanAt start.length rs k).start = offset start.length rs k from rfl, Span.slice_self]
      exact houtside
    · rw [List.filter_cons_of_neg (by simpa using hdead), List.filter_cons_of_pos (by simpa using hdead)]
      refine ⟨hascending.mono hle, ?_⟩
      rw [outside_eq_slice_append hle hascending, houtside, List.filterMap_cons_some hget,
        List.flatMap_cons]
      congr 1
      exact slice_spanAt start hget

theorem Progress.Tracks.compact_eq {current : List Nat} {p : Progress} (h : Tracks start rs current p) :
    compact p.buf p.obsolete = start ++ (survivors rs).flatMap Rendering.bytes := by
  obtain ⟨hascending, houtside⟩ :=
    outside_spans (fun i => ¬ Survives rs i) start rs.length 0 (Nat.zero_add _)
  have hzero : offset start.length rs 0 = start.length := by simp [offset]
  have hstart : Span.slice ⟨0, start.length⟩ (start ++ rs.flatMap Rendering.bytes) = start := by
    rw [Span.slice, List.take_left, List.drop_zero]
  rw [hzero, ← List.range_eq_range'] at hascending houtside
  rw [h.buf_eq, h.obsolete_eq, compact_eq_outside (hascending.mono (Nat.zero_le _)),
    outside_eq_slice_append (Nat.zero_le _) hascending, hstart, houtside]
  simp only [survivors, not_not]

/-- Pairs leave the survivors of their renderings behind what was there. -/
theorem Formatter.compact_writePairs (f : Formatter) (buf : Bytes) (pairs : List (Value × Value)) :
    compact (f.writePairs { buf } pairs).value.buf (f.writePairs { buf } pairs).value.obsolete =
      buf ++ (survivors (pairs.map f.rendering)).flatMap Rendering.bytes := by
  obtain ⟨current, htracks⟩ := (Progress.Tracks.initial buf).writePairs f pairs
  exact htracks.compact_eq

theorem Formatter.value_writeLists (f : Formatter) (buf : Bytes) (lists : List (List Value)) :
    (f.writeLists buf lists).value =
      buf ++ (survivors ((lists.flatMap KeyValues.completePairs).map f.rendering)).flatMap
        Rendering.bytes := by
  rw [writeLists, Traced.value_bind, Traced.value_pure]
  exact f.compact_writePairs buf _

/-- Lists of pairs are written as the survivors of the renderings of their pairs, in their order. The
rendering of a pair is what writing it adds to any buffer, and its key is where the entry says. -/
theorem writeLists_survivors (f : Formatter) (buf : Bytes) (lists : List (List Value)) :
    (f.writeLists buf lists).value =
        buf ++ (survivors ((lists.flatMap KeyValues.completePairs).map f.rendering)).flatMap
          Rendering.bytes ∧
      ∀ before key value, (f.writePair before key value).value =
        (before ++ (f.rendering (key, value)).bytes,
          ⟨before.length + 1, before.length + 1 + (f.rendering (key, value)).key.length⟩) := by
  refine ⟨?_, f.writePair_value⟩
  rw [Formatter.writeLists, Traced.value_bind, Traced.value_pure]
  exact f.compact_writePairs buf _

end Logline
