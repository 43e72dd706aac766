import Mathlib
import Logline.Proofs.Rendering

/-!
# The ranges of pairs tile what was written

While lists are written, every pair stands in one range: that of the entry of its key, or an obsolete one.
`Progress.Tiles` is what the loop keeps: these ranges are not empty, lie apart from each other and cover
exactly the octets behind the start; the obsolete ones are in ascending order; the entries have different
keys, and each key stands in its range, right behind the space.

What recording a pair does is said once, in `Progress.record_cases`. In all three cases the ranges are those
from before and the new one, in some order (`Progress.spans_record`), so that the tiling does not depend on
the case. Only the order of the obsolete ranges and the keys do.

Main statement: `Formatter.progress_tiles`, on the state after any number of pairs.
-/

namespace Logline

/-! ### Ranges -/

namespace Span

/-- The range can be taken out of a buffer. -/
def Within (s : Span) (buf : Bytes) : Prop := s.start ≤ s.stop ∧ s.stop ≤ buf.length

/-- One of two ranges ends before the other one starts. -/
def Apart (s t : Span) : Prop := s.stop ≤ t.start ∨ t.stop ≤ s.start

/-- A position lies in the range. -/
def Contains (s : Span) (pos : Nat) : Prop := s.start ≤ pos ∧ pos < s.stop

variable {s t : Span} {buf : Bytes}

theorem Apart.symm (h : s.Apart t) : t.Apart s := Or.symm h

theorem Within.append (h : s.Within buf) (more : Bytes) : s.Within (buf ++ more) :=
  ⟨h.1, h.2.trans (by rw [List.length_append]; omega)⟩

theorem Within.slice_append (h : s.Within buf) (more : Bytes) : s.slice (buf ++ more) = s.slice buf := by
  rw [slice, slice, List.take_append_of_le_length h.2]

end Span

/-- Ranges that lie apart and start one after the other follow each other. -/
theorem ascending_of_apart {pos limit : Nat} {ranges : List Span} (hle : pos ≤ limit)
    (hnonempty : ∀ s ∈ ranges, s.start < s.stop) (hinside : ∀ s ∈ ranges, pos ≤ s.start ∧ s.stop ≤ limit)
    (happart : ranges.Pairwise Span.Apart) (hstarts : ranges.Pairwise fun s t => s.start < t.start) :
    Ascending pos limit ranges := by
  induction ranges generalizing pos with
  | nil => exact hle
  | cons r rest ih =>
    obtain ⟨hr, hrest⟩ := List.forall_mem_cons.mp hnonempty
    obtain ⟨hrInside, hrestInside⟩ := List.forall_mem_cons.mp hinside
    obtain ⟨hrApart, hrestApart⟩ := List.pairwise_cons.mp happart
    obtain ⟨hrStarts, hrestStarts⟩ := List.pairwise_cons.mp hstarts
    refine ⟨hrInside.1, hr.le, ih hrInside.2 hrest ?_ hrestApart hrestStarts⟩
    intro s hs
    refine ⟨?_, (hrestInside s hs).2⟩
    rcases hrApart s hs with h | h
    · exact h
    · -- `s` would have to end before `r` starts, and it starts behind that
      have hstart := hrStarts s hs
      have hstop := hrest s hs
      omega

/-! ### What recording a pair does -/

namespace Progress

/-- The ranges of all pairs: those of the entries, and the obsolete ones. -/
def spans (p : Progress) : List Span := p.entries.map Entry.span ++ p.obsolete

/-- The ranges that octets are taken from once a pair was written behind the old end of the buffer: those
of the pair and of its key, and those of the pairs and the keys that have entries. -/
def compared (p : Progress) (buf : Bytes) (key : Span) : List Span :=
  ⟨p.buf.length, buf.length⟩ :: key :: p.entries.flatMap fun e => [e.span, e.key]

theorem insertSpan_eq_orderedInsert (span : Span) (spans : List Span) :
    insertSpan span spans = spans.orderedInsert (fun s t => s.start ≤ t.start) span := by
  simp only [insertSpan, List.orderedInsert_eq_take_drop, not_le]

theorem perm_insertSpan (span : Span) (spans : List Span) :
    (insertSpan span spans).Perm (span :: spans) := by
  rw [insertSpan_eq_orderedInsert]
  exact List.perm_orderedInsert _ _ _

/-- A pair gets an entry of its own; or there is an entry for its key, and then it is obsolete if it is
written as the pair of that entry, or takes the entry over, and the pair from before is obsolete. -/
theorem record_cases (p : Progress) (buf : Bytes) (key : Span) :
    ((∀ e ∈ p.entries, e.key.slice buf ≠ key.slice buf) ∧
      p.record buf key =
        { buf, entries := p.entries ++ [⟨key, ⟨p.buf.length, buf.length⟩⟩], obsolete := p.obsolete }) ∨
    ∃ before old after, p.entries = before ++ old :: after ∧ old.key.slice buf = key.slice buf ∧
      (old.span.slice buf = Span.slice ⟨p.buf.length, buf.length⟩ buf ∧
          p.record buf key =
            { buf, entries := p.entries, obsolete := p.obsolete ++ [⟨p.buf.length, buf.length⟩] } ∨
        old.span.slice buf ≠ Span.slice ⟨p.buf.length, buf.length⟩ buf ∧
          p.record buf key =
            { buf
              entries := before ++ ⟨key, ⟨p.buf.length, buf.length⟩⟩ :: after
              obsolete := insertSpan old.span p.obsolete }) := by
  cases hfind : p.entries.findIdx? fun e => e.key.slice buf == key.slice buf with
  | none =>
    refine Or.inl ⟨fun e he => ?_, by rw [record, hfind]⟩
    exact ne_of_beq_false (List.findIdx?_eq_none_iff.mp hfind e he)
  | some i =>
    obtain ⟨hi, hkey, -⟩ := List.findIdx?_eq_some_iff_getElem.mp hfind
    refine Or.inr ⟨p.entries.take i, p.entries[i], p.entries.drop (i + 1), ?_, eq_of_beq hkey, ?_⟩
    · rw [← List.drop_eq_getElem_cons hi, List.take_append_drop]
    · rw [record, hfind]
      simp only [List.getElem?_eq_getElem hi]
      split
      · next hsame => exact Or.inl ⟨eq_of_beq hsame, rfl⟩
      · next hother =>
        refine Or.inr ⟨fun hsame => hother (beq_iff_eq.mpr hsame), ?_⟩
        rw [List.set_eq_take_append_cons_drop, if_pos hi]

variable {p : Progress} {base : Nat}

@[simp] theorem buf_record (p : Progress) (buf : Bytes) (key : Span) : (p.record buf key).buf = buf := by
  obtain ⟨-, h⟩ | ⟨before, old, after, -, -, ⟨-, h⟩ | ⟨-, h⟩⟩ := p.record_cases buf key <;> rw [h]

/-- Recording a pair adds its range, and loses none. -/
theorem spans_record (p : Progress) (buf : Bytes) (key : Span) :
    (p.record buf key).spans.Perm (⟨p.buf.length, buf.length⟩ :: p.spans) := by
  obtain ⟨-, h⟩ | ⟨before, old, after, hsplit, -, ⟨-, h⟩ | ⟨-, h⟩⟩ := p.record_cases buf key
  · rw [h, spans, spans, List.map_append, List.append_assoc]
    exact List.perm_middle
  · rw [h, spans, spans, ← List.append_assoc]
    exact List.perm_append_singleton _ _
  · -- the old range moves from the entries to the obsolete ones, and the new one takes its place
    rw [h, spans, spans, hsplit]
    simp only [List.map_append, List.map_cons, List.append_assoc, List.cons_append]
    refine List.perm_middle.trans (List.Perm.cons _ (List.Perm.append_left _ ?_))
    exact ((perm_insertSpan _ _).append_left _).trans List.perm_middle

theorem mem_entries_record {buf : Bytes} {key : Span} {e : Entry}
    (he : e ∈ (p.record buf key).entries) : e ∈ p.entries ∨ e = ⟨key, ⟨p.buf.length, buf.length⟩⟩ := by
  obtain ⟨-, h⟩ | ⟨before, old, after, hsplit, -, ⟨-, h⟩ | ⟨-, h⟩⟩ := p.record_cases buf key
  · rw [h] at he
    simpa using he
  · rw [h] at he
    exact Or.inl he
  · rw [h] at he
    rw [hsplit]
    simp only [List.mem_append, List.mem_cons] at he ⊢
    tauto

/-- The keys that have entries: those from before, and the new one if it is not among them. -/
theorem keys_record (p : Progress) (buf : Bytes) (key : Span) :
    ((p.record buf key).entries.map fun e => e.key.slice buf) =
      (p.entries.map fun e => e.key.slice buf) ∨
    ((p.record buf key).entries.map fun e => e.key.slice buf) =
        (p.entries.map fun e => e.key.slice buf) ++ [key.slice buf] ∧
      key.slice buf ∉ p.entries.map fun e => e.key.slice buf := by
  obtain ⟨hfresh, h⟩ | ⟨before, old, after, hsplit, hkey, ⟨-, h⟩ | ⟨-, h⟩⟩ := p.record_cases buf key
  · refine Or.inr ⟨by rw [h, List.map_append, List.map_singleton], fun hmem => ?_⟩
    obtain ⟨e, he, heq⟩ := List.mem_map.mp hmem
    exact hfresh e he heq
  · exact Or.inl (by rw [h])
  · refine Or.inl ?_
    rw [h, hsplit]
    simp only [List.map_append, List.map_cons, hkey]

/-! ### What the loop keeps -/

/-- The pairs that were written from `base` on: their ranges tile the buffer from there to its end, the
obsolete ones in ascending order, and the entries have different keys, each right behind the space that its
pair starts with. -/
structure Tiles (base : Nat) (p : Progress) : Prop where
  base_le : base ≤ p.buf.length
  nonempty : ∀ s ∈ p.spans, s.start < s.stop
  apart : p.spans.Pairwise Span.Apart
  covers : ∀ pos, (∃ s ∈ p.spans, s.Contains pos) ↔ base ≤ pos ∧ pos < p.buf.length
  ascending : p.obsolete.Pairwise fun s t => s.start < t.start
  keys_nodup : (p.entries.map fun e => e.key.slice p.buf).Nodup
  key_inside : ∀ e ∈ p.entries, p.buf[e.span.start]? = some 0x20 ∧ e.key.start = e.span.start + 1 ∧
    e.key.start ≤ e.key.stop ∧ e.key.stop ≤ e.span.stop

namespace Tiles

theorem initial (buf : Bytes) : Tiles buf.length { buf } where
  base_le := le_rfl
  nonempty := by simp [spans]
  apart := List.Pairwise.nil
  covers pos := by simp [spans]
  ascending := List.Pairwise.nil
  keys_nodup := List.nodup_nil
  key_inside := by simp

/-- All ranges lie in the part that is tiled. -/
theorem inside (h : p.Tiles base) {s : Span} (hs : s ∈ p.spans) :
    base ≤ s.start ∧ s.stop ≤ p.buf.length := by
  have hlt := h.nonempty s hs
  have hfirst := (h.covers s.start).mp ⟨s, hs, le_rfl, hlt⟩
  have hlast := (h.covers (s.stop - 1)).mp ⟨s, hs, by omega, by omega⟩
  omega

theorem within_span (h : p.Tiles base) {e : Entry} (he : e ∈ p.entries) : e.span.Within p.buf := by
  have hmem : e.span ∈ p.spans := List.mem_append_left _ (List.mem_map_of_mem he)
  exact ⟨(h.nonempty _ hmem).le, (h.inside hmem).2⟩

theorem within_key (h : p.Tiles base) {e : Entry} (he : e ∈ p.entries) : e.key.Within p.buf := by
  obtain ⟨-, -, hle, hstop⟩ := h.key_inside e he
  exact ⟨hle, hstop.trans (h.within_span he).2⟩

/-- The obsolete ranges are as a compaction needs them. -/
theorem ascending_obsolete (h : p.Tiles base) : Ascending base p.buf.length p.obsolete := by
  have hmem : ∀ s ∈ p.obsolete, s ∈ p.spans := fun s hs => List.mem_append_right _ hs
  exact ascending_of_apart h.base_le (fun s hs => h.nonempty s (hmem s hs))
    (fun s hs => h.inside (hmem s hs)) (List.pairwise_append.mp h.apart).2.1 h.ascending

/-- The range of an entry lies apart from the obsolete ones, so that it has its place between them. -/
theorem ascending_insertSpan (h : p.Tiles base) {e : Entry} (he : e ∈ p.entries) :
    (insertSpan e.span p.obsolete).Pairwise fun s t => s.start < t.start := by
  have hperm := perm_insertSpan e.span p.obsolete
  have hsublist : (e.span :: p.obsolete).Sublist p.spans :=
    (List.singleton_sublist.mpr (List.mem_map_of_mem he)).append (List.Sublist.refl _)
  have hle : (insertSpan e.span p.obsolete).Pairwise fun s t => s.start ≤ t.start := by
    rw [insertSpan_eq_orderedInsert]
    exact (h.ascending.imp le_of_lt).orderedInsert _ _
  have happart := (hperm.pairwise_iff Span.Apart.symm).mpr (h.apart.sublist hsublist)
  refine (hle.and happart).imp_of_mem fun {s t} hs ht hst => ?_
  have hsLt := h.nonempty s (hsublist.subset (hperm.subset hs))
  have htLt := h.nonempty t (hsublist.subset (hperm.subset ht))
  obtain ⟨hstart, hapart | hapart⟩ := hst <;> omega

/-- Recording a pair that was just written keeps the tiling. -/
theorem record (h : p.Tiles base) (x : Rendering) :
    (p.record (p.buf ++ x.bytes) ⟨p.buf.length + 1, p.buf.length + 1 + x.key.length⟩).Tiles base := by
  generalize hkey : (⟨p.buf.length + 1, p.buf.length + 1 + x.key.length⟩ : Span) = key
  have hbase := h.base_le
  have hlength : (p.buf ++ x.bytes).length = p.buf.length + (1 + x.key.length + x.value.length) := by
    rw [List.length_append, Rendering.length_bytes]
  have hperm := p.spans_record (p.buf ++ x.bytes) key
  have hold : (p.entries.map fun e => e.key.slice (p.buf ++ x.bytes)) =
      p.entries.map fun e => e.key.slice p.buf :=
    List.map_congr_left fun e he => (h.within_key he).slice_append _
  constructor
  case base_le =>
    rw [buf_record]
    omega
  case nonempty =>
    intro s hs
    rcases List.mem_cons.mp (hperm.subset hs) with rfl | hs
    · show p.buf.length < (p.buf ++ x.bytes).length
      omega
    · exact h.nonempty s hs
  case apart =>
    refine (hperm.pairwise_iff Span.Apart.symm).mpr (List.pairwise_cons.mpr ⟨?_, h.apart⟩)
    exact fun s hs => Or.inr (h.inside hs).2
  case covers =>
    intro pos
    have hnew : Span.Contains ⟨p.buf.length, (p.buf ++ x.bytes).length⟩ pos ↔
        p.buf.length ≤ pos ∧ pos < (p.buf ++ x.bytes).length := Iff.rfl
    simp only [hperm.mem_iff, List.exists_mem_cons_iff, hnew, h.covers pos, buf_record]
    omega
  case ascending =>
    obtain ⟨-, hrecord⟩ | ⟨before, old, after, hsplit, -, ⟨-, hrecord⟩ | ⟨-, hrecord⟩⟩ :=
      p.record_cases (p.buf ++ x.bytes) key <;>
      rw [hrecord]
    · exact h.ascending
    · refine List.pairwise_append.mpr ⟨h.ascending, List.pairwise_singleton _ _, ?_⟩
      intro s hs t ht
      obtain rfl := List.mem_singleton.mp ht
      have hmem : s ∈ p.spans := List.mem_append_right _ hs
      exact (h.nonempty s hmem).trans_le (h.inside hmem).2
    · exact h.ascending_insertSpan (hsplit ▸ List.mem_append_right _ List.mem_cons_self)
  case keys_nodup =>
    rw [buf_record]
    rcases p.keys_record (p.buf ++ x.bytes) key with
      hkeys | ⟨hkeys, hnew⟩
    · rw [hkeys, hold]
      exact h.keys_nodup
    · rw [hold] at hkeys hnew
      rw [hkeys, ← List.concat_eq_append]
      exact h.keys_nodup.concat hnew
  case key_inside =>
    intro e he
    rw [buf_record]
    rcases mem_entries_record he with he | rfl
    · obtain ⟨hspace, hinside⟩ := h.key_inside e he
      obtain ⟨hlt, -⟩ := List.getElem?_eq_some_iff.mp hspace
      exact ⟨(List.getElem?_append_left hlt).trans hspace, hinside⟩
    · subst hkey
      refine ⟨?_, rfl, ?_, ?_⟩
      · rw [List.getElem?_append_right le_rfl, Nat.sub_self, Rendering.bytes, List.getElem?_cons_zero]
      · show p.buf.length + 1 ≤ p.buf.length + 1 + x.key.length
        omega
      · show p.buf.length + 1 + x.key.length ≤ (p.buf ++ x.bytes).length
        omega

end Tiles

end Progress

/-! ### The loop -/

namespace Formatter

variable (f : Formatter)

/-- Where the writing of lists has come to after `n` pairs. -/
def progress (buf : Bytes) (lists : List (List Value)) (n : Nat) : Progress :=
  (f.writePairs { buf } ((lists.flatMap KeyValues.completePairs).take n)).value

/-- What is taken out of the buffer when one more pair is written lies inside it: the octets of its key,
when its value is about to be written, and the ranges that are compared when it is recorded. -/
structure SlicesInside (p : Progress) (key value : Value) : Prop where
  key_within : (f.writePair p.buf key value).value.2.Within (writeKey (p.buf ++ Text.utf8 " ") key).value
  compared_within : ∀ s ∈ p.compared (f.writePair p.buf key value).value.1
      (f.writePair p.buf key value).value.2, s.Within (f.writePair p.buf key value).value.1

variable {p : Progress} {base : Nat}

theorem slicesInside (h : p.Tiles base) (key value : Value) : f.SlicesInside p key value where
  key_within := by
    have hspace : Text.utf8 " " = [0x20] := by decide
    rw [writePair_value, (appends_writeKey key _).1, hspace]
    refine ⟨Nat.le_add_right _ _, le_of_eq ?_⟩
    simp only [rendering, keyBytes, List.length_append, List.length_singleton]
  compared_within := by
    intro s hs
    rw [writePair_value] at hs ⊢
    simp only [Progress.compared, List.mem_cons, List.mem_flatMap, List.not_mem_nil, or_false] at hs
    rcases hs with rfl | rfl | ⟨e, he, rfl | rfl⟩
    · exact ⟨by simp, le_rfl⟩
    · refine ⟨Nat.le_add_right _ _, ?_⟩
      simp only [List.length_append, Rendering.length_bytes]
      omega
    · exact (h.within_span he).append _
    · exact (h.within_key he).append _

theorem value_writePairs_concat (p : Progress) (pairs : List (Value × Value)) (k v : Value) :
    (f.writePairs p (pairs ++ [(k, v)])).value =
      (f.writePairs p pairs).value.record (f.writePair (f.writePairs p pairs).value.buf k v).value.1
        (f.writePair (f.writePairs p pairs).value.buf k v).value.2 := by
  induction pairs generalizing p with
  | nil => simp [writePairs]
  | cons pair rest ih =>
    obtain ⟨k', v'⟩ := pair
    rw [List.cons_append, writePairs, writePairs, Traced.value_bind, Traced.value_bind]
    exact ih _

variable {buf : Bytes} {lists : List (List Value)} {n : Nat} {k v : Value}

/-- One more pair is written behind the buffer and recorded. -/
theorem progress_succ (hpair : (lists.flatMap KeyValues.completePairs)[n]? = some (k, v)) :
    f.progress buf lists (n + 1) =
      (f.progress buf lists n).record (f.writePair (f.progress buf lists n).buf k v).value.1
        (f.writePair (f.progress buf lists n).buf k v).value.2 := by
  rw [progress, List.take_add_one, hpair, Option.toList_some, value_writePairs_concat]
  rfl

theorem progress_succ_of_none (hpair : (lists.flatMap KeyValues.completePairs)[n]? = none) :
    f.progress buf lists (n + 1) = f.progress buf lists n := by
  rw [progress, List.take_add_one, hpair, Option.toList_none, List.append_nil]
  rfl

theorem tiles_progress (buf : Bytes) (lists : List (List Value)) (n : Nat) :
    (f.progress buf lists n).Tiles buf.length ∧ buf <+: (f.progress buf lists n).buf := by
  induction n with
  | zero => exact ⟨Progress.Tiles.initial buf, List.prefix_refl buf⟩
  | succ n ih =>
    obtain ⟨htiles, hprefix⟩ := ih
    cases hpair : (lists.flatMap KeyValues.completePairs)[n]? with
    | none =>
      rw [f.progress_succ_of_none hpair]
      exact ⟨htiles, hprefix⟩
    | some pair =>
      obtain ⟨k, v⟩ := pair
      rw [f.progress_succ hpair, writePair_value, Progress.buf_record]
      exact ⟨htiles.record _, hprefix.trans (List.prefix_append _ _)⟩

/-- After any number of pairs the ranges tile what was written since the start. So the obsolete ones are
ascending and lie in what was written, all octets that the next pair is compared with are taken from inside
the buffer, and the state after the last pair, with all that, is the one that is compacted. -/
theorem progress_tiles (buf : Bytes) (lists : List (List Value)) (n : Nat) :
    (f.progress buf lists n).Tiles buf.length ∧ buf <+: (f.progress buf lists n).buf ∧
      Ascending buf.length (f.progress buf lists n).buf.length (f.progress buf lists n).obsolete ∧
      (∀ k v, (lists.flatMap KeyValues.completePairs)[n]? = some (k, v) →
        f.SlicesInside (f.progress buf lists n) k v ∧
          f.progress buf lists (n + 1) =
            (f.progress buf lists n).record (f.writePair (f.progress buf lists n).buf k v).value.1
              (f.writePair (f.progress buf lists n).buf k v).value.2) ∧
      ((lists.flatMap KeyValues.completePairs).length ≤ n →
        (f.writeLists buf lists).value =
          compact (f.progress buf lists n).buf (f.progress buf lists n).obsolete) := by
  obtain ⟨htiles, hprefix⟩ := f.tiles_progress buf lists n
  refine ⟨htiles, hprefix, htiles.ascending_obsolete, ?_, ?_⟩
  · exact fun k v hpair => ⟨f.slicesInside htiles k v, f.progress_succ hpair⟩
  · intro hn
    rw [writeLists, Traced.value_bind, Traced.value_pure, progress, List.take_of_length_le hn]

/-- Three keys whose pairs all change, the one in the middle last. -/
def changedLists : List (List Value) :=
  [[.text "a", .int 1, .text "b", .int 1, .text "c", .int 1], [.text "a", .int 2, .text "c", .int 2],
    [.text "b", .int 2]]

/-- The first pair of the last key to change lies between two obsolete ranges, and is inserted there. -/
theorem progress_tiles_between :
    (progress {} [] changedLists 5).obsolete = [⟨0, 4⟩, ⟨8, 12⟩] ∧
      (progress {} [] changedLists 6).obsolete = [⟨0, 4⟩, ⟨4, 8⟩, ⟨8, 12⟩] ∧
      (SlicesInside {} (progress {} [] changedLists 5) (.text "b") (.int 2) ∧
        Ascending 0 (progress {} [] changedLists 6).buf.length [⟨0, 4⟩, ⟨4, 8⟩, ⟨8, 12⟩]) ∧
      (writeLists {} [] changedLists).value = Text.utf8 " a=2 c=2 b=2" := by
  have hpair : (changedLists.flatMap KeyValues.completePairs)[5]? = some (.text "b", .int 2) := rfl
  have hbefore : (progress {} [] changedLists 5).obsolete = [⟨0, 4⟩, ⟨8, 12⟩] := by decide
  have hafter : (progress {} [] changedLists 6).obsolete = [⟨0, 4⟩, ⟨4, 8⟩, ⟨8, 12⟩] := by decide
  obtain ⟨-, -, -, hstep, -⟩ := progress_tiles {} [] changedLists 5
  obtain ⟨-, -, hascending, -, hcompact⟩ := progress_tiles {} [] changedLists 6
  refine ⟨hbefore, hafter, ⟨(hstep _ _ hpair).1, hafter ▸ hascending⟩, ?_⟩
  exact (hcompact (by decide)).trans (by decide)

end Formatter

end Logline
