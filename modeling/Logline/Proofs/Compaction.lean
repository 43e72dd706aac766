import Mathlib
import Logline.Formatter.Compaction

/-!
# Compaction keeps what lies outside the ranges

Ranges are ascending inside a buffer when each of them ends no later than the next one starts and the
last one ends inside the buffer. `compact_eq_outside`: for ascending ranges a compaction leaves the
octets between the ranges, before the first and behind the last, and nothing else.

The pass overwrites the buffer it reads from. What carries the argument is `Compaction.Reading`: the
part that is kept so far ends no later than the part that was looked at, and behind that the buffer is
still the original one.
-/

namespace Logline

/-! ### Ranges -/

/-- The ranges follow each other from `pos` on and end by `limit`. -/
def Ascending (pos limit : Nat) : List Span → Prop
  | [] => pos ≤ limit
  | r :: rest => pos ≤ r.start ∧ r.start ≤ r.stop ∧ Ascending r.stop limit rest

/-- The octets from `pos` on that lie outside ascending ranges. -/
def outside (pos : Nat) (buf : Bytes) : List Span → Bytes
  | [] => buf.drop pos
  | r :: rest => Span.slice ⟨pos, r.start⟩ buf ++ outside r.stop buf rest

theorem Ascending.le_limit {pos limit : Nat} {ranges : List Span} (h : Ascending pos limit ranges) :
    pos ≤ limit := by
  induction ranges generalizing pos with
  | nil => exact h
  | cons r rest ih =>
    obtain ⟨hstart, hstop, hrest⟩ := h
    exact le_trans hstart (le_trans hstop (ih hrest))

theorem Ascending.mono {pos pos' limit : Nat} {ranges : List Span} (h : Ascending pos limit ranges)
    (hle : pos' ≤ pos) : Ascending pos' limit ranges := by
  cases ranges with
  | nil => exact le_trans hle h
  | cons r rest => exact ⟨le_trans hle h.1, h.2⟩

namespace Span

theorem length_slice (buf : Bytes) (start : Nat) {stop : Nat} (hstop : stop ≤ buf.length) :
    (slice ⟨start, stop⟩ buf).length = stop - start := by
  simp only [slice, List.length_drop, List.length_take]
  omega

theorem slice_self (pos : Nat) (buf : Bytes) : slice ⟨pos, pos⟩ buf = [] := by
  simp [slice]

theorem slice_append_append (a b c : Bytes) : slice ⟨a.length, a.length + b.length⟩ (a ++ b ++ c) = b := by
  have htake : (a ++ b ++ c).take (a.length + b.length) = a ++ b := by
    rw [← List.length_append, List.take_left]
  rw [slice, htake, List.drop_left]

theorem slice_append_slice (buf : Bytes) {i j k : Nat} (hij : i ≤ j) (hjk : j ≤ k) :
    slice ⟨i, j⟩ buf ++ slice ⟨j, k⟩ buf = slice ⟨i, k⟩ buf := by
  simp only [slice]
  have hdrop : (buf.take k).drop j = ((buf.take k).drop i).drop (j - i) := by
    rw [List.drop_drop, Nat.add_sub_cancel' hij]
  have htake : (buf.take j).drop i = ((buf.take k).drop i).take (j - i) := by
    rw [List.take_drop, List.take_take, Nat.add_sub_cancel' hij, min_eq_left hjk]
  rw [hdrop, htake, List.take_append_drop]

theorem slice_congr {buf buf' : Bytes} {start : Nat} (h : buf.drop start = buf'.drop start) (stop : Nat) :
    slice ⟨start, stop⟩ buf = slice ⟨start, stop⟩ buf' := by
  simp only [slice, List.drop_take, h]

end Span

theorem outside_eq_slice_append {buf : Bytes} {pos pos' : Nat} {ranges : List Span} (hle : pos ≤ pos')
    (h : Ascending pos' buf.length ranges) :
    outside pos buf ranges = Span.slice ⟨pos, pos'⟩ buf ++ outside pos' buf ranges := by
  cases ranges with
  | nil =>
    have hall := Span.slice_append_slice buf hle h
    rw [Span.slice, Span.slice, Span.slice, List.take_length] at hall
    exact hall.symm
  | cons r rest =>
    rw [outside, outside, ← List.append_assoc, Span.slice_append_slice buf hle h.1]

/-! ### Moving blocks -/

theorem length_moveBlock (buf : Bytes) {start stop dest : Nat} (hdest : dest ≤ start)
    (hstart : start ≤ stop) (hstop : stop ≤ buf.length) :
    (moveBlock buf start stop dest).length = buf.length := by
  simp only [moveBlock, List.length_append, List.length_take, List.length_drop,
    Span.length_slice buf start hstop]
  omega

theorem take_moveBlock (buf : Bytes) {start stop dest : Nat} (hdest : dest ≤ start)
    (hstart : start ≤ stop) (hstop : stop ≤ buf.length) :
    (moveBlock buf start stop dest).take (dest + (stop - start)) =
      buf.take dest ++ Span.slice ⟨start, stop⟩ buf := by
  refine List.take_left' ?_
  rw [List.length_append, List.length_take, Span.length_slice buf start hstop]
  omega

theorem drop_moveBlock (buf : Bytes) {start stop dest pos : Nat} (hdest : dest ≤ start)
    (hstart : start ≤ stop) (hstop : stop ≤ buf.length) (hpos : dest + (stop - start) ≤ pos) :
    (moveBlock buf start stop dest).drop pos = buf.drop pos := by
  have hlength : (buf.take dest ++ Span.slice ⟨start, stop⟩ buf).length = dest + (stop - start) := by
    rw [List.length_append, List.length_take, Span.length_slice buf start hstop]
    omega
  rw [moveBlock, List.drop_append, List.drop_eq_nil_of_le (by omega), List.nil_append, List.drop_drop,
    hlength, Nat.add_sub_cancel' hpos]

/-! ### The pass -/

namespace Compaction

/-- The pass has not yet destroyed anything of `buf` that it still has to look at. -/
structure Reading (buf : Bytes) (c : Compaction) : Prop where
  write_le_read : c.write ≤ c.read
  length_eq : c.buf.length = buf.length
  unread_eq : c.buf.drop c.read = buf.drop c.read

variable {buf : Bytes} {c : Compaction}

theorem Reading.close_eq (h : Reading buf c) (hread : c.read ≤ buf.length) :
    c.close = c.buf.take c.write ++ buf.drop c.read := by
  have hstop : c.buf.length ≤ c.buf.length := le_refl _
  have hread' : c.read ≤ c.buf.length := h.length_eq ▸ hread
  rw [close, take_moveBlock c.buf h.write_le_read hread' hstop, Span.slice, List.take_length,
    h.unread_eq]

/-- One range: what lies before it is kept, and the pass goes on behind it. -/
theorem Reading.skip (h : Reading buf c) {range : Span} (hstart : c.read ≤ range.start)
    (hstop : range.start ≤ range.stop) (hlimit : range.stop ≤ buf.length) :
    Reading buf (c.skip range) ∧ (c.skip range).read = range.stop ∧
      (c.skip range).buf.take (c.skip range).write =
        c.buf.take c.write ++ Span.slice ⟨c.read, range.start⟩ buf := by
  have hwrite := h.write_le_read
  have hlength := h.length_eq
  rcases Nat.lt_or_ge c.read range.start with hlt | hge
  · have hinside : range.start ≤ c.buf.length := by omega
    rw [Compaction.skip, if_pos hlt]
    refine ⟨⟨?_, ?_, ?_⟩, rfl, ?_⟩
    · show c.write + (range.start - c.read) ≤ range.stop
      omega
    · exact (length_moveBlock c.buf hwrite hstart hinside).trans hlength
    · show (moveBlock c.buf c.read range.start c.write).drop range.stop = buf.drop range.stop
      rw [drop_moveBlock c.buf hwrite hstart hinside (by omega),
        ← Nat.add_sub_cancel' (le_trans hstart hstop), ← List.drop_drop, h.unread_eq, List.drop_drop]
    · show (moveBlock c.buf c.read range.start c.write).take (c.write + (range.start - c.read)) = _
      rw [take_moveBlock c.buf hwrite hstart hinside, Span.slice_congr h.unread_eq]
  · -- the range starts where the last one ended: nothing moves
    have heq : c.read = range.start := le_antisymm hstart hge
    rw [Compaction.skip, if_neg (by omega)]
    refine ⟨⟨le_trans hwrite (le_trans hstart hstop), hlength, ?_⟩, rfl, ?_⟩
    · show c.buf.drop range.stop = buf.drop range.stop
      rw [← Nat.add_sub_cancel' (le_trans hstart hstop), ← List.drop_drop, h.unread_eq, List.drop_drop]
    · rw [← heq, Span.slice_self, List.append_nil]

theorem Reading.close_foldl (ranges : List Span) (h : Reading buf c)
    (hranges : Ascending c.read buf.length ranges) :
    (ranges.foldl Compaction.skip c).close = c.buf.take c.write ++ outside c.read buf ranges := by
  induction ranges generalizing c with
  | nil => exact h.close_eq hranges
  | cons r rest ih =>
    obtain ⟨hstart, hstop, hrest⟩ := hranges
    obtain ⟨hreading, hread, htake⟩ := h.skip hstart hstop hrest.le_limit
    rw [List.foldl_cons, ih hreading (hread.symm ▸ hrest), htake, hread, outside, List.append_assoc]

end Compaction

/-- A compaction over ascending ranges leaves what lies outside them. -/
theorem compact_eq_outside {buf : Bytes} {ranges : List Span} (h : Ascending 0 buf.length ranges) :
    compact buf ranges = outside 0 buf ranges := by
  cases ranges with
  | nil => rfl
  | cons first rest =>
    obtain ⟨-, hstop, hrest⟩ := h
    have hreading : Compaction.Reading buf ⟨buf, first.start, first.stop⟩ := ⟨hstop, rfl, rfl⟩
    rw [compact, hreading.close_foldl rest hrest, outside, Span.slice, List.drop_zero]

end Logline
