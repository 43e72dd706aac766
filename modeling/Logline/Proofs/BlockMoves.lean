import Mathlib
import Logline.Proofs.Tiling

/-!
# A compaction moves every block before it is overwritten

A compaction moves blocks inside the buffer that it reads from, and the range that a block is taken from may
overlap the one that it goes to. `Compaction.moves` are the blocks that a pass moves, in their order. What
is left in the end stands at the front of the buffer that these moves make, one after the other
(`compact_prefix_replay`).

`Compaction.Moved` is what the pass keeps, besides that the unread part is untouched: between the start of
the first range and the read position, all that lies in no range was moved. A move writes behind that start
and not behind the end of the block that it takes, so it can only hit what was moved or lies in a range.

Main statements: `compact_spared`, on what is left and on every single move, and `Formatter.writeLists_spared`,
the same for the ranges that a formatter cuts out.
-/

namespace Logline

/-! ### Positions that lie in no range -/

instance (s : Span) (buf : Bytes) : Decidable (s.Within buf) :=
  inferInstanceAs (Decidable (_ ∧ _))

instance (s : Span) (pos : Nat) : Decidable (s.Contains pos) :=
  inferInstanceAs (Decidable (_ ∧ _))

/-- A position lies in none of the ranges. -/
def Spared (ranges : List Span) (pos : Nat) : Prop := ∀ r ∈ ranges, ¬ r.Contains pos

instance (ranges : List Span) (pos : Nat) : Decidable (Spared ranges pos) :=
  inferInstanceAs (Decidable (∀ r ∈ ranges, _))

/-- Of octets that stand from `pos` on, those whose positions lie in none of the ranges, in their order. -/
def sparedOctets (ranges : List Span) (pos : Nat) (octets : Bytes) : Bytes :=
  ((octets.zipIdx pos).filter fun o => Spared ranges o.2).map Prod.fst

variable {ranges : List Span} {pos : Nat} {octets : Bytes}

theorem spared_cons {r : Span} {rest : List Span} :
    Spared (r :: rest) pos ↔ ¬ r.Contains pos ∧ Spared rest pos :=
  List.forall_mem_cons

/-- Ascending ranges leave alone what lies before the first of them. -/
theorem Ascending.spared {limit before : Nat} (h : Ascending pos limit ranges) (hbefore : before < pos) :
    Spared ranges before := by
  induction ranges generalizing pos with
  | nil => exact List.forall_mem_nil _
  | cons r rest ih =>
    obtain ⟨hstart, hstop, hrest⟩ := h
    refine spared_cons.mpr ⟨fun hcontains => ?_, ih hrest (by omega)⟩
    have hle := hcontains.1
    omega

/-- Ranges inside a buffer of which each ends no later than the next one starts are ascending. -/
theorem ascending_of_isChain {limit : Nat} (hpos : pos ≤ limit)
    (hinside : ∀ r ∈ ranges, r.start ≤ r.stop ∧ r.stop ≤ limit)
    (hhead : ∀ r ∈ ranges.head?, pos ≤ r.start) (hchain : ranges.IsChain fun r s => r.stop ≤ s.start) :
    Ascending pos limit ranges := by
  induction ranges generalizing pos with
  | nil => exact hpos
  | cons r rest ih =>
    obtain ⟨hr, hrest⟩ := List.forall_mem_cons.mp hinside
    obtain ⟨hnext, hchain⟩ := List.isChain_cons.mp hchain
    exact ⟨hhead r rfl, hr.1, ih hr.2 hrest hnext hchain⟩

theorem sparedOctets_append (octets more : Bytes) :
    sparedOctets ranges pos (octets ++ more) =
      sparedOctets ranges pos octets ++ sparedOctets ranges (pos + octets.length) more := by
  simp only [sparedOctets, List.zipIdx_append, List.filter_append, List.map_append]

theorem sparedOctets_congr {ranges' : List Span}
    (h : ∀ p, pos ≤ p → p < pos + octets.length → (Spared ranges p ↔ Spared ranges' p)) :
    sparedOctets ranges pos octets = sparedOctets ranges' pos octets := by
  rw [sparedOctets, sparedOctets, List.filter_congr]
  intro o ho
  obtain ⟨hle, hlt, -⟩ := List.mem_zipIdx ho
  exact decide_eq_decide.mpr (h o.2 hle hlt)

theorem sparedOctets_nil (pos : Nat) (octets : Bytes) : sparedOctets [] pos octets = octets := by
  have hall : (octets.zipIdx pos).filter (fun o => Spared [] o.2) = octets.zipIdx pos :=
    List.filter_eq_self.mpr fun o _ => decide_eq_true (List.forall_mem_nil _)
  rw [sparedOctets, hall, List.zipIdx_map_fst]

theorem sparedOctets_of_spared (h : ∀ p, pos ≤ p → p < pos + octets.length → Spared ranges p) :
    sparedOctets ranges pos octets = octets := by
  have hnil : sparedOctets ranges pos octets = sparedOctets [] pos octets :=
    sparedOctets_congr fun p hle hlt => iff_of_true (h p hle hlt) (List.forall_mem_nil _)
  rw [hnil, sparedOctets_nil]

theorem sparedOctets_of_not_spared (h : ∀ p, pos ≤ p → p < pos + octets.length → ¬ Spared ranges p) :
    sparedOctets ranges pos octets = [] := by
  rw [sparedOctets, List.map_eq_nil_iff, List.filter_eq_nil_iff]
  intro o ho
  obtain ⟨hle, hlt, -⟩ := List.mem_zipIdx ho
  simpa using h o.2 hle hlt

/-- What lies outside ascending ranges is told by the positions of the octets alone. -/
theorem outside_eq_sparedOctets {buf : Bytes} (h : Ascending pos buf.length ranges) :
    outside pos buf ranges = sparedOctets ranges pos (buf.drop pos) := by
  induction ranges generalizing pos with
  | nil => rw [outside, sparedOctets_nil]
  | cons r rest ih =>
    obtain ⟨hstart, hstop, hrest⟩ := h
    have hlimit := hrest.le_limit
    have hsplit : buf.drop pos =
        Span.slice ⟨pos, r.start⟩ buf ++ (Span.slice ⟨r.start, r.stop⟩ buf ++ buf.drop r.stop) := by
      have hdrop : outside pos buf [] = Span.slice ⟨pos, r.stop⟩ buf ++ outside r.stop buf [] :=
        outside_eq_slice_append (hstart.trans hstop) hlimit
      rwa [← Span.slice_append_slice buf hstart hstop, List.append_assoc] at hdrop
    have hbefore := Span.length_slice buf pos (hstop.trans hlimit)
    have hinside := Span.length_slice buf r.start hlimit
    rw [outside, hsplit, sparedOctets_append, sparedOctets_append, hbefore, hinside,
      Nat.add_sub_cancel' hstart, Nat.add_sub_cancel' hstop]
    -- before the range, inside it, and behind it
    congr 1
    · have hranges : Ascending r.start buf.length (r :: rest) := ⟨le_rfl, hstop, hrest⟩
      exact (sparedOctets_of_spared fun p _ hp => hranges.spared (by omega)).symm
    · have hgone : sparedOctets (r :: rest) r.start (Span.slice ⟨r.start, r.stop⟩ buf) = [] :=
        sparedOctets_of_not_spared fun p hle hp hspared =>
          (spared_cons.mp hspared).1 ⟨hle, by omega⟩
      rw [hgone, List.nil_append, ih hrest]
      refine sparedOctets_congr fun p hle _ => ?_
      rw [spared_cons, and_iff_right fun hcontains => absurd hcontains.2 (by omega)]

/-! ### The moves of a pass -/

/-- A block that is moved: the range that it is taken from, and the position that it goes to. -/
structure Move where
  source : Span
  dest : Nat
  deriving DecidableEq, Repr

/-- The range that the block goes to. -/
def Move.target (m : Move) : Span := ⟨m.dest, m.dest + (m.source.stop - m.source.start)⟩

/-- What moves make of a buffer, one after the other. -/
def replay (moves : List Move) (buf : Bytes) : Bytes :=
  moves.foldl (fun buf m => moveBlock buf m.source.start m.source.stop m.dest) buf

theorem replay_concat (done : List Move) (m : Move) (buf : Bytes) :
    replay (done ++ [m]) buf = moveBlock (replay done buf) m.source.start m.source.stop m.dest := by
  rw [replay, List.foldl_append]
  rfl

namespace Compaction

/-- The blocks that are moved while a pass skips the ranges that are left, and when it is closed. -/
def moves (c : Compaction) : List Span → List Move
  | [] => [⟨⟨c.read, c.buf.length⟩, c.write⟩]
  | range :: rest =>
    if c.read < range.start then ⟨⟨c.read, range.start⟩, c.write⟩ :: (c.skip range).moves rest
    else (c.skip range).moves rest

/-- What a pass leaves stands at the front of what its moves make of the buffer. -/
theorem close_prefix_replay (c : Compaction) (ranges : List Span) :
    (ranges.foldl skip c).close <+: replay (c.moves ranges) c.buf := by
  induction ranges generalizing c with
  | nil => exact List.take_prefix _ _
  | cons r rest ih =>
    have hrest := ih (c.skip r)
    rw [List.foldl_cons, moves]
    by_cases hlt : c.read < r.start
    · rw [if_pos hlt, replay, List.foldl_cons]
      rwa [show (c.skip r).buf = moveBlock c.buf c.read r.start c.write by rw [skip, if_pos hlt]] at hrest
    · rw [if_neg hlt]
      rwa [show (c.skip r).buf = c.buf by rw [skip, if_neg hlt]] at hrest

end Compaction

/-- The blocks that are moved while ranges are cut out of a buffer, in their order. -/
def compactMoves (buf : Bytes) : List Span → List Move
  | [] => []
  | first :: rest => Compaction.moves ⟨buf, first.start, first.stop⟩ rest

theorem compact_prefix_replay (buf : Bytes) (ranges : List Span) :
    compact buf ranges <+: replay (compactMoves buf ranges) buf := by
  cases ranges with
  | nil => exact List.prefix_refl buf
  | cons first rest => exact Compaction.close_prefix_replay _ rest

/-! ### What one move may do -/

/-- A move, made when the moves in `done` have been made, is harmless. Its block starts no later than it
stops, so that its length is their difference; it lies inside the buffer, and so does the place that it goes
to. The block is still the one that stood there at first. An octet that is overwritten lies in a range, or was
moved before, or belongs to the block itself; and the block goes to the left, so that from its front on none
of its octets is overwritten before it was moved. -/
structure Harmless (buf : Bytes) (ranges : List Span) (done : List Move) (m : Move) : Prop where
  source_within : m.source.Within (replay done buf)
  target_within : m.target.Within (replay done buf)
  leftward : m.dest ≤ m.source.start
  intact : m.source.slice (replay done buf) = m.source.slice buf
  spares : ∀ pos, m.target.Contains pos → Spared ranges pos →
    ∃ n ∈ done ++ [m], n.source.Contains pos

namespace Compaction

variable {buf : Bytes} {base : Nat} {done : List Move} {c : Compaction}

/-- The pass has come here by the moves in `done`, and has not yet destroyed anything that it still has to
look at. From `base` to where it has read, everything that lies in no range was moved, and it writes behind
`base`. -/
structure Moved (buf : Bytes) (ranges : List Span) (base : Nat) (done : List Move) (c : Compaction) :
    Prop where
  reading : Reading buf c
  buf_eq : c.buf = replay done buf
  base_le : base ≤ c.write
  moved : ∀ pos, base ≤ pos → pos < c.read → Spared ranges pos → ∃ n ∈ done, n.source.Contains pos

theorem Moved.initial {first : Span} (hfirst : first ∈ ranges) (hle : first.start ≤ first.stop) :
    Moved buf ranges first.start [] ⟨buf, first.start, first.stop⟩ where
  reading := ⟨hle, rfl, rfl⟩
  buf_eq := rfl
  base_le := le_rfl
  moved _ hstart hstop hspared := absurd ⟨hstart, hstop⟩ (hspared first hfirst)

/-- A block that starts where the pass has read to can be moved to where it writes. -/
theorem Moved.harmless (h : Moved buf ranges base done c) {stop : Nat} (hread : c.read ≤ stop)
    (hstop : stop ≤ buf.length) : Harmless buf ranges done ⟨⟨c.read, stop⟩, c.write⟩ := by
  have hwrite := h.reading.write_le_read
  have hbase := h.base_le
  have hlength : (replay done buf).length = buf.length := h.buf_eq ▸ h.reading.length_eq
  refine ⟨⟨hread, hlength.symm ▸ hstop⟩, ⟨Nat.le_add_right _ _, ?_⟩, hwrite, ?_, ?_⟩
  · show c.write + (stop - c.read) ≤ (replay done buf).length
    omega
  · rw [← h.buf_eq]
    exact Span.slice_congr h.reading.unread_eq stop
  · rintro pos ⟨hle, hlt⟩ hspared
    simp only [Move.target] at hle hlt
    rcases Nat.lt_or_ge pos c.read with hbefore | hbehind
    · obtain ⟨n, hn, hcontains⟩ := h.moved pos (hbase.trans hle) hbefore hspared
      exact ⟨n, List.mem_append_left _ hn, hcontains⟩
    · -- the place that the block goes to ends no later than the block
      refine ⟨_, List.mem_append_right _ (List.mem_singleton_self _), hbehind, ?_⟩
      show pos < stop
      omega

/-- A range is skipped, and the block before it is moved. -/
theorem Moved.skip_of_lt (h : Moved buf ranges base done c) {range : Span} (hrange : range ∈ ranges)
    (hlt : c.read < range.start) (hle : range.start ≤ range.stop) (hstop : range.stop ≤ buf.length) :
    Moved buf ranges base (done ++ [⟨⟨c.read, range.start⟩, c.write⟩]) (c.skip range) := by
  obtain ⟨hreading, hread, -⟩ := h.reading.skip hlt.le hle hstop
  refine ⟨hreading, ?_, ?_, ?_⟩
  · rw [Compaction.skip, if_pos hlt, replay_concat, ← h.buf_eq]
  · rw [Compaction.skip, if_pos hlt]
    exact h.base_le.trans (Nat.le_add_right _ _)
  · intro pos hbase hpos hspared
    rw [hread] at hpos
    -- read before, in the block, or in the range
    rcases Nat.lt_or_ge pos c.read with hbefore | hbehind
    · obtain ⟨n, hn, hcontains⟩ := h.moved pos hbase hbefore hspared
      exact ⟨n, List.mem_append_left _ hn, hcontains⟩
    · have hblock : pos < range.start :=
        Nat.lt_of_not_le fun hstart => hspared range hrange ⟨hstart, hpos⟩
      exact ⟨_, List.mem_append_right _ (List.mem_singleton_self _), hbehind, hblock⟩

/-- A range is skipped that starts where the last one ended. -/
theorem Moved.skip_of_eq (h : Moved buf ranges base done c) {range : Span} (hrange : range ∈ ranges)
    (heq : c.read = range.start) (hle : range.start ≤ range.stop) (hstop : range.stop ≤ buf.length) :
    Moved buf ranges base done (c.skip range) := by
  obtain ⟨hreading, hread, -⟩ := h.reading.skip heq.le hle hstop
  have hskip : c.skip range = { c with read := range.stop } := by
    rw [Compaction.skip, if_neg (by omega)]
  refine ⟨hreading, ?_, ?_, ?_⟩
  · rw [hskip]
    exact h.buf_eq
  · rw [hskip]
    exact h.base_le
  · intro pos hbase hpos hspared
    rw [hread] at hpos
    have hbefore : pos < c.read :=
      Nat.lt_of_not_le fun hstart => hspared range hrange ⟨heq ▸ hstart, hpos⟩
    exact h.moved pos hbase hbefore hspared

/-- From there on the pass makes harmless moves only. -/
theorem Moved.harmless_moves {left : List Span} (h : Moved buf ranges base done c)
    (hleft : ∀ r ∈ left, r ∈ ranges) (hascending : Ascending c.read buf.length left) {i : Nat} {m : Move}
    (hm : (c.moves left)[i]? = some m) : Harmless buf ranges (done ++ (c.moves left).take i) m := by
  induction left generalizing c done i with
  | nil =>
    have hlength := h.reading.length_eq
    rw [moves] at hm ⊢
    cases i with
    | zero =>
      rw [List.take_zero, List.append_nil, ← Option.some.inj hm]
      exact h.harmless (hlength.symm ▸ hascending) hlength.le
    | succ i => exact absurd hm (by simp)
  | cons r rest ih =>
    obtain ⟨hr, hrest⟩ := List.forall_mem_cons.mp hleft
    obtain ⟨hstart, hle, hbehind⟩ := hascending
    have hstop := hbehind.le_limit
    have hnext : Ascending (c.skip r).read buf.length rest :=
      (h.reading.skip hstart hle hstop).2.1.symm ▸ hbehind
    rw [moves] at hm ⊢
    rcases Nat.lt_or_ge c.read r.start with hlt | hge
    · rw [if_pos hlt] at hm ⊢
      cases i with
      | zero =>
        rw [List.take_zero, List.append_nil, ← Option.some.inj hm]
        exact h.harmless hstart (hle.trans hstop)
      | succ i =>
        rw [List.take_succ_cons, List.append_cons]
        exact ih (h.skip_of_lt hr hlt hle hstop) hrest hnext hm
    · rw [if_neg (by omega)] at hm ⊢
      exact ih (h.skip_of_eq hr (by omega) hle hstop) hrest hnext hm

end Compaction

/-! ### Cutting ranges out -/

section Ascending

variable {buf : Bytes}

theorem compact_eq_sparedOctets (h : Ascending 0 buf.length ranges) :
    compact buf ranges = sparedOctets ranges 0 buf := by
  rw [compact_eq_outside h, outside_eq_sparedOctets h, List.drop_zero]

theorem harmless_compactMoves (h : Ascending 0 buf.length ranges) {i : Nat} {m : Move}
    (hm : (compactMoves buf ranges)[i]? = some m) :
    Harmless buf ranges ((compactMoves buf ranges).take i) m := by
  cases ranges with
  | nil => exact absurd hm (by simp [compactMoves])
  | cons first rest =>
    obtain ⟨-, hle, hrest⟩ := h
    have hinitial : Compaction.Moved buf (first :: rest) first.start [] ⟨buf, first.start, first.stop⟩ :=
      Compaction.Moved.initial List.mem_cons_self hle
    exact hinitial.harmless_moves (fun r hr => List.mem_cons_of_mem _ hr) hrest hm

end Ascending

/-- Ranges inside a buffer are cut out of which each ends no later than the next one starts. What is left is
what stands at the positions that lie in none of them, in its order. It is the front of what the moves of the
pass make of the buffer, and each of these moves is harmless when its turn comes. -/
theorem compact_spared (buf : Bytes) (ranges : List Span) (hwithin : ∀ r ∈ ranges, r.Within buf)
    (hchain : ranges.IsChain fun r s => r.stop ≤ s.start) :
    compact buf ranges = sparedOctets ranges 0 buf ∧
      compact buf ranges <+: replay (compactMoves buf ranges) buf ∧
      ∀ i m, (compactMoves buf ranges)[i]? = some m →
        Harmless buf ranges ((compactMoves buf ranges).take i) m := by
  have hascending : Ascending 0 buf.length ranges :=
    ascending_of_isChain (Nat.zero_le _) hwithin (fun r _ => Nat.zero_le _) hchain
  exact ⟨compact_eq_sparedOctets hascending, compact_prefix_replay buf ranges,
    fun i m hm => harmless_compactMoves hascending hm⟩

/-- Ranges at both ends of a buffer, two of them adjacent and one of them empty. -/
def mixedRanges : List Span := [⟨0, 1⟩, ⟨1, 2⟩, ⟨3, 3⟩, ⟨8, 10⟩]

/-- The second block overlaps the place that it goes to. -/
theorem compact_spared_mixed :
    (∀ r ∈ mixedRanges, r.Within (Text.utf8 "abcdefghij")) ∧
      (mixedRanges.IsChain fun r s => r.stop ≤ s.start) ∧
      compactMoves (Text.utf8 "abcdefghij") mixedRanges = [⟨⟨2, 3⟩, 0⟩, ⟨⟨3, 8⟩, 1⟩, ⟨⟨10, 10⟩, 6⟩] ∧
      compact (Text.utf8 "abcdefghij") mixedRanges = Text.utf8 "cdefgh" ∧
      Harmless (Text.utf8 "abcdefghij") mixedRanges [⟨⟨2, 3⟩, 0⟩] ⟨⟨3, 8⟩, 1⟩ := by
  have hwithin : ∀ r ∈ mixedRanges, r.Within (Text.utf8 "abcdefghij") := by decide
  have hchain : mixedRanges.IsChain fun r s => r.stop ≤ s.start := by decide
  have hmoves : compactMoves (Text.utf8 "abcdefghij") mixedRanges =
      [⟨⟨2, 3⟩, 0⟩, ⟨⟨3, 8⟩, 1⟩, ⟨⟨10, 10⟩, 6⟩] := by decide
  obtain ⟨hleft, -, hharmless⟩ := compact_spared _ _ hwithin hchain
  rw [hmoves] at hharmless
  exact ⟨hwithin, hchain, hmoves, hleft.trans (by decide), hharmless 1 _ rfl⟩

/-- Whatever lists are written, what comes of them stands at the positions outside the obsolete ranges, and
cutting these out makes harmless moves only. -/
theorem Formatter.writeLists_spared (f : Formatter) (buf : Bytes) (lists : List (List Value)) {p : Progress}
    (hp : f.progress buf lists (lists.flatMap KeyValues.completePairs).length = p) :
    (f.writeLists buf lists).value = sparedOctets p.obsolete 0 p.buf ∧
      ∀ i m, (compactMoves p.buf p.obsolete)[i]? = some m →
        Harmless p.buf p.obsolete ((compactMoves p.buf p.obsolete).take i) m := by
  obtain ⟨htiles, -⟩ := f.tiles_progress buf lists (lists.flatMap KeyValues.completePairs).length
  have hascending : Ascending 0 p.buf.length p.obsolete :=
    (hp ▸ htiles).ascending_obsolete.mono (Nat.zero_le _)
  refine ⟨?_, fun i m hm => harmless_compactMoves hascending hm⟩
  rw [← compact_eq_sparedOctets hascending, writeLists, Traced.value_bind, Traced.value_pure, ← hp, progress,
    List.take_length]

end Logline
