import Mathlib
import Logline.Proofs.Accounting

/-!
# Which failed writes are reported

One counter counts the failed writes to all destinations. A failed write to a file is reported on standard
error if it finds the counter at a multiple of the interval; a failed write to the console is counted too,
but never reported. So a console that fails can use up the numbers that are due.

A ledger holds the writes of a run since the last reset of the statistics, each with the answer of its
destination and with what was printed meanwhile. Answers are taken to be harmless here, since a failure that
cannot be put into words is neither counted nor reported.

Main statements: `Books.warnings_run`, which failures are reported, and when that is enough for the files;
and `Books.silent_failingPair`, a file that fails at every line and is never reported.
-/

namespace Logline

/-! ### Writes -/

/-- A write of a line, for a file or for the console: what its destination answered and printed, and what
was printed about the write. -/
structure Write where
  toFile : Bool
  target : Handle
  /-- The name of the destination. -/
  name : String
  bytes : Bytes
  reply : Reply
  shown : List Bytes
  warnings : List Bytes
  deriving DecidableEq

namespace Write

def event (w : Write) : Event := .appended w.target w.bytes w.reply

def failed (w : Write) : Bool := w.event.isFailure

def printed (w : Write) : List Bytes := w.shown ++ w.warnings

end Write

/-- How many writes failed. -/
def failedWrites (writes : List Write) : Nat := writes.countP Write.failed

/-- How many writes to files failed. -/
def failedFileWrites (writes : List Write) : Nat := writes.countP fun w => w.failed && w.toFile

/-- What was printed about writes. -/
def warningsOf (writes : List Write) : List Bytes := writes.flatMap Write.warnings

/-- A failing file does not stay silent: there is a report for each thousand failures, or part of it. -/
def NeverSilent (writes : List Write) : Prop :=
  (failedFileWrites writes + 999) / 1000 ≤ (warningsOf writes).length

instance (writes : List Write) : Decidable (NeverSilent writes) := inferInstanceAs (Decidable (_ ≤ _))

theorem failedWrites_append (first rest : List Write) :
    failedWrites (first ++ rest) = failedWrites first + failedWrites rest := List.countP_append

theorem failedWrites_cons (w : Write) (rest : List Write) :
    failedWrites (w :: rest) = failedWrites rest + if w.failed then 1 else 0 := List.countP_cons

namespace Engine

variable (e : Engine) (bytes : Bytes)

/-- A write as it takes place. -/
def writeOf (toFile : Bool) (h : Handle) : Write :=
  let (reply, outlets) := e.outlets.append h bytes
  { toFile
    target := h
    name := outlets.name h
    bytes
    reply
    shown := outlets.console.drop e.outlets.console.length
    warnings := (e.writeTo bytes toFile h).2.outlets.console.drop outlets.console.length }

/-- The writes of a line, one after the other, as far as it comes. -/
def writesOf (e : Engine) : List (Handle × Bool) → List Write
  | [] => []
  | (h, toFile) :: rest =>
    e.writeOf bytes toFile h ::
      match e.writeTo bytes toFile h with
      | (.ok (), e) => e.writesOf rest
      | (.error _, _) => []

end Engine

/-! ### What is due -/

/-- A failed write is due to be reported if it finds the counter, after so many failures, at a multiple of
the interval. -/
def IsDue (previous : Nat) : Prop := UInt64.ofNat previous % Stats.reportInterval = 0

instance : DecidablePred IsDue := fun _ => inferInstanceAs (Decidable (_ = _))

/-- What is to be printed about a write with so many failures before it. -/
def Write.report (w : Write) (previous : Nat) : List Bytes :=
  match Engine.failureText w.reply with
  | some (.ok failure) =>
    if w.toFile = true ∧ IsDue previous then
      [Engine.writeReport w.name failure (.ofNat (previous + 1))]
    else []
  | _ => []

/-- Each write is answered harmlessly and reported as it is to be, with so many failures before the first
one. -/
def Reported (previous : Nat) : List Write → Prop
  | [] => True
  | w :: rest =>
    (w.reply.Harmless ∧ w.warnings = w.report previous) ∧
      Reported (previous + if w.failed then 1 else 0) rest

/-- The failed writes that are due, with so many failures before the first one. -/
def dueWrites (previous : Nat) : List Write → List Write
  | [] => []
  | w :: rest =>
    if w.failed then (if IsDue previous then [w] else []) ++ dueWrites (previous + 1) rest
    else dueWrites previous rest

theorem isDue_iff (previous : Nat) : IsDue previous ↔ previous % 2 ^ 64 % 1000 = 0 := by
  rw [IsDue, ← UInt64.toNat_inj, UInt64.toNat_mod, UInt64.toNat_ofNat']
  rfl

/-- There are enough numbers that are due, also when the counter wraps: it starts at one of them again. -/
theorem le_count_isDue (n : Nat) : n ≤ 1000 * Nat.count IsDue n := by
  -- the reports that were due pay for the failures up to the next multiple of the interval
  have hpaid : n + (1000 - n % 2 ^ 64 % 1000) % 1000 ≤ 1000 * Nat.count IsDue n := by
    induction n with
    | zero => decide
    | succ n ih =>
      have hnext : (n + 1) % 2 ^ 64 = n % 2 ^ 64 + 1 ∨ (n + 1) % 2 ^ 64 = 0 := by omega
      have hdue := isDue_iff n
      rw [Nat.count_succ]
      generalize (n + 1) % 2 ^ 64 = after at hnext
      generalize n % 2 ^ 64 = before at ih hnext hdue
      split
      · next h =>
        have hzero := hdue.mp h
        omega
      · next h =>
        have hne := mt hdue.mpr h
        omega
  omega

namespace Write

variable {w : Write}

theorem failed_eq_isSome (w : Write) : w.failed = (Engine.failureText w.reply).isSome := by
  unfold failed event
  cases w.reply <;> rfl

/-- A failure can be put into words, if the answer is harmless. -/
theorem exists_failureText (hfailed : w.failed = true) (hharmless : w.reply.Harmless) :
    ∃ failure, Engine.failureText w.reply = some (.ok failure) := by
  rw [failed_eq_isSome, Option.isSome_iff_exists] at hfailed
  obtain ⟨said, hsaid⟩ := hfailed
  cases said with
  | ok failure => exact ⟨failure, hsaid⟩
  | error p => exact (w.reply.harmless_iff.mp hharmless p hsaid).elim

theorem report_of_not_failed (h : w.failed = false) (previous : Nat) : w.report previous = [] := by
  rw [failed_eq_isSome, Option.isSome_eq_false_iff, Option.isNone_iff_eq_none] at h
  rw [report, h]

theorem report_console (h : w.toFile = false) (previous : Nat) : w.report previous = [] := by
  rw [report]
  split
  · rw [if_neg fun hand => Bool.false_ne_true (h.symm.trans hand.1)]
  · rfl

theorem report_of_not_due {previous : Nat} (h : ¬ IsDue previous) (w : Write) : w.report previous = [] := by
  rw [report]
  split
  · rw [if_neg fun hand => h hand.2]
  · rfl

theorem length_report (hfailed : w.failed = true) (hharmless : w.reply.Harmless) (previous : Nat) :
    (w.report previous).length = if w.toFile = true ∧ IsDue previous then 1 else 0 := by
  obtain ⟨failure, hfailure⟩ := exists_failureText hfailed hharmless
  rw [report, hfailure]
  dsimp only
  split <;> rfl

end Write

theorem reported_append (previous : Nat) (first rest : List Write) :
    Reported previous (first ++ rest) ↔
      Reported previous first ∧ Reported (previous + failedWrites first) rest := by
  induction first generalizing previous with
  | nil => exact (iff_of_eq (true_and _)).symm
  | cons w first ih =>
    have hcount : previous + failedWrites (w :: first) =
        previous + (if w.failed then 1 else 0) + failedWrites first := by
      rw [failedWrites_cons]
      omega
    rw [List.cons_append, Reported, Reported, ih, hcount]
    exact and_assoc.symm

/-- A write to the console is never reported. -/
theorem Reported.console {previous : Nat} {writes : List Write} (h : Reported previous writes) :
    ∀ w ∈ writes, w.toFile = false → w.warnings = [] := by
  induction writes generalizing previous with
  | nil => exact fun _ hmem => (List.not_mem_nil hmem).elim
  | cons w rest ih =>
    obtain ⟨⟨-, hw⟩, hrest⟩ := h
    intro other hmem hconsole
    rcases List.mem_cons.mp hmem with rfl | hlater
    · rw [hw]
      exact Write.report_console hconsole previous
    · exact ih hrest other hlater hconsole

/-- The due writes to files are reported, each once. -/
theorem Reported.length_warnings {previous : Nat} {writes : List Write} (h : Reported previous writes) :
    (warningsOf writes).length = (dueWrites previous writes).countP Write.toFile := by
  induction writes generalizing previous with
  | nil => rfl
  | cons w rest ih =>
    obtain ⟨⟨hharmless, hw⟩, hrest⟩ := h
    have hlater := ih hrest
    rw [warningsOf, List.flatMap_cons, List.length_append, hw, ← warningsOf, hlater, dueWrites]
    by_cases hfailed : w.failed = true
    · rw [Write.length_report hfailed hharmless, if_pos hfailed, if_pos hfailed, List.countP_append]
      by_cases hdue : IsDue previous <;> simp [hdue, List.countP_singleton]
    · have hnot := Bool.eq_false_of_not_eq_true hfailed
      rw [Write.report_of_not_failed hnot, if_neg hfailed, if_neg hfailed]
      exact Nat.zero_add _

theorem count_add_length_dueWrites (previous : Nat) (writes : List Write) :
    Nat.count IsDue previous + (dueWrites previous writes).length =
      Nat.count IsDue (previous + failedWrites writes) := by
  induction writes generalizing previous with
  | nil => rfl
  | cons w rest ih =>
    rw [dueWrites, failedWrites_cons]
    split
    · have hnext := ih (previous + 1)
      rw [Nat.count_succ, Nat.add_right_comm previous 1] at hnext
      rw [List.length_append, ← Nat.add_assoc, ← Nat.add_assoc, ← hnext]
      congr 2
      split <;> rfl
    · exact ih previous

/-- There are enough due writes for all failures. -/
theorem le_length_dueWrites (writes : List Write) :
    (failedWrites writes + 999) / 1000 ≤ (dueWrites 0 writes).length := by
  have hlength := count_add_length_dueWrites 0 writes
  have hcount := le_count_isDue (failedWrites writes)
  rw [Nat.count_zero, Nat.zero_add, Nat.zero_add] at hlength
  omega

theorem failedFileWrites_le (writes : List Write) : failedFileWrites writes ≤ failedWrites writes :=
  List.countP_mono_left fun _ _ h => (Bool.and_eq_true_iff.mp h).1

/-! ### One write, and the writes of a line -/

namespace Outlets

variable (o : Outlets) (h : Handle) (bytes : Bytes)

/-- A destination that is the console prints; the others leave it alone. -/
theorem console_append : ∃ shown, (o.append h bytes).2.console = o.console ++ shown := by
  have haccept : ∃ shown, (o.accept h bytes).2.console = o.console ++ shown := by
    unfold accept
    split
    case h_5 => exact ⟨[_], rfl⟩
    all_goals exact ⟨[], (List.append_nil _).symm⟩
  exact haccept

end Outlets

namespace Engine

/-- Writes took place: each was asked of its destination, counted if it failed, and reported as the counter
says. -/
structure Wrote (e : Engine) (writes : List Write) (e' : Engine) : Prop where
  events : e'.outlets.events = e.outlets.events ++ writes.map Write.event
  console : e'.outlets.console = e.outlets.console ++ writes.flatMap Write.printed
  counter : e'.stats.writeErrors = e.stats.writeErrors + .ofNat (failedWrites writes)
  reported : ∀ previous, e.stats.writeErrors = .ofNat previous → Reported previous writes

namespace Wrote

variable {e e' e'' : Engine} {first rest : List Write}

theorem refl (e : Engine) : e.Wrote [] e where
  events := (List.append_nil _).symm
  console := (List.append_nil _).symm
  counter := (UInt64.add_zero _).symm
  reported _ _ := trivial

theorem trans (h : e.Wrote first e') (h' : e'.Wrote rest e'') : e.Wrote (first ++ rest) e'' where
  events := by rw [h'.events, h.events, List.map_append, List.append_assoc]
  console := by rw [h'.console, h.console, List.flatMap_append, List.append_assoc]
  counter := by rw [h'.counter, h.counter, failedWrites_append, UInt64.ofNat_add, UInt64.add_assoc]
  reported previous hprevious := by
    refine (reported_append previous first rest).mpr ⟨h.reported previous hprevious, h'.reported _ ?_⟩
    rw [h.counter, hprevious, UInt64.ofNat_add]

theorem congr {e₁ : Engine} (h : e₁.Wrote first e') (houtlets : e₁.outlets = e.outlets)
    (hstats : e₁.stats = e.stats) : e.Wrote first e' where
  events := by rw [h.events, houtlets]
  console := by rw [h.console, houtlets]
  counter := by rw [h.counter, hstats]
  reported previous hprevious := h.reported previous (by rw [hstats, hprevious])

end Wrote

variable (e : Engine) (bytes : Bytes)

/-- A failed write to a file is reported if it is due, behind what the destination itself printed. -/
theorem outlets_writeTo (ho : e.outlets.Harmless) (toFile : Bool) (h : Handle) {previous : Nat}
    (hprevious : e.stats.writeErrors = .ofNat previous) :
    ∃ reports, (e.writeTo bytes toFile h).2.outlets =
      { (e.outlets.append h bytes).2 with
        console := (e.outlets.append h bytes).2.console ++ (e.writeOf bytes toFile h).report previous
        reports := reports } := by
  have hreport : (e.writeOf bytes toFile h).report previous =
      match failureText (e.outlets.append h bytes).1 with
      | some (.ok failure) =>
        if toFile = true ∧ IsDue previous then
          [writeReport ((e.outlets.append h bytes).2.name h) failure (.ofNat (previous + 1))]
        else []
      | _ => [] := rfl
  rw [hreport]
  rcases e.writeTo_cases bytes toFile h with ⟨hnone, heq⟩ | ⟨p, hp, -⟩ | ⟨failure, hfailure, heq⟩
  · rw [heq, hnone, List.append_nil]
    exact ⟨_, rfl⟩
  · exact ((Reply.harmless_iff _).mp (ho.append h bytes).1 p hp).elim
  · have hdue : (toFile && e.stats.writeErrors % Stats.reportInterval == 0) = true ↔
        toFile = true ∧ IsDue previous := by
      rw [hprevious, Bool.and_eq_true, beq_iff_eq, IsDue]
    rw [heq, hfailure]
    dsimp only
    by_cases hreports : toFile = true ∧ IsDue previous
    · rw [if_pos (hdue.mpr hreports), if_pos hreports, hprevious, UInt64.ofNat_add]
      exact (ho.append h bytes).2.report_eq _
    · rw [if_neg (mt hdue.mp hreports), if_neg hreports, List.append_nil]
      exact ⟨_, rfl⟩

theorem wrote_writeTo (ho : e.outlets.Harmless) (toFile : Bool) (h : Handle) :
    e.Wrote [e.writeOf bytes toFile h] (e.writeTo bytes toFile h).2 := by
  let w := e.writeOf bytes toFile h
  have hreply : w.reply.Harmless := (ho.append h bytes).1
  have hreport : ∀ previous, e.stats.writeErrors = .ofNat previous → w.warnings = w.report previous := by
    intro previous hprevious
    obtain ⟨reports, houtlets⟩ := e.outlets_writeTo bytes ho toFile h hprevious
    have hdrop : w.warnings = (e.writeTo bytes toFile h).2.outlets.console.drop
        (e.outlets.append h bytes).2.console.length := rfl
    rw [hdrop, houtlets, List.drop_left]
  -- the counter stands for some number of failures
  have hcounter : e.stats.writeErrors = .ofNat e.stats.writeErrors.toNat := UInt64.ofNat_toNat.symm
  obtain ⟨reports, houtlets⟩ := e.outlets_writeTo bytes ho toFile h hcounter
  have hevents : (e.writeTo bytes toFile h).2.outlets.events = e.outlets.events ++ [w.event] := by
    rw [houtlets]
    exact e.outlets.events_append h bytes
  obtain ⟨added, hadded, hcounted, hharmless⟩ := (e.counts_writeTo bytes toFile h).failures
  obtain rfl : added = [w.event] := List.append_cancel_left (hadded.symm.trans hevents)
  have hfailures : [w.event].countP Event.isCounted = failedWrites [w] :=
    List.countP_congr fun event hmem => by rw [(hharmless ho).2 event hmem]
  refine ⟨hevents, ?_, hcounted.trans (by rw [hfailures]), fun previous hprevious =>
    ⟨⟨hreply, hreport previous hprevious⟩, trivial⟩⟩
  obtain ⟨shown, hshown⟩ := e.outlets.console_append h bytes
  have hdrop : w.shown = shown := by
    have hshownBy : w.shown = (e.outlets.append h bytes).2.console.drop e.outlets.console.length := rfl
    rw [hshownBy, hshown, List.drop_left]
  rw [houtlets, List.flatMap_singleton, Write.printed, hdrop, hreport _ hcounter]
  exact (congrArg (· ++ w.report _) hshown).trans (List.append_assoc _ _ _)

/-- Behind a write that returns the rest of the writes take place. -/
theorem writesOf_cons_of_returns {e : Engine} {toFile : Bool} {h : Handle}
    (hreturns : (e.writeTo bytes toFile h).1 = .ok ()) (rest : List (Handle × Bool)) :
    e.writesOf bytes ((h, toFile) :: rest) =
      e.writeOf bytes toFile h :: (e.writeTo bytes toFile h).2.writesOf bytes rest := by
  rw [writesOf, show e.writeTo bytes toFile h = (.ok (), _) from Prod.ext hreturns rfl]

theorem wrote_writeAll (ho : e.outlets.Harmless) (writes : List (Handle × Bool)) :
    e.Wrote (e.writesOf bytes writes) (e.writeAll bytes writes).2 := by
  induction writes generalizing e with
  | nil => exact .refl e
  | cons w rest ih =>
    have hfirst := e.wrote_writeTo bytes ho w.2 w.1
    obtain ⟨hreturns, hlater⟩ := (e.offers_writeTo bytes w.2 w.1).harmless ho
    rw [writesOf_cons_of_returns bytes hreturns, writeAll, andThen_of_returns hreturns]
    exact hfirst.trans (ih _ hlater)

/-- Writes depend on the destinations and the statistics, and on nothing else of an engine. -/
theorem writesOf_congr {e e₁ : Engine} (houtlets : e₁.outlets = e.outlets) (hstats : e₁.stats = e.stats)
    (writes : List (Handle × Bool)) : e₁.writesOf bytes writes = e.writesOf bytes writes := by
  induction writes generalizing e e₁ with
  | nil => rfl
  | cons w rest ih =>
    obtain ⟨houtcome, houtlets', hstats'⟩ := writeTo_congr houtlets hstats bytes w.2 w.1
    have hwrite : e₁.writeOf bytes w.2 w.1 = e.writeOf bytes w.2 w.1 := by
      rw [writeOf, writeOf, houtlets, houtlets']
    rw [writesOf, writesOf, hwrite]
    generalize e₁.writeTo bytes w.2 w.1 = first₁ at *
    generalize e.writeTo bytes w.2 w.1 = first at *
    obtain ⟨outcome, after⟩ := first
    obtain ⟨outcome₁, after₁⟩ := first₁
    obtain rfl : outcome₁ = outcome := houtcome
    cases outcome₁ with
    | error i => rfl
    | ok => exact congrArg (e.writeOf bytes w.2 w.1 :: ·) (ih houtlets' hstats')

end Engine

/-! ### What a command writes -/

namespace Engine

variable (e : Engine)

/-- Writes took place, and then nothing was written any more. -/
def Performed (e : Engine) (writes : List Write) (e' : Engine) : Prop :=
  ∃ (written : Engine) (error? : Option LogError),
    e.Wrote writes written ∧ written.Unwritten error?.toList e'

theorem performed_output (ho : e.outlets.Harmless) (severity : Severity) (buffer : Buffer) :
    e.Performed (e.writesOf buffer.bytes (e.settings.writes severity)) (e.output severity buffer).2 := by
  -- that the line is counted makes no difference to the count of failures
  have hwrote : e.Wrote (e.writesOf buffer.bytes (e.settings.writes severity))
      (e.written severity buffer).2 := by
    have hall := e.wrote_writeAll buffer.bytes ho (e.settings.writes severity)
    rw [written]
    generalize e.writeAll buffer.bytes (e.settings.writes severity) = result at *
    obtain ⟨_ | ⟨⟩, after⟩ := result
    · exact ⟨hall.events, hall.console, hall.counter, hall.reported⟩
    · exact ⟨hall.events, hall.console, hall.counter, hall.reported⟩
  rw [output, andThen_of_returns (e.written_of_harmless severity buffer ho)]
  split
  · obtain ⟨error?, hfinish⟩ := (e.written severity buffer).2.unwritten_finishFatal e.settings.exitHook
    exact ⟨_, error?, hwrote, hfinish⟩
  · exact ⟨_, none, hwrote, .of_same rfl rfl⟩

/-- The writes of lines. A call has one line at most. -/
def writesOfLines (lines : List Line) : List Write :=
  lines.flatMap fun l => e.writesOf l.bytes (e.settings.writes l.severity)

theorem ComesTo.performed {e e' : Engine} {lines : List Line} (h : e.ComesTo lines e')
    (ho : e.outlets.Harmless) : e.Performed (e.writesOfLines lines) e' := by
  cases h with
  | @line before twin severity buffer =>
    have hbefore : before.outlets.Harmless := twin.outlets ▸ ho
    obtain ⟨written, error?, hwrote, hrest⟩ := before.performed_output hbefore severity buffer
    rw [writesOf_congr _ twin.outlets twin.stats, twin.settings] at hwrote
    rw [writesOfLines, List.flatMap_singleton]
    exact ⟨written, error?, hwrote.congr twin.outlets twin.stats, hrest⟩
  | nothing keeps unwritten => exact ⟨e, none, .refl e, unwritten⟩

end Engine

namespace Session

/-- The writes of a command, with what comes of them. -/
def writes (s : Session) (c : Command) : List Write := s.engine.writesOfLines (s.lines c)

variable (s : Session)

theorem performed_perform (ho : s.engine.outlets.Harmless) (c : Command) :
    s.engine.Performed (s.writes c) (s.perform c).2.engine := by
  rcases s.unwritten_or_comesTo c with ⟨hlines, hidle⟩ | hcomes
  · rw [writes, hlines]
    exact ⟨s.engine, none, .refl s.engine, hidle⟩
  · exact hcomes.performed ho

end Session

/-! ### A run -/

namespace Books

/-- The ledger after a step: the writes of a command are added, and a reset closes it. -/
def entered (b : Books) (writes : List Write) : Deed → List Write
  | .command c => writes ++ b.session.writes c
  | .resetStats => []
  | .copyStats => writes

/-- The ledger after a run: the writes since the last reset. -/
def ledger (b : Books) (writes : List Write) : List Deed → List Write
  | [] => writes
  | d :: rest =>
    match b.step d with
    | (.error (.exit _), _) => b.entered writes d
    | (_, after) => after.ledger (b.entered writes d) rest

theorem ledger_cons_of_returns {b : Books} {d : Deed} (hreturns : (b.step d).1 = .ok ()) (writes : List Write)
    (rest : List Deed) : b.ledger writes (d :: rest) = (b.step d).2.ledger (b.entered writes d) rest := by
  rw [ledger, show b.step d = (.ok (), _) from Prod.ext hreturns rfl]

/-- The counter stands at the failures of a ledger, and its writes were reported as they are to be. Later
answers are harmless too. -/
structure Agrees (b : Books) (writes : List Write) : Prop where
  harmless : b.session.engine.outlets.Harmless
  counter : b.stats.writeErrors = .ofNat (failedWrites writes)
  reported : Reported 0 writes

theorem agrees_step {b : Books} {writes : List Write} (h : b.Agrees writes) (d : Deed) :
    (b.step d).2.Agrees (b.entered writes d) := by
  have hharmless := (settlement_of_harmless h.harmless d).2
  cases d with
  | resetStats => exact ⟨hharmless, rfl, trivial⟩
  | copyStats => exact ⟨hharmless, h.counter, h.reported⟩
  | command c =>
    obtain ⟨written, error?, hwrote, hrest⟩ := b.session.performed_perform h.harmless c
    refine ⟨hharmless, ?_, (reported_append 0 _ _).mpr ⟨h.reported, hwrote.reported _ ?_⟩⟩
    · rw [entered, failedWrites_append, UInt64.ofNat_add, ← h.counter]
      exact (congrArg Stats.writeErrors hrest.stats).trans hwrote.counter
    · rw [Nat.zero_add]
      exact h.counter

theorem agrees_run {b : Books} {writes : List Write} (h : b.Agrees writes) (deeds : List Deed) :
    (b.run deeds).Agrees (b.ledger writes deeds) := by
  induction deeds generalizing b writes with
  | nil => exact h
  | cons d rest ih =>
    have hstep := agrees_step h d
    rcases hresult : b.step d with ⟨outcome, after⟩
    rw [hresult] at hstep
    rw [run, ledger, hresult]
    -- the run goes on after a panic, and the ledger with it
    rcases outcome with (p | code) | result
    · exact ih hstep
    · exact hstep
    · exact ih hstep

/-- In a run from new statistics, with harmless answers, a failed write to a file is reported if it is due,
and no other write is. The reports, and the due numbers that are lost to the console, are enough for all
failures. So files that fail do not stay silent exactly if enough of the due failures are theirs, and always
if the console has none of these. The ledger is what takes place: a command asks destinations for its writes
and prints what the ledger says, and after that there is at most the report of a flush. -/
theorem warnings_run (e : Engine) (saved : List Settings) (hharmless : e.outlets.Harmless)
    (deeds : List Deed) :
    let start : Books := { session := { engine := { e with stats := {} }, saved } }
    let now := start.run deeds
    let ledger := start.ledger [] deeds
    let due := dueWrites 0 ledger
    Reported 0 ledger ∧
      (∀ w ∈ ledger, w.toFile = false → w.warnings = []) ∧
      (failedWrites ledger + 999) / 1000 ≤ (warningsOf ledger).length + due.countP (!·.toFile) ∧
      (NeverSilent ledger ↔ (failedFileWrites ledger + 999) / 1000 ≤ due.countP Write.toFile) ∧
      ((∀ w ∈ due, w.toFile = true) → NeverSilent ledger) ∧
      ∀ c, ∃ others error?,
        let before := now.session.engine.outlets
        let after := (now.step (.command c)).2.session.engine.outlets
        let writes := now.session.writes c
        after.events = before.events ++ writes.map Write.event ++ others ∧
          (∀ event ∈ others, event.isWrite = false) ∧
          after.console = before.console ++ writes.flatMap Write.printed ++
            (error? : Option LogError).toList.map Engine.flushReport := by
  intro start now ledger due
  have hstart : start.Agrees [] := ⟨hharmless, rfl, trivial⟩
  have hagrees : now.Agrees ledger := agrees_run hstart deeds
  have hreported : Reported 0 ledger := hagrees.reported
  have hwarned : (warningsOf ledger).length = due.countP Write.toFile := hreported.length_warnings
  have hdue : due.length = due.countP Write.toFile + due.countP (!·.toFile) :=
    (List.length_eq_countP_add_countP Write.toFile).trans (by simp only [Bool.not_eq_true, Bool.decide_eq_false])
  have henough : (failedWrites ledger + 999) / 1000 ≤ due.length := le_length_dueWrites ledger
  have hfiles : failedFileWrites ledger ≤ failedWrites ledger := failedFileWrites_le ledger
  refine ⟨hreported, hreported.console, by omega, ?_, fun hall => ?_, fun c => ?_⟩
  · rw [NeverSilent, hwarned]
  · have hlost : due.countP Write.toFile = due.length := List.countP_eq_length.mpr hall
    rw [NeverSilent, hwarned, hlost]
    omega
  · obtain ⟨written, error?, hwrote, hrest⟩ := now.session.performed_perform hagrees.harmless c
    obtain ⟨others, hevents, hothers⟩ := hrest.events
    refine ⟨others, error?, ?_, hothers, ?_⟩
    · exact hevents.trans (by rw [hwrote.events])
    · exact hrest.console.trans (by rw [hwrote.console])

/-- A file panics after a reset, and its failure is reported. -/
theorem warnings_run_mixed :
    let ledger := ({ session := Session.mixed } : Books).ledger [] mixedDeeds
    Session.mixed.engine.outlets.Harmless ∧ failedFileWrites ledger = 1 ∧ NeverSilent ledger ∧
      warningsOf ledger = [Text.utf8 ("[LOGGER WARNING] Write to broken destination failed: " ++
        "panicked: Unknown panic (1 failures so far)\n")] := by
  intro ledger
  have hharmless : Session.mixed.engine.outlets.Harmless := by decide
  obtain ⟨-, -, -, -, henough, -⟩ := warnings_run Session.mixed.engine [] hharmless mixedDeeds
  exact ⟨hharmless, by decide +kernel, henough (by decide +kernel), by decide +kernel⟩

end Books

/-! ### A file that is never reported -/

/-- A destination that always gives the same answer to what is appended stays as it is. -/
theorem Outlets.append_constant {o : Outlets} {h : Handle} {name : String} {reply : Reply}
    {flushes : Script Reply} (hold : o.appender? h = some (.scripted name [reply] flushes)) (bytes : Bytes) :
    o.append h bytes = (reply, o.note (.appended h bytes reply)) := by
  have hsame : o.replace h (.scripted name [reply] flushes) = o := by
    obtain ⟨hlt, hget⟩ := List.getElem?_eq_some_iff.mp hold
    rw [replace, ← hget, List.set_getElem_self]
  rw [append, accept, hold]
  exact congrArg (fun o : Outlets => (reply, o.note (.appended h bytes reply))) hsame

namespace Engine

/-- An engine whose console fails at each write, and so does its file. -/
def failingPair : Engine where
  settings :=
    { thresholds := { toConsole := false, consoleThreshold := .info }
      files := ⟨some 1, none, none, none⟩
      console := 0 }
  outlets :=
    { appenders :=
        [.scripted "c" [.failed (.fileLock "app.log")] [], .scripted "f" [.failed (.fileLock "app.log")] []] }
  stamp := ⟨1, 1, 0, 0, 0, 0⟩

/-- The settings and the destinations are those of the failing pair. -/
structure FailsTwice (e : Engine) : Prop where
  settings : e.settings = failingPair.settings
  appenders : e.outlets.appenders = failingPair.outlets.appenders

variable {e : Engine}

theorem appenders_writeTo_constant (ho : e.outlets.Harmless) {h : Handle} {name : String} {reply : Reply}
    {flushes : Script Reply} (hold : e.outlets.appender? h = some (.scripted name [reply] flushes))
    (bytes : Bytes) (toFile : Bool) :
    (e.writeTo bytes toFile h).2.outlets.appenders = e.outlets.appenders ∧
      (e.writeOf bytes toFile h).reply = reply := by
  obtain ⟨reports, houtlets⟩ := e.outlets_writeTo bytes ho toFile h UInt64.ofNat_toNat.symm
  rw [houtlets, writeOf, Outlets.append_constant hold]
  exact ⟨rfl, rfl⟩

theorem FailsTwice.writes (h : e.FailsTwice) (ho : e.outlets.Harmless) (bytes : Bytes) :
    ∃ console file : Write, e.writesOf bytes (e.settings.writes .info) = [console, file] ∧
      console.failed = true ∧ console.toFile = false ∧ file.failed = true ∧ file.toFile = true ∧
      (e.writeAll bytes (e.settings.writes .info)).2.outlets.appenders = e.outlets.appenders := by
  have hwrites : e.settings.writes .info = [(0, false), (1, true)] := by
    rw [h.settings]
    decide
  have hconsole : e.outlets.appender? 0 = some (.scripted "c" [.failed (.fileLock "app.log")] []) := by
    rw [Outlets.appender?, h.appenders]
    rfl
  obtain ⟨hsame, hreply⟩ := appenders_writeTo_constant ho hconsole bytes false
  obtain ⟨hreturns, hlater⟩ := (e.offers_writeTo bytes false 0).harmless ho
  let between := (e.writeTo bytes false 0).2
  have hfile : between.outlets.appender? 1 = some (.scripted "f" [.failed (.fileLock "app.log")] []) := by
    rw [Outlets.appender?, hsame, h.appenders]
    rfl
  obtain ⟨hsame', hreply'⟩ := appenders_writeTo_constant hlater hfile bytes true
  obtain ⟨hreturns', -⟩ := (between.offers_writeTo bytes true 1).harmless hlater
  refine ⟨e.writeOf bytes false 0, between.writeOf bytes true 1, ?_, ?_, rfl, ?_, rfl, ?_⟩
  · rw [hwrites, writesOf_cons_of_returns bytes hreturns, writesOf_cons_of_returns bytes hreturns', writesOf]
  · rw [Write.failed_eq_isSome, hreply]
    rfl
  · rw [Write.failed_eq_isSome, hreply']
    rfl
  · rw [hwrites, writeAll, andThen_of_returns hreturns, writeAll, andThen_of_returns hreturns', writeAll]
    exact hsame'.trans hsame

end Engine

namespace Books

/-- Puts out a line of the lowest severity. -/
def infoLine (buffer : Buffer) : Deed := .command (.operation (.output .info buffer))

/-- Each line brings two failures, so the file never finds the counter at an even number. -/
theorem ledger_failsTwice {b : Books} {writes : List Write} (hfails : b.session.engine.FailsTwice)
    (hagrees : b.Agrees writes) (heven : failedWrites writes % 2 = 0) (buffers : List Buffer) :
    let ledger := b.ledger writes (buffers.map infoLine)
    failedFileWrites ledger = failedFileWrites writes + buffers.length ∧
      warningsOf ledger = warningsOf writes := by
  induction buffers generalizing b writes with
  | nil => exact ⟨rfl, rfl⟩
  | cons buffer rest ih =>
    obtain ⟨console, file, hwrites, hconsole, hconsoleSlot, hfile, hfileSlot, happenders⟩ :=
      hfails.writes hagrees.harmless buffer.bytes
    have hentered : b.entered writes (infoLine buffer) = writes ++ [console, file] := by
      rw [← hwrites]
      exact congrArg (writes ++ ·) (List.flatMap_singleton ..)
    have hafter := agrees_step hagrees (infoLine buffer)
    have hreturns : (b.step (infoLine buffer)).1 = .ok () :=
      (congrArg Prod.fst (b.session.engine.output_of_ne_fatal .info buffer nofun)).trans
        (b.session.engine.written_of_harmless .info buffer hagrees.harmless)
    have hengine : (b.step (infoLine buffer)).2.session.engine = (b.session.engine.written .info buffer).2 :=
      congrArg Prod.snd (b.session.engine.output_of_ne_fatal .info buffer nofun)
    have hfailsAfter : (b.step (infoLine buffer)).2.session.engine.FailsTwice := by
      obtain ⟨outcome, outlets, stats, hframe⟩ := b.session.engine.written_frame .info buffer
      have hsettings : (b.session.engine.written .info buffer).2.settings = b.session.engine.settings := by
        rw [hframe]
      rw [hengine]
      exact ⟨hsettings.trans hfails.settings, happenders.trans hfails.appenders⟩
    rw [hentered] at hafter
    -- the console finds an even number of failures, and the file an odd one
    obtain ⟨-, ⟨-, hconsoleReport⟩, ⟨-, hfileReport⟩, -⟩ :=
      (reported_append 0 writes [console, file]).mp hafter.reported
    have hconsoleSilent : console.warnings = [] := by
      rw [hconsoleReport]
      exact Write.report_console hconsoleSlot _
    have hfileSilent : file.warnings = [] := by
      rw [hfileReport, if_pos hconsole]
      refine Write.report_of_not_due ?_ file
      rw [isDue_iff]
      omega
    have hcount : failedWrites (writes ++ [console, file]) = failedWrites writes + 2 := by
      rw [failedWrites_append, failedWrites_cons, failedWrites_cons, if_pos hconsole, if_pos hfile]
      rfl
    obtain ⟨hfiles, hwarnings⟩ := ih hfailsAfter hafter (by omega)
    rw [List.map_cons, ledger_cons_of_returns hreturns, hentered]
    refine ⟨hfiles.trans ?_, hwarnings.trans ?_⟩
    · simp [failedFileWrites, hconsoleSlot, hfile, hfileSlot]
      omega
    · simp [warningsOf, hconsoleSilent, hfileSilent]

/-- Beside a console that fails too, a file that fails at every line is not reported at all, however many
lines there are. -/
theorem silent_failingPair (buffers : List Buffer) :
    let ledger := ({ session := { engine := Engine.failingPair } } : Books).ledger []
      (buffers.map infoLine)
    failedFileWrites ledger = buffers.length ∧ warningsOf ledger = [] := by
  have hfails : Engine.failingPair.FailsTwice := ⟨rfl, rfl⟩
  have hagrees : ({ session := { engine := Engine.failingPair } } : Books).Agrees [] :=
    ⟨by decide, rfl, trivial⟩
  obtain ⟨hfiles, hwarnings⟩ := ledger_failsTwice hfails hagrees rfl buffers
  exact ⟨hfiles.trans (Nat.zero_add _), hwarnings⟩

/-- One line to a console that fails and to a file that fails: the file stays silent. -/
theorem not_neverSilent_failingPair :
    ¬ NeverSilent (({ session := { engine := Engine.failingPair } } : Books).ledger []
      [infoLine ⟨0, [0x78, 0x0A]⟩]) := by
  decide +kernel

end Books

end Logline
