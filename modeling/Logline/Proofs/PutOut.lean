import Mathlib
import Logline.Proofs.ContextPairs
import Logline.Proofs.PooledCalls
import Logline.Proofs.Routing

/-!
# What calls put out

A log call puts out a line or none: none if it is gated, if an argument panics, or if a panic gets out of
the guard of a hook, and one in all other cases, also if nobody is to get it and if it is left by a panic
afterwards. `LogCall.lines` says which line that is. It goes to the destinations of its severity, and the
statistics count it together with the writes that fail (`Engine.PutsOut`). Only a line whose writing is
interrupted, by an answer that is not harmless, is not counted (`Engine.completed`).

Main statements: `LogCall.comesTo_run`, what calls of every kind come to; `LogCall.putsOut_run`, what follows
for destinations and statistics; and `Session.perform_spec`, the same for commands, which are calls and
changes of settings.
-/

namespace Logline

/-! ### Lines -/

/-- A line that is put out, with its severity. -/
structure Line where
  severity : Severity
  bytes : Bytes
  deriving DecidableEq, Repr

/-- The lines of a severity. -/
def Line.ofSeverity (severity : Severity) (lines : List Line) : List Line :=
  lines.filter (·.severity = severity)

/-- How many octets lines have. -/
def Line.octets (lines : List Line) : Nat := (lines.map (·.bytes.length)).sum

theorem Line.ofSeverity_append (severity : Severity) (first rest : List Line) :
    Line.ofSeverity severity (first ++ rest) = Line.ofSeverity severity first ++ Line.ofSeverity severity rest :=
  List.filter_append _ _

theorem Line.octets_append (first rest : List Line) :
    octets (first ++ rest) = octets first + octets rest := by
  rw [octets, List.map_append, List.sum_append, octets, octets]

/-- Whether an event is a write that failed. -/
def Event.isFailure : Event → Bool
  | .appended _ _ reply => reply ≠ .done
  | .flushed _ _ => false
  | .emitted _ _ => false

/-- Whether an event is a write. -/
def Event.isWrite : Event → Bool
  | .appended _ _ _ => true
  | .flushed _ _ => false
  | .emitted _ _ => false

/-- Whether an event is a failed write that is counted: its failure could be put into words. -/
def Event.isCounted : Event → Bool
  | .appended _ _ reply => match Engine.failureText reply with
    | some (.ok _) => true
    | _ => false
  | .flushed _ _ => false
  | .emitted _ _ => false

theorem Event.isCounted_of_harmless {target : Handle} {bytes : Bytes} {reply : Reply} (h : reply.Harmless) :
    (Event.appended target bytes reply).isCounted = (Event.appended target bytes reply).isFailure := by
  have hwords := reply.harmless_iff.mp h
  cases reply with
  | done => rfl
  | failed error =>
    simp only [isCounted, isFailure]
    split
    · rfl
    · next hnone =>
      cases hsaid : Engine.failureText (.failed error) with
      | none => cases hsaid
      | some said =>
        cases said with
        | ok text => exact (hnone text hsaid).elim
        | error p => exact (hwords p hsaid).elim
  | panicked cause disposal =>
    cases disposal with
    | none => rfl
    | some p => exact (hwords p rfl).elim

/-- The destinations of lines, with what each is to get. -/
def Settings.offers (s : Settings) (lines : List Line) : List (Handle × Bytes) :=
  lines.flatMap fun l => (s.targets l.severity).map (·, l.bytes)

namespace Engine

/-- Whether a line can be written to the destinations of its severity: no answer to it ends the call. -/
def completes (e : Engine) (l : Line) : Bool :=
  (e.writeAll l.bytes (e.settings.writes l.severity)).1 = .ok ()

/-- The lines that can be written to their destinations, each by itself. -/
def completed (e : Engine) (lines : List Line) : List Line := lines.filter e.completes

/-- The statistics have counted lines and the failures that could be put into words, each once, and nothing
else. If answers are harmless, these are all failures. -/
structure Counts (e : Engine) (lines : List Line) (e' : Engine) : Prop where
  lineCount : ∀ severity, e'.stats.lines.get severity =
    e.stats.lines.get severity + .ofNat (Line.ofSeverity severity lines).length
  octetCount : ∀ severity, e'.stats.bytes.get severity =
    e.stats.bytes.get severity + .ofNat (Line.octets (Line.ofSeverity severity lines))
  failures : ∃ added, e'.outlets.events = e.outlets.events ++ added ∧
    e'.stats.writeErrors = e.stats.writeErrors + .ofNat (added.countP Event.isCounted) ∧
    (e.outlets.Harmless → e'.outlets.Harmless ∧ ∀ event ∈ added, event.isCounted = event.isFailure)

/-- The settings stayed, and so did what an engine is made with. -/
structure Keeps (e e' : Engine) : Prop where
  settings : e'.settings = e.settings
  formatter : e'.formatter = e.formatter
  pid : e'.pid = e.pid

/-- Nothing is different that matters to where a line goes and how it is counted. -/
structure Twin (e e₁ : Engine) : Prop extends e.Keeps e₁ where
  outlets : e₁.outlets = e.outlets
  stats : e₁.stats = e.stats

/-- Lines were put out: offered to their destinations and counted, while the settings stayed the same. A line
that cannot be written to its destinations was offered to some of them, from the first on. -/
structure PutsOut (e : Engine) (lines : List Line) (e' : Engine) : Prop extends e.Keeps e' where
  offers : ∃ reached, reached <+: e.settings.offers lines ∧
    (e.completed lines = lines → reached = e.settings.offers lines) ∧
    e'.outlets.offers = e.outlets.offers ++ reached
  counts : e.Counts (e.completed lines) e'

/-- Nothing was written and nothing counted. There may be flushes with reports of their errors, and records
at the sinks of users. -/
structure Unwritten (e : Engine) (errors : List LogError) (e' : Engine) : Prop where
  events : ∃ others, e'.outlets.events = e.outlets.events ++ others ∧
    ∀ event ∈ others, event.isWrite = false
  console : e'.outlets.console = e.outlets.console ++ errors.map flushReport
  stats : e'.stats = e.stats
  harmless : e.outlets.Harmless → e'.outlets.Harmless

namespace Counts

variable {e e₁ e' e'' : Engine} {first rest : List Line}

/-- No line was put out, but destinations may have been asked for something. -/
theorem of_events {added : List Event} (hlines : e'.stats.lines = e.stats.lines)
    (hbytes : e'.stats.bytes = e.stats.bytes) (hevents : e'.outlets.events = e.outlets.events ++ added)
    (herrors : e'.stats.writeErrors = e.stats.writeErrors + .ofNat (added.countP Event.isCounted))
    (hharmless : e.outlets.Harmless →
      e'.outlets.Harmless ∧ ∀ event ∈ added, event.isCounted = event.isFailure) : e.Counts [] e' where
  lineCount severity := by rw [hlines]; exact (UInt64.add_zero _).symm
  octetCount severity := by rw [hbytes]; exact (UInt64.add_zero _).symm
  failures := ⟨added, hevents, herrors, hharmless⟩

theorem of_same (hstats : e'.stats = e.stats) (houtlets : e'.outlets = e.outlets) : e.Counts [] e' :=
  of_events (by rw [hstats]) (by rw [hstats]) ((congrArg Outlets.events houtlets).trans (List.append_nil _).symm)
    (by rw [hstats]; exact (UInt64.add_zero _).symm)
    fun h => ⟨houtlets ▸ h, List.forall_mem_nil _⟩

theorem refl (e : Engine) : e.Counts [] e := of_same rfl rfl

theorem trans (h : e.Counts first e') (h' : e'.Counts rest e'') : e.Counts (first ++ rest) e'' where
  lineCount severity := by
    rw [h'.lineCount, h.lineCount, Line.ofSeverity_append, List.length_append, UInt64.ofNat_add, UInt64.add_assoc]
  octetCount severity := by
    rw [h'.octetCount, h.octetCount, Line.ofSeverity_append, Line.octets_append, UInt64.ofNat_add, UInt64.add_assoc]
  failures := by
    obtain ⟨added, hevents, herrors, hharmless⟩ := h.failures
    obtain ⟨added', hevents', herrors', hharmless'⟩ := h'.failures
    refine ⟨added ++ added', by rw [hevents', hevents, List.append_assoc], ?_, fun ho => ?_⟩
    · rw [herrors', herrors, List.countP_append, UInt64.ofNat_add, UInt64.add_assoc]
    · obtain ⟨hlater, hadded⟩ := hharmless ho
      obtain ⟨hend, hadded'⟩ := hharmless' hlater
      exact ⟨hend, List.forall_mem_append.mpr ⟨hadded, hadded'⟩⟩

/-- What is counted depends on the statistics and the destinations at the start, and on nothing else. -/
theorem congr (h : e₁.Counts first e') (hstats : e₁.stats = e.stats)
    (houtlets : e₁.outlets = e.outlets) : e.Counts first e' :=
  (of_same hstats houtlets).trans h

theorem harmless (h : e.Counts first e') (ho : e.outlets.Harmless) : e'.outlets.Harmless := by
  obtain ⟨added, -, -, hharmless⟩ := h.failures
  exact (hharmless ho).1

end Counts

namespace Keeps

variable {e e' e'' : Engine}

theorem refl (e : Engine) : e.Keeps e := ⟨rfl, rfl, rfl⟩

theorem trans (h : e.Keeps e') (h' : e'.Keeps e'') : e.Keeps e'' where
  settings := h'.settings.trans h.settings
  formatter := h'.formatter.trans h.formatter
  pid := h'.pid.trans h.pid

end Keeps

namespace Unwritten

variable {e e' e'' : Engine} {first rest : List LogError}

theorem of_same (houtlets : e'.outlets = e.outlets) (hstats : e'.stats = e.stats) : e.Unwritten [] e' where
  events := ⟨[], by rw [houtlets, List.append_nil], List.forall_mem_nil _⟩
  console := by rw [houtlets, List.map_nil, List.append_nil]
  stats := hstats
  harmless h := houtlets ▸ h

theorem trans (h : e.Unwritten first e') (h' : e'.Unwritten rest e'') : e.Unwritten (first ++ rest) e'' where
  events := by
    obtain ⟨others, hevents, hothers⟩ := h.events
    obtain ⟨others', hevents', hothers'⟩ := h'.events
    refine ⟨others ++ others', by rw [hevents', hevents, List.append_assoc], ?_⟩
    exact List.forall_mem_append.mpr ⟨hothers, hothers'⟩
  console := by rw [h'.console, h.console, List.map_append, List.append_assoc]
  stats := h'.stats.trans h.stats
  harmless ho := h'.harmless (h.harmless ho)

theorem counts (h : e.Unwritten first e') : e.Counts [] e' := by
  obtain ⟨others, hevents, hothers⟩ := h.events
  have hidle : ∀ event ∈ others, event.isCounted = false ∧ event.isFailure = false := by
    intro event hmem
    have hevent := hothers event hmem
    cases event with
    | appended target bytes reply => cases hevent
    | flushed target reply => exact ⟨rfl, rfl⟩
    | emitted name text => exact ⟨rfl, rfl⟩
  have hcount : others.countP Event.isCounted = 0 :=
    List.countP_eq_zero.mpr fun event hmem => Bool.eq_false_iff.mp (hidle event hmem).1
  refine .of_events (by rw [h.stats]) (by rw [h.stats]) hevents ?_ fun ho =>
    ⟨h.harmless ho, fun event hmem => (hidle event hmem).1.trans (hidle event hmem).2.symm⟩
  rw [h.stats, hcount]
  exact (UInt64.add_zero _).symm

theorem offers (h : e.Unwritten first e') : e'.outlets.offers = e.outlets.offers := by
  obtain ⟨others, hevents, hothers⟩ := h.events
  simp only [Outlets.offers, Outlets.attempts, hevents, List.filterMap_append, List.filterMap_filterMap]
  refine List.append_right_eq_self.mpr (List.filterMap_eq_nil_iff.mpr fun event hmem => ?_)
  have hevent := hothers event hmem
  cases event with
  | appended target bytes reply => cases hevent
  | flushed target reply => rfl
  | emitted name text => rfl

/-- Without a line there is nothing to offer and nothing to count. -/
theorem putsOut (h : e.Unwritten first e') (hkeeps : e.Keeps e') : e.PutsOut [] e' where
  toKeeps := hkeeps
  offers := ⟨[], List.prefix_refl _, fun _ => rfl, h.offers.trans (List.append_nil _).symm⟩
  counts := h.counts

end Unwritten

/-! ### What can be written -/

/-- Writing depends on the destinations and the statistics, and on nothing else of an engine. -/
theorem writeTo_congr {e e₁ : Engine} (houtlets : e₁.outlets = e.outlets) (hstats : e₁.stats = e.stats)
    (bytes : Bytes) (report : Bool) (h : Handle) :
    (e₁.writeTo bytes report h).1 = (e.writeTo bytes report h).1 ∧
      (e₁.writeTo bytes report h).2.outlets = (e.writeTo bytes report h).2.outlets ∧
      (e₁.writeTo bytes report h).2.stats = (e.writeTo bytes report h).2.stats := by
  simp only [writeTo, houtlets, hstats]
  split
  · exact ⟨rfl, rfl, rfl⟩
  · exact ⟨rfl, rfl, rfl⟩
  · split <;> exact ⟨rfl, rfl, rfl⟩

theorem writeAll_congr {e e₁ : Engine} (houtlets : e₁.outlets = e.outlets) (hstats : e₁.stats = e.stats)
    (bytes : Bytes) (writes : List (Handle × Bool)) :
    (e₁.writeAll bytes writes).1 = (e.writeAll bytes writes).1 := by
  induction writes generalizing e e₁ with
  | nil => rfl
  | cons w rest ih =>
    obtain ⟨houtcome, houtlets', hstats'⟩ := writeTo_congr houtlets hstats bytes w.2 w.1
    rw [writeAll, writeAll]
    generalize e₁.writeTo bytes w.2 w.1 = first₁ at *
    generalize e.writeTo bytes w.2 w.1 = first at *
    obtain ⟨outcome, after⟩ := first
    obtain ⟨outcome₁, after₁⟩ := first₁
    obtain rfl : outcome₁ = outcome := houtcome
    cases outcome₁ with
    | error i => rfl
    | ok => exact ih houtlets' hstats'

theorem completed_congr {e e₁ : Engine} (hsettings : e₁.settings = e.settings)
    (houtlets : e₁.outlets = e.outlets) (hstats : e₁.stats = e.stats) :
    e₁.completed = e.completed := by
  have hcompletes : e₁.completes = e.completes := by
    funext l
    rw [completes, completes, hsettings, writeAll_congr houtlets hstats]
  funext lines
  rw [completed, hcompletes, completed]

theorem completed_of_harmless {e : Engine} (h : e.outlets.Harmless) (lines : List Line) :
    e.completed lines = lines :=
  List.filter_eq_self.mpr fun l _ => decide_eq_true
    ((e.offers_writeAll l.bytes (e.settings.writes l.severity)).harmless h).1

namespace PutsOut

variable {e e₁ e' : Engine} {lines : List Line}

theorem of_same (hkeeps : e.Keeps e') (houtlets : e'.outlets = e.outlets) (hstats : e'.stats = e.stats) :
    e.PutsOut [] e' := (Unwritten.of_same houtlets hstats).putsOut hkeeps

theorem refl (e : Engine) : e.PutsOut [] e := of_same (.refl e) rfl rfl

theorem congr (h : e₁.PutsOut lines e') (hkeeps : e.Keeps e₁) (houtlets : e₁.outlets = e.outlets)
    (hstats : e₁.stats = e.stats) : e.PutsOut lines e' where
  toKeeps := hkeeps.trans h.toKeeps
  offers := by
    rw [← houtlets, ← hkeeps.settings, ← completed_congr hkeeps.settings houtlets hstats]
    exact h.offers
  counts := by
    rw [← completed_congr hkeeps.settings houtlets hstats]
    exact h.counts.congr hstats houtlets

end PutsOut

end Engine

/-! ### One line -/

namespace Outlets

variable (o : Outlets) (h : Handle) (bytes : Bytes)

theorem events_append :
    (o.append h bytes).2.events = o.events ++ [.appended h bytes (o.append h bytes).1] := by
  rw [← events_accept o h bytes]
  rfl

theorem events_flush : (o.flush h).2.events = o.events ++ [.flushed h (o.flush h).1] := by
  rw [← events_settle o h]
  rfl

theorem console_flush : (o.flush h).2.console = o.console := by
  have hsettle : (o.settle h).2.console = o.console := by
    unfold settle
    split <;> rfl
  exact hsettle

end Outlets

namespace Engine

variable (e : Engine)

/-- A write is counted if and only if it fails and the failure can be put into words; that it is reported
makes no difference. -/
theorem counts_writeTo (bytes : Bytes) (report : Bool) (h : Handle) :
    e.Counts [] (e.writeTo bytes report h).2 := by
  have hevents := e.outlets.events_append h bytes
  have hharmless : ∀ e' : Engine, (e.outlets.Harmless → e'.outlets.Harmless) → e.outlets.Harmless →
      e'.outlets.Harmless ∧
        ∀ event ∈ [Event.appended h bytes (e.outlets.append h bytes).1],
          event.isCounted = event.isFailure := fun e' he' ho =>
    ⟨he' ho, List.forall_mem_singleton.mpr (Event.isCounted_of_harmless (ho.append h bytes).1)⟩
  have hafter := (e.offers_writeTo bytes report h).harmless
  rcases e.writeTo_cases bytes report h with ⟨hnone, heq⟩ | ⟨p, hp, heq⟩ | ⟨failure, hfailure, heq⟩
  · have hcount : [Event.appended h bytes (e.outlets.append h bytes).1].countP Event.isCounted = 0 := by
      simp [Event.isCounted, hnone]
    rw [heq] at hafter ⊢
    exact .of_events rfl rfl hevents (by rw [hcount]; exact (UInt64.add_zero _).symm)
      (hharmless _ fun ho => (hafter ho).2)
  · have hcount : [Event.appended h bytes (e.outlets.append h bytes).1].countP Event.isCounted = 0 := by
      simp [Event.isCounted, hp]
    rw [heq] at hafter ⊢
    exact .of_events rfl rfl hevents (by rw [hcount]; exact (UInt64.add_zero _).symm)
      (hharmless _ fun ho => (hafter ho).2)
  · have hcount : [Event.appended h bytes (e.outlets.append h bytes).1].countP Event.isCounted = 1 := by
      simp [Event.isCounted, hfailure]
    rw [heq] at hafter ⊢
    by_cases hreports : (report && e.stats.writeErrors % Stats.reportInterval == 0) = true
    · obtain ⟨console, reports, hframe⟩ := Outlets.report_frame (e.outlets.append h bytes).2
        (writeReport ((e.outlets.append h bytes).2.name h) failure (e.stats.writeErrors + 1))
      rw [if_pos hreports] at hafter ⊢
      refine .of_events rfl rfl ?_ (by rw [hcount]; rfl) (hharmless _ fun ho => (hafter ho).2)
      simp only [Engine.report, hframe]
      exact hevents
    · rw [if_neg hreports] at hafter ⊢
      exact .of_events rfl rfl hevents (by rw [hcount]; rfl) (hharmless _ fun ho => (hafter ho).2)

theorem counts_writeAll (bytes : Bytes) (writes : List (Handle × Bool)) :
    e.Counts [] (e.writeAll bytes writes).2 := by
  induction writes generalizing e with
  | nil => exact .refl e
  | cons w rest ih =>
    have hfirst := e.counts_writeTo bytes w.2 w.1
    rw [writeAll]
    generalize e.writeTo bytes w.2 w.1 = result at *
    obtain ⟨outcome, after⟩ := result
    cases outcome with
    | error i => exact hfirst
    | ok => exact hfirst.trans (ih after)

/-- A line is counted if and only if it is written to all its destinations. -/
theorem counts_written (severity : Severity) (buffer : Buffer) :
    e.Counts (e.completed [⟨severity, buffer.bytes⟩]) (e.written severity buffer).2 := by
  have hline : ∀ other, Line.ofSeverity other [⟨severity, buffer.bytes⟩] =
      if severity = other then [⟨severity, buffer.bytes⟩] else [] := fun other => by
    by_cases h : severity = other <;> simp [Line.ofSeverity, h]
  have hwrites := e.counts_writeAll buffer.bytes (e.settings.writes severity)
  suffices hcounted : (e.writeAll buffer.bytes (e.settings.writes severity)).2.Counts
      (e.completed [⟨severity, buffer.bytes⟩]) (e.written severity buffer).2 by
    exact hwrites.trans hcounted
  have hcompletes : e.completes ⟨severity, buffer.bytes⟩ = decide
      ((e.writeAll buffer.bytes (e.settings.writes severity)).1 = .ok ()) := rfl
  rw [written]
  rcases hresult : e.writeAll buffer.bytes (e.settings.writes severity) with ⟨i | ⟨⟩, after⟩
  · have hcompleted : e.completed [⟨severity, buffer.bytes⟩] = [] :=
      List.filter_cons_of_neg (by simp [hcompletes, hresult])
    rw [hcompleted]
    exact .of_same rfl rfl
  · have hcompleted : e.completed [⟨severity, buffer.bytes⟩] = [⟨severity, buffer.bytes⟩] :=
      List.filter_cons_of_pos (by simp [hcompletes, hresult])
    rw [hcompleted]
    dsimp only [Stats.recordLine]
    refine ⟨fun other => ?_, fun other => ?_, [], (List.append_nil _).symm, (UInt64.add_zero _).symm,
      fun ho => ⟨ho, List.forall_mem_nil _⟩⟩
    · rw [PerSeverity.get_modify, hline]
      split
      · rfl
      · exact (UInt64.add_zero _).symm
    · rw [PerSeverity.get_modify, hline]
      split
      · simp [Line.octets]
      · exact (UInt64.add_zero _).symm

theorem unwritten_flushAll (result : Except LogError Unit) (handles : List Handle) :
    e.Unwritten [] (e.flushAll result handles).2 := by
  induction handles generalizing e result with
  | nil => exact .of_same rfl rfl
  | cons h rest ih =>
    have hflush : e.Unwritten [] { e with outlets := (e.outlets.flush h).2 } := by
      refine ⟨⟨_, e.outlets.events_flush h, List.forall_mem_singleton.mpr rfl⟩, ?_, rfl, fun ho => ho.flush h⟩
      rw [List.map_nil, List.append_nil]
      exact e.outlets.console_flush h
    rw [flushAll_cons]
    split
    · exact hflush.trans (ih _ _)
    · exact hflush

theorem unwritten_runExitHook (hook : ExitHook) : e.Unwritten [] (e.runExitHook hook).2 := by
  match hook with
  | .endsProcess => exact .of_same rfl rfl
  | .custom none => exact .of_same rfl rfl
  | .custom (some _) => exact .of_same rfl rfl

/-- The error is reported, unless the console cannot be written to. -/
theorem unwritten_reportFlush (error : LogError) :
    ∃ error? : Option LogError, e.Unwritten error?.toList (e.reportFlush error).2 := by
  have hlater : e.outlets.Harmless → ∀ step ∈ (Script.next none e.outlets.reports).2, step = none :=
    fun ho step hstep => ho.reports step (e.outlets.reports.next_subset none hstep)
  rw [reportFlush, report, Outlets.report]
  dsimp only
  cases (Script.next none e.outlets.reports).1 with
  | some p =>
    exact ⟨none, ⟨[], (List.append_nil _).symm, List.forall_mem_nil _⟩, (List.append_nil _).symm, rfl,
      fun ho => ⟨ho.answers, hlater ho⟩⟩
  | none =>
    have hprinted : e.Unwritten [error] { e with outlets :=
        { e.outlets with reports := (Script.next none e.outlets.reports).2 }.print (flushReport error) } :=
      ⟨⟨[], (List.append_nil _).symm, List.forall_mem_nil _⟩, rfl, rfl, fun ho => ⟨ho.answers, hlater ho⟩⟩
    refine ⟨some error, ?_⟩
    cases error.ending with
    | panics p => exact hprinted
    | fails => exact hprinted
    | returns => exact hprinted

/-- After a fatal line at most one error of flushing is reported. -/
theorem unwritten_finishFatal (hook : ExitHook) :
    ∃ error? : Option LogError, e.Unwritten error?.toList (e.finishFatal hook).2 := by
  have hflush : e.Unwritten [] e.flush.2 := e.unwritten_flushAll (.ok ()) e.settings.handles
  rw [finishFatal]
  split
  · next heq =>
    rw [heq] at hflush
    exact ⟨none, hflush⟩
  · next heq =>
    rw [heq] at hflush
    exact ⟨none, hflush.trans (unwritten_runExitHook _ hook)⟩
  · next error flushed heq =>
    rw [heq] at hflush
    obtain ⟨error?, hreport⟩ := flushed.unwritten_reportFlush error
    refine ⟨error?, ?_⟩
    rcases hresult : flushed.reportFlush error with ⟨i | ⟨⟩, reported⟩
    · rw [hresult] at hreport
      exact hflush.trans hreport
    · rw [hresult] at hreport
      have hhook := reported.unwritten_runExitHook hook
      rw [andThen_ok, ← List.append_nil error?.toList]
      exact hflush.trans (hreport.trans hhook)

/-- A line is put out once, whatever follows it. -/
theorem putsOut_output (severity : Severity) (buffer : Buffer) :
    e.PutsOut [⟨severity, buffer.bytes⟩] (e.output severity buffer).2 := by
  obtain ⟨hsettings, ⟨reached, hprefix, hall, hoffers, -⟩, -⟩ := e.output_spec severity buffer
  obtain ⟨outcome, outlets, stats, exits, hframe⟩ := e.output_frame severity buffer
  have htargets : e.settings.offers [⟨severity, buffer.bytes⟩] =
      (e.settings.targets severity).map (·, buffer.bytes) := List.append_nil _
  refine ⟨⟨hsettings, by rw [hframe], by rw [hframe]⟩, ⟨_, ?_, fun hcompleted => ?_, hoffers⟩, ?_⟩
  · rw [htargets]
    exact hprefix.map _
  · have hcompletes : e.completes ⟨severity, buffer.bytes⟩ = true :=
      List.filter_eq_self.mp hcompleted _ List.mem_cons_self
    rw [htargets, hall (of_decide_eq_true hcompletes)]
  · have hcounts := e.counts_written severity buffer
    rw [output]
    generalize e.written severity buffer = result at *
    obtain ⟨outcome, after⟩ := result
    cases outcome with
    | error i => exact hcounts
    | ok =>
      rw [andThen_ok]
      split
      · obtain ⟨error?, hfinish⟩ := after.unwritten_finishFatal e.settings.exitHook
        have hboth := hcounts.trans hfinish.counts
        rwa [List.append_nil] at hboth
      · exact hcounts

end Engine

/-! ### The lines of calls -/

namespace Engine

/-- The line of a message with pairs, if nothing gets out of the guard of a hook. -/
def structuredLines (e : Engine) (site : CallSite) (severity : Severity) (message : String)
    (lists : List (List Value)) : List Line :=
  match (e.formatter.guardHooks (e.structured site severity message lists)).value with
  | .ok bytes => [⟨severity, finishLine bytes⟩]
  | .error _ => []

/-- The line of a plain message, if it can be written. -/
def printedLines (e : Engine) (site : CallSite) (severity : Severity) (m : Message) : List Line :=
  match (m.write (e.acquire.1.bytes ++ e.headerOf severity site)).value with
  | (bytes, .ok ()) => [⟨severity, finishLine bytes⟩]
  | (_, .error _) => []

/-- The line of a delivery. What reaches other roots than the engine is no line. -/
def deliveredLines (e : Engine) : Delivery → List Line
  | .logged record values callDepth =>
    e.structuredLines (record.site.attributed callDepth e.stack) record.severity record.message
      [values, record.kvs]
  | _ => []

/-- The lines of a record that is given to a sink. -/
def emittedLines (e : Engine) (s : Sink) (record : LogRecord) : List Line :=
  (s.emit record).flatMap e.deliveredLines

end Engine

/-- The lines that a call puts out. -/
def LogCall.lines (e : Engine) : LogCall → List Line
  | .outputRaw severity bytes => [⟨severity, e.acquire.1.bytes ++ bytes⟩]
  | .print site severity m => e.printedLines site severity m
  | .printStructured site severity message lists => e.structuredLines site severity message lists
  | .printS site severity error message kvs =>
    e.structuredLines site severity message (Engine.errorLists error kvs)
  | .errorS site (.ok error) message kvs =>
    e.structuredLines site .error message (Engine.errorLists (some error) kvs)
  | .errorS _ (.error _) _ _ => []
  | .verbosePrint level site m => if e.verbosityEnabled level then e.printedLines site .info m else []
  | .verbosePrintS level site message kvs =>
    if e.verbosityEnabled level then e.structuredLines site .info message [kvs] else []
  | .emit s record => e.emittedLines s record
  | .logger l c site =>
    if l.enabled e c.severity then
      match c.request.value with
      | .ok (message, kvs) => e.emittedLines l.sink ⟨site, c.severity, message, l.named kvs⟩
      | .error _ => []
    else []

/-! ### What a call comes to -/

namespace Engine

/-- What a call comes to: one line is output by an engine that may be further with its buffers and hooks,
or there is no line, and then no destination is asked for anything. -/
inductive ComesTo (e : Engine) : List Line → Engine → Prop
  | line {before : Engine} (twin : e.Twin before) (severity : Severity) (buffer : Buffer) :
      ComesTo e [⟨severity, buffer.bytes⟩] (before.output severity buffer).2
  | nothing {e' : Engine} (keeps : e.Keeps e') (unwritten : e.Unwritten [] e') : ComesTo e [] e'

namespace ComesTo

variable {e e₁ e' : Engine} {lines : List Line}

theorem of_same (hkeeps : e.Keeps e') (houtlets : e'.outlets = e.outlets) (hstats : e'.stats = e.stats) :
    e.ComesTo [] e' := .nothing hkeeps (.of_same houtlets hstats)

theorem refl (e : Engine) : e.ComesTo [] e := of_same (.refl e) rfl rfl

theorem congr (h : e₁.ComesTo lines e') (htwin : e.Twin e₁) : e.ComesTo lines e' := by
  cases h with
  | line twin severity buffer =>
    exact .line ⟨htwin.toKeeps.trans twin.toKeeps, twin.outlets.trans htwin.outlets,
      twin.stats.trans htwin.stats⟩ severity buffer
  | nothing keeps unwritten =>
    exact .nothing (htwin.toKeeps.trans keeps)
      ((Unwritten.of_same htwin.outlets htwin.stats).trans unwritten)

end ComesTo

/-- A line is offered to its destinations and counted; without a line there is nothing to count. -/
theorem ComesTo.putsOut {e e' : Engine} {lines : List Line} (h : e.ComesTo lines e') :
    e.PutsOut lines e' := by
  cases h with
  | @line before twin severity buffer =>
    exact (before.putsOut_output severity buffer).congr twin.toKeeps twin.outlets twin.stats
  | nothing keeps unwritten => exact unwritten.putsOut keeps

variable (e : Engine)

theorem comesTo_print (site : CallSite) (severity : Severity) (m : Message) :
    e.ComesTo (e.printedLines site severity m) (e.print site severity m).2 := by
  rw [printedLines]
  rcases hwritten : (m.write (e.acquire.1.bytes ++ e.headerOf severity site)).value with ⟨bytes, p | ⟨⟩⟩
  · simp only [print, absorb, headerOf, acquire] at hwritten ⊢
    rw [hwritten]
    exact .of_same ⟨rfl, rfl, rfl⟩ rfl rfl
  · let before : Engine :=
      { e.acquire.2 with
        calls := e.calls ++ (m.write (e.acquire.1.bytes ++ e.headerOf severity site)).calls }
    let buffer : Buffer := { e.acquire.1 with bytes := finishLine bytes }
    have hprint : e.print site severity m = before.output severity buffer := by
      simp only [print, absorb, before, buffer, headerOf, acquire] at hwritten ⊢
      rw [hwritten]
    rw [hprint]
    have htwin : e.Twin before := ⟨⟨rfl, rfl, rfl⟩, rfl, rfl⟩
    exact .line htwin severity buffer

theorem comesTo_printStructured (site : CallSite) (severity : Severity) (message : String)
    (lists : List (List Value)) :
    e.ComesTo (e.structuredLines site severity message lists)
      (e.printStructured site severity message lists).2 := by
  rw [structuredLines]
  rcases e.printStructured_cases site severity message lists with
    ⟨hcontains, heq⟩ | ⟨before, c, p, hleaves, heq⟩
  · let written := e.structured site severity message lists
    let before : Engine := { e.acquire.2 with calls := e.calls ++ written.calls }
    have htwin : e.Twin before := ⟨⟨rfl, rfl, rfl⟩, rfl, rfl⟩
    rw [heq, Formatter.guardHooks_of_contains hcontains]
    exact .line htwin severity { e.acquire.1 with bytes := finishLine written.value }
  · rw [heq, hleaves.guardHooks]
    exact .of_same ⟨rfl, rfl, rfl⟩ rfl rfl

theorem putsOut_printStructured (site : CallSite) (severity : Severity) (message : String)
    (lists : List (List Value)) :
    e.PutsOut (e.structuredLines site severity message lists)
      (e.printStructured site severity message lists).2 :=
  (e.comesTo_printStructured site severity message lists).putsOut

theorem comesTo_deliver (d : Delivery) : e.ComesTo (e.deliveredLines d) (e.deliver d).2 := by
  cases d with
  | logged record values callDepth => exact e.comesTo_printStructured _ _ _ _
  | recorded recorder entry => exact .of_same ⟨rfl, rfl, rfl⟩ rfl rfl
  | emitted name record values =>
    -- there is an event, but a user's own sink is no destination
    exact .nothing ⟨rfl, rfl, rfl⟩
      ⟨⟨_, rfl, List.forall_mem_singleton.mpr rfl⟩, (List.append_nil _).symm, rfl,
        fun ho => ⟨ho.answers, ho.reports⟩⟩
  | helperMarked recorder => exact .of_same ⟨rfl, rfl, rfl⟩ rfl rfl

end Engine

namespace Sink

theorem isRecord_helper? (s : Sink) : ∀ m ∈ s.helper?.getD [], m.isRecord = false := fun m hm =>
  Bool.eq_false_of_not_eq_true (List.filter_eq_nil_iff.mp s.filter_helper?_getD m hm)

/-- Any sink does one thing with a record, behind the marking of helper frames. -/
theorem exists_emit_eq (s : Sink) (record : LogRecord) :
    ∃ (marks : List Delivery) (d : Delivery), (∀ m ∈ marks, m.isRecord = false) ∧
      s.emit record = marks ++ [d] := by
  induction s, record using Sink.emit.induct with
  | case1 record values depth => exact ⟨[], _, List.forall_mem_nil _, emit.eq_1 ..⟩
  | case2 record r => exact ⟨[], _, List.forall_mem_nil _, emit.eq_2 ..⟩
  | case3 record name muted values => exact ⟨[], _, List.forall_mem_nil _, emit.eq_3 ..⟩
  | case4 record inner offset ih =>
    obtain ⟨marks, d, hmarks, heq⟩ := ih
    exact ⟨marks, d, hmarks, by rw [emit, heq]⟩
  | case5 record inner ih =>
    obtain ⟨marks, d, hmarks, heq⟩ := ih
    refine ⟨inner.helper?.getD [] ++ marks, d, ?_, by rw [emit, heq, List.append_assoc]⟩
    exact List.forall_mem_append.mpr ⟨inner.isRecord_helper?, hmarks⟩
  | case6 record inner c keys extended ih =>
    obtain ⟨marks, d, hmarks, heq⟩ := ih
    exact ⟨marks, d, hmarks, by rw [emit]; exact heq⟩
  | case7 record inner c keys extended ih =>
    obtain ⟨marks, d, hmarks, heq⟩ := ih
    exact ⟨marks, d, hmarks, by rw [emit, if_pos rfl]; exact heq⟩
  | case8 record inner c keys extended depth hdepth ih =>
    obtain ⟨marks, d, hmarks, heq⟩ := ih
    exact ⟨marks, d, hmarks, by rw [emit, if_neg hdepth]; exact heq⟩
  | case9 record inner c keys extended ih =>
    obtain ⟨marks, d, hmarks, heq⟩ := ih
    refine ⟨inner.helper?.getD [] ++ marks, d, ?_, ?_⟩
    · exact List.forall_mem_append.mpr ⟨inner.isRecord_helper?, hmarks⟩
    · rw [emit]
      exact (congrArg (inner.helper?.getD [] ++ ·) heq).trans (List.append_assoc ..).symm

end Sink

namespace Engine

variable (e : Engine)

theorem comesTo_emit (s : Sink) (record : LogRecord) :
    e.ComesTo (e.emittedLines s record) (e.emit s record).2 := by
  obtain ⟨marks, d, hmarks, heq⟩ := s.exists_emit_eq record
  have hnone : marks.flatMap e.deliveredLines = [] := by
    refine List.flatMap_eq_nil_iff.mpr fun m hm => ?_
    have hmark := hmarks m hm
    cases m with
    | helperMarked recorder => rfl
    | _ => cases hmark
  obtain ⟨recorders, -, hmarked⟩ := e.deliverAll_marks hmarks [d]
  rw [emit, emittedLines, heq, hmarked, deliverAll_singleton, List.flatMap_append, hnone,
    List.flatMap_singleton, List.nil_append]
  exact (comesTo_deliver { e with recorders := recorders } d).congr ⟨⟨rfl, rfl, rfl⟩, rfl, rfl⟩

end Engine

/-- A call of any kind comes to its lines. -/
theorem LogCall.comesTo_run (c : LogCall) (e : Engine) : e.ComesTo (c.lines e) (c.run e).2 := by
  cases c with
  | outputRaw severity bytes =>
    have htwin : e.Twin e.acquire.2 := ⟨⟨rfl, rfl, rfl⟩, rfl, rfl⟩
    exact .line htwin severity { e.acquire.1 with bytes := e.acquire.1.bytes ++ bytes }
  | print site severity m => exact e.comesTo_print site severity m
  | printStructured site severity message lists => exact e.comesTo_printStructured site severity message lists
  | printS site severity error message kvs => exact e.comesTo_printStructured site severity message _
  | errorS site error message kvs =>
    cases error with
    | error p => exact .of_same ⟨rfl, rfl, rfl⟩ rfl rfl
    | ok v =>
      exact (Engine.comesTo_printStructured (e.absorb (Traced.call .conversion)).2 site .error message _).congr
        ⟨⟨rfl, rfl, rfl⟩, rfl, rfl⟩
  | verbosePrint level site m =>
    rw [run, Engine.verbosePrint, lines]
    split
    · exact e.comesTo_print site .info m
    · exact .refl e
  | verbosePrintS level site message kvs =>
    rw [run, Engine.verbosePrintS, lines]
    split
    · exact e.comesTo_printStructured site .info message [kvs]
    · exact .refl e
  | emit s record => exact e.comesTo_emit s record
  | logger l c site =>
    rw [run, LoggerCall.run_eq, lines]
    split
    · cases c.request.value with
      | ok request =>
        exact (Engine.comesTo_emit (e.absorb c.request).2 l.sink _).congr ⟨⟨rfl, rfl, rfl⟩, rfl, rfl⟩
      | error p => exact .of_same ⟨rfl, rfl, rfl⟩ rfl rfl
    · exact .refl e

/-- A call puts its line out: it is offered to the destinations of its severity, it is counted once
whether they fail or not, and each of their failures is counted, unless an answer ends the call. -/
theorem LogCall.putsOut_run (c : LogCall) (e : Engine) : e.PutsOut (c.lines e) (c.run e).2 :=
  (c.comesTo_run e).putsOut

/-! ### Commands -/

/-- What can be asked of an engine in a session. A log call is made at a time and on a stack. -/
inductive Command where
  | operation (op : Operation)
  | setExitHook (hook : ExitHook)
  | setContextKeys (keys : List ContextKey)
  | call (stamp : Stamp) (stack : CallStack) (c : LogCall)

namespace Session

/-- Carries out a command. -/
def perform (s : Session) : Command → Outcome Unit × Session
  | .operation op => s.step op
  | .setExitHook hook => (.ok (), { s with engine := s.engine.setExitHook hook })
  | .setContextKeys keys => (.ok (), { s with engine := s.engine.setContextKeys keys })
  | .call stamp stack c =>
    let (outcome, e) := c.run { s.engine with stamp, stack }
    (outcome, { s with engine := e })

/-- The lines that a command puts out. -/
def lines (s : Session) : Command → List Line
  | .operation (.output severity buffer) => [⟨severity, buffer.bytes⟩]
  | .call stamp stack c => c.lines { s.engine with stamp, stack }
  | _ => []

variable (s : Session)

/-- A command leaves the destinations and the statistics alone, or it comes to a line. -/
theorem unwritten_or_comesTo (c : Command) :
    (s.lines c = [] ∧ s.engine.Unwritten [] (s.perform c).2.engine) ∨
      s.engine.ComesTo (s.lines c) (s.perform c).2.engine := by
  cases c with
  | operation op =>
    by_cases h : ∀ severity buffer, op ≠ .output severity buffer
    · have hlines : s.lines (.operation op) = [] := by
        cases op with
        | output severity buffer => exact (h severity buffer rfl).elim
        | _ => rfl
      have hstats : (s.step op).2.engine.stats = s.engine.stats := by rw [s.step_frame op h]
      exact .inl ⟨hlines, .of_same (s.outlets_step op h) hstats⟩
    · push Not at h
      obtain ⟨severity, buffer, rfl⟩ := h
      exact .inr (.line ⟨.refl s.engine, rfl, rfl⟩ severity buffer)
  | setExitHook hook => exact .inl ⟨rfl, .of_same rfl rfl⟩
  | setContextKeys keys => exact .inl ⟨rfl, .of_same rfl rfl⟩
  | call stamp stack c =>
    have htwin : s.engine.Twin { s.engine with stamp, stack } := ⟨⟨rfl, rfl, rfl⟩, rfl, rfl⟩
    exact .inr ((c.comesTo_run { s.engine with stamp, stack }).congr htwin)

/-- The lines of a command that can be written to their destinations. -/
def completed (c : Command) : List Line := s.engine.completed (s.lines c)

/-- A command puts its lines out to the destinations of its moment and counts them. -/
theorem perform_spec (c : Command) :
    (∃ reached, reached <+: s.engine.settings.offers (s.lines c) ∧
        (s.completed c = s.lines c → reached = s.engine.settings.offers (s.lines c)) ∧
        (s.perform c).2.engine.outlets.offers = s.engine.outlets.offers ++ reached) ∧
      s.engine.Counts (s.completed c) (s.perform c).2.engine := by
  rcases s.unwritten_or_comesTo c with ⟨hlines, hidle⟩ | hcomes
  · rw [completed, hlines]
    exact ⟨⟨[], List.prefix_refl _, fun _ => rfl, hidle.offers.trans (List.append_nil _).symm⟩, hidle.counts⟩
  · exact ⟨hcomes.putsOut.offers, hcomes.putsOut.counts⟩

end Session

end Logline
