import Mathlib
import Logline.Engine

/-!
# Where one line goes

The settings hold a destination in each of five slots: the console, and a file for each severity. A line
is offered to the destinations of the slots that its severity selects, the console first and then the
files from its severity down (`Engine.offers_written`). A destination that fails or panics is counted, and
the next one is asked. Only where an answer is not *harmless* the call ends with it: its error or what its
panic carries panics in turn when it is shown or thrown away, or the report about it does.

`Outlets.attempts` is what destinations were asked to do, without their answers. `Outlets.kept?` is what a
destination that cannot fail has kept: one in memory, or a writer that takes everything.
-/

namespace Logline

/-! ### Slots -/

/-- A place in the settings for a destination. -/
inductive Slot where
  | console
  | file (severity : Severity)
  deriving DecidableEq, Repr

/-- All slots, in the order in which a line is offered to them. -/
def Slot.all : List Slot := [.console, .file .fatal, .file .error, .file .warning, .file .info]

namespace Settings

/-- The destination in a slot. -/
def holder (s : Settings) : Slot → Option Handle
  | .console => some s.console
  | .file severity => s.files.get severity

/-- The policy: whether a slot is meant for the records of a severity. -/
def Selects (s : Settings) (severity : Severity) : Slot → Prop
  | .console =>
    (s.thresholds.toConsole = true ∧
      (s.thresholds.legacy = true ∨ s.thresholds.consoleThreshold ≤ severity)) ∨
    (s.thresholds.toConsole = false ∧
      (s.thresholds.consoleThreshold ≤ severity ∨
        (s.thresholds.alsoToConsole = true ∧ s.thresholds.alsoThreshold ≤ severity)))
  | .file t => s.thresholds.toConsole = false ∧ t ≤ severity

instance (s : Settings) (severity : Severity) : (slot : Slot) → Decidable (s.Selects severity slot)
  | .console => inferInstanceAs <| Decidable ((_ ∧ (_ ∨ _)) ∨ (_ ∧ (_ ∨ (_ ∧ _))))
  | .file _ => inferInstanceAs <| Decidable (_ ∧ _)

/-- The destinations of a record of a severity: one for each selected slot that is set. -/
def targets (s : Settings) (severity : Severity) : List Handle :=
  (Slot.all.filter fun slot => s.Selects severity slot).filterMap s.holder

end Settings

/-! ### What destinations are asked to do -/

/-- What a destination was asked to do. -/
inductive Attempt where
  | append (target : Handle) (bytes : Bytes)
  | flush (target : Handle)
  deriving DecidableEq, Repr

/-- What an event asked a destination to do. -/
def Event.attempt? : Event → Option Attempt
  | .appended target bytes _ => some (.append target bytes)
  | .flushed target _ => some (.flush target)
  | .emitted _ _ => none

namespace Outlets

/-- What destinations were asked to do, in order. -/
def attempts (o : Outlets) : List Attempt := o.events.filterMap Event.attempt?

variable (o : Outlets) (h : Handle) (bytes : Bytes)

theorem events_accept : (o.accept h bytes).2.events = o.events := by
  unfold accept
  split <;> rfl

theorem events_settle : (o.settle h).2.events = o.events := by
  unfold settle
  split <;> rfl

@[simp] theorem attempts_append : (o.append h bytes).2.attempts = o.attempts ++ [.append h bytes] := by
  simp [append, note, attempts, events_accept, Event.attempt?]

@[simp] theorem attempts_flush : (o.flush h).2.attempts = o.attempts ++ [.flush h] := by
  simp [flush, note, attempts, events_settle, Event.attempt?]

/-- The octets that destinations were offered, in order. -/
def offers : List (Handle × Bytes) :=
  o.attempts.filterMap fun
    | .append target bytes => some (target, bytes)
    | .flush _ => none

end Outlets

namespace Outlets

variable (o : Outlets) (h : Handle) (bytes : Bytes)

@[simp] theorem reports_append : (o.append h bytes).2.reports = o.reports := by
  simp only [append, note, accept]
  split <;> rfl

@[simp] theorem reports_flush : (o.flush h).2.reports = o.reports := by
  simp only [flush, note, settle]
  split <;> rfl

end Outlets

/-! ### What destinations keep -/

/-- Whether a writer gives up at a step. -/
def WriteStep.stops : WriteStep → Bool
  | .atMost 0 => true
  | .fails => true
  | _ => false

namespace Writer

/-- Whether a writer takes all octets that it is ever given. Its last step repeats. -/
def takesAll : Script WriteStep → Bool
  | [] => true
  | [step] => !step.stops && step != .interrupted
  | step :: later => !step.stops && takesAll later

theorem takesAll_cons {step : WriteStep} {later : Script WriteStep} (hlater : later = [] → False) :
    takesAll (step :: later) = (!step.stops && takesAll later) := by
  cases later with
  | nil => exact (hlater rfl).elim
  | cons => rfl

theorem repeatStep_of_takesAll {step : WriteStep} (bytes : Bytes) (h : takesAll [step]) :
    repeatStep step bytes = (.done, bytes) := by
  match step with
  | .all => rfl
  | .atMost (_ + 1) => rfl
  | .atMost 0 => cases h
  | .interrupted => cases h
  | .fails => cases h

theorem writeParts_of_takesAll (steps : Script WriteStep) (bytes : Bytes) (h : takesAll steps) :
    ∃ left, writeParts steps bytes = (.done, bytes, left) ∧ takesAll left := by
  fun_induction writeParts steps bytes with
  | case1 steps => exact ⟨steps, rfl, h⟩
  | case2 bytes => exact ⟨[], rfl, h⟩
  | case3 step bytes hne reply out hrepeat =>
    rw [repeatStep_of_takesAll bytes h] at hrepeat
    cases hrepeat
    exact ⟨[step], rfl, h⟩
  | case4 later bytes hne hlater =>
    rw [takesAll_cons hlater] at h
    exact ⟨later, rfl, h⟩
  | case5 later bytes hne hlater =>
    rw [takesAll_cons hlater] at h
    cases h
  | case6 later bytes hne hlater n reply out left hrest ih =>
    -- a part is taken, and the rest goes by the later steps
    rw [takesAll_cons hlater] at h
    obtain ⟨left', heq, hleft⟩ := ih h
    rw [heq] at hrest
    cases hrest
    exact ⟨left, by rw [List.take_append_drop], hleft⟩
  | case7 later bytes hne hlater ih =>
    rw [takesAll_cons hlater] at h
    exact ih h
  | case8 later bytes hne hlater =>
    rw [takesAll_cons hlater] at h
    cases h

end Writer

/-- What a destination that cannot fail has kept. -/
def Appender.kept? : Appender → Option Bytes
  | .memory m => some m.bytes
  | .writer _ out => if Writer.takesAll out.steps then some out.written else none
  | _ => none

namespace Outlets

/-- What a destination has kept, if it cannot fail. -/
def kept? (o : Outlets) (h : Handle) : Option Bytes := (o.appender? h).bind Appender.kept?

variable {o : Outlets} {h k : Handle} {bytes content : Bytes}

theorem kept?_note (o : Outlets) (e : Event) : (o.note e).kept? k = o.kept? k := rfl

theorem kept?_replace_of_ne (a : Appender) (hne : h ≠ k) : (o.replace h a).kept? k = o.kept? k := by
  rw [kept?, appender?, replace, List.getElem?_set_ne hne]
  rfl

theorem kept?_replace_self {old : Appender} (a : Appender) (hold : o.appender? h = some old) :
    (o.replace h a).kept? h = a.kept? := by
  obtain ⟨hlt, -⟩ := List.getElem?_eq_some_iff.mp hold
  rw [kept?, appender?, replace, List.getElem?_set_self hlt, Option.bind_some]

/-- A destination that cannot fail keeps what it is given, behind what it kept before. -/
theorem kept?_accept_self (hkept : o.kept? h = some content) (bytes : Bytes) :
    (o.accept h bytes).2.kept? h = some (content ++ bytes) := by
  cases hold : o.appender? h with
  | none => simp [kept?, hold] at hkept
  | some a =>
    rw [kept?, hold, Option.bind_some] at hkept
    cases a with
    | memory m =>
      rw [accept, hold, kept?_replace_self _ hold, Appender.kept?, Memory.bytes_append]
      rw [Appender.kept?, Option.some.injEq] at hkept
      rw [hkept]
    | writer name out =>
      rw [Appender.kept?] at hkept
      split at hkept
      · next htakes =>
        obtain ⟨left, hparts, hleft⟩ := Writer.writeParts_of_takesAll out.steps bytes htakes
        rw [accept, hold]
        simp only [Writer.writeAll, hparts]
        rw [kept?_replace_self _ hold, Appender.kept?, if_pos hleft, ← Option.some.inj hkept]
      · cases hkept
    | _ => cases hkept

theorem kept?_accept_of_ne (hne : h ≠ k) : (o.accept h bytes).2.kept? k = o.kept? k := by
  unfold accept
  split
  · rfl
  · exact kept?_replace_of_ne _ hne
  · exact kept?_replace_of_ne _ hne
  · exact kept?_replace_of_ne _ hne
  · rfl
  · exact kept?_replace_of_ne _ hne
  · exact kept?_replace_of_ne _ hne

theorem kept?_append (hkept : o.kept? k = some content) (h : Handle) (bytes : Bytes) :
    (o.append h bytes).2.kept? k = some (content ++ if h = k then bytes else []) := by
  rw [append, kept?_note]
  by_cases heq : h = k
  · subst heq
    rw [if_pos rfl, kept?_accept_self hkept]
  · rw [if_neg heq, List.append_nil, kept?_accept_of_ne heq, hkept]

theorem kept?_replace_of_eq {old a : Appender} (hold : o.appender? h = some old) (ha : a.kept? = old.kept?) :
    (o.replace h a).kept? k = o.kept? k := by
  by_cases heq : h = k
  · subst heq
    rw [kept?_replace_self a hold, kept?, hold, Option.bind_some, ha]
  · exact kept?_replace_of_ne a heq

@[simp] theorem kept?_flush (o : Outlets) (h k : Handle) : (o.flush h).2.kept? k = o.kept? k := by
  rw [flush, kept?_note, settle]
  split
  · rfl
  · next hold => exact kept?_replace_of_eq hold rfl
  · next hold => exact kept?_replace_of_eq hold rfl
  · rfl
  · rfl
  · next path locked pending hold =>
    exact kept?_replace_of_eq (o := { o with files := o.files.extend path pending }) hold rfl

end Outlets

/-! ### Harmless answers -/

/-- Nothing that is done with an answer panics: its error can be shown and thrown away, and so can what its
panic carries. -/
def Reply.Harmless : Reply → Prop
  | .done => True
  | .failed error => error.ending = .returns ∧ error.disposal = none
  | .panicked _ disposal => disposal = none

instance : DecidablePred Reply.Harmless
  | .done => inferInstanceAs (Decidable True)
  | .failed _ => inferInstanceAs (Decidable (_ ∧ _))
  | .panicked _ _ => inferInstanceAs (Decidable (_ = _))

theorem Reply.harmless_iff (reply : Reply) :
    reply.Harmless ↔ ∀ p, Engine.failureText reply ≠ some (.error p) := by
  cases reply with
  | done => exact iff_of_true trivial fun _ => nofun
  | failed error =>
    cases hending : error.ending <;> cases hdisposal : error.disposal <;>
      simp [Harmless, Engine.failureText, LogError.shown, ShowHook.run, Except.bind, hending, hdisposal]
  | panicked cause disposal => cases disposal <;> simp [Harmless, Engine.failureText]

/-- A destination whose answers to appending are harmless. -/
def Appender.Harmless : Appender → Prop
  | .scripted _ appends _ => ∀ reply ∈ appends, reply.Harmless
  | _ => True

instance : DecidablePred Appender.Harmless
  | .scripted _ appends _ => inferInstanceAs (Decidable (∀ reply ∈ appends, reply.Harmless))
  | .memory _ => inferInstanceAs (Decidable True)
  | .writer _ _ => inferInstanceAs (Decidable True)
  | .console _ => inferInstanceAs (Decidable True)
  | .file _ _ _ => inferInstanceAs (Decidable True)

/-- All answers to appending are harmless, and no report panics. -/
structure Outlets.Harmless (o : Outlets) : Prop where
  answers : ∀ a ∈ o.appenders, a.Harmless
  reports : ∀ step ∈ o.reports, step = none

instance : DecidablePred Outlets.Harmless := fun o =>
  decidable_of_iff ((∀ a ∈ o.appenders, a.Harmless) ∧ ∀ step ∈ o.reports, step = none)
    ⟨fun h => ⟨h.1, h.2⟩, fun h => ⟨h.answers, h.reports⟩⟩

namespace Script

variable {α : Type} (default : α) (script : Script α)

theorem next_mem : (next default script).1 = default ∨ (next default script).1 ∈ script := by
  match script with
  | [] => exact .inl rfl
  | [a] => exact .inr List.mem_cons_self
  | a :: b :: rest => exact .inr List.mem_cons_self

theorem next_subset : (next default script).2 ⊆ script := by
  match script with
  | [] => exact List.Subset.refl _
  | [a] => exact List.Subset.refl _
  | a :: b :: rest => exact List.subset_cons_self _ _

end Script

theorem Writer.harmless_writeParts (steps : Script WriteStep) (bytes : Bytes) :
    (writeParts steps bytes).1.Harmless := by
  have hrepeat : ∀ step bytes, (repeatStep step bytes).1.Harmless := by
    intro step bytes
    match step with
    | .all => trivial
    | .atMost 0 => exact ⟨rfl, rfl⟩
    | .atMost (_ + 1) => trivial
    | .interrupted => exact ⟨rfl, rfl⟩
    | .fails => exact ⟨rfl, rfl⟩
  fun_induction writeParts steps bytes with
  | case1 steps => trivial
  | case2 bytes => trivial
  | case3 step bytes hne reply out heq => exact congrArg Prod.fst heq ▸ hrepeat step bytes
  | case4 later bytes hne hlater => trivial
  | case5 later bytes hne hlater => exact ⟨rfl, rfl⟩
  | case6 later bytes hne hlater n reply out left heq ih => rwa [heq] at ih
  | case7 later bytes hne hlater ih => exact ih
  | case8 later bytes hne hlater => exact ⟨rfl, rfl⟩

namespace Outlets

variable {o : Outlets}

theorem Harmless.replace (ho : o.Harmless) (h : Handle) (a : Appender) (ha : a.Harmless) :
    (o.replace h a).Harmless := by
  refine ⟨fun b hb => ?_, ho.reports⟩
  rcases List.mem_or_eq_of_mem_set hb with hold | rfl
  · exact ho.answers b hold
  · exact ha

theorem Harmless.append (ho : o.Harmless) (h : Handle) (bytes : Bytes) :
    (o.append h bytes).1.Harmless ∧ (o.append h bytes).2.Harmless := by
  have haccept : (o.accept h bytes).1.Harmless ∧ (o.accept h bytes).2.Harmless := by
    cases hold : o.appender? h with
    | none =>
      rw [accept, hold]
      exact ⟨trivial, ho⟩
    | some a =>
      cases a with
      | scripted name appends flushes =>
        have hanswers : ∀ reply ∈ appends, reply.Harmless := ho.answers _ (List.mem_of_getElem? hold)
        have hnext : (Script.next .done appends).1.Harmless := by
          rcases Script.next_mem .done appends with hdone | hmem
          · rw [hdone]
            trivial
          · exact hanswers _ hmem
        rw [accept, hold]
        exact ⟨hnext, ho.replace h (.scripted name (Script.next .done appends).2 flushes) fun reply hreply =>
          hanswers reply (Script.next_subset .done appends hreply)⟩
      | memory m =>
        rw [accept, hold]
        exact ⟨trivial, ho.replace h (.memory (m.append bytes)) trivial⟩
      | writer name out =>
        rw [accept, hold]
        exact ⟨Writer.harmless_writeParts out.steps bytes,
          ho.replace h (.writer name (out.writeAll bytes).2) trivial⟩
      | console colours =>
        rw [accept, hold]
        exact ⟨trivial, ho.answers, ho.reports⟩
      | file path locked pending =>
        have hfiles : ∀ files, { o with files := files }.Harmless := fun files => ⟨ho.answers, ho.reports⟩
        rw [accept, hold]
        cases locked with
        | true => exact ⟨trivial, (hfiles _).replace h (.file path true []) trivial⟩
        | false => exact ⟨trivial, (hfiles _).replace h (.file path false _) trivial⟩
  exact ⟨haccept.1, haccept.2.answers, haccept.2.reports⟩

theorem Harmless.flush (ho : o.Harmless) (h : Handle) : (o.flush h).2.Harmless := by
  have hsettle : (o.settle h).2.Harmless := by
    cases hold : o.appender? h with
    | none =>
      rw [settle, hold]
      exact ho
    | some a =>
      cases a with
      | scripted name appends flushes =>
        have hanswers : ∀ reply ∈ appends, reply.Harmless := ho.answers _ (List.mem_of_getElem? hold)
        rw [settle, hold]
        exact ho.replace h (.scripted name appends _) hanswers
      | memory m =>
        rw [settle, hold]
        exact ho.replace h (.memory m.flush) trivial
      | writer name out =>
        rw [settle, hold]
        exact ho
      | console colours =>
        rw [settle, hold]
        exact ho
      | file path locked pending =>
        have hfiles : { o with files := o.files.extend path pending }.Harmless := ⟨ho.answers, ho.reports⟩
        rw [settle, hold]
        exact hfiles.replace h (.file path locked []) trivial
  exact ⟨hsettle.answers, hsettle.reports⟩

theorem Harmless.report (ho : o.Harmless) (bytes : Bytes) :
    (o.report bytes).1 = none ∧ (o.report bytes).2.Harmless := by
  have hlater : ∀ step ∈ (Script.next none o.reports).2, step = none := fun step hstep =>
    ho.reports step (o.reports.next_subset none hstep)
  have hnext : (Script.next none o.reports).1 = none :=
    (Script.next_mem none o.reports).elim id (ho.reports _)
  rw [Outlets.report]
  dsimp only
  rw [hnext]
  exact ⟨rfl, ho.answers, hlater⟩

/-- If answers are harmless, a report is written to the console. -/
theorem Harmless.report_eq (ho : o.Harmless) (bytes : Bytes) :
    ∃ reports, (o.report bytes).2 = { o with console := o.console ++ [bytes], reports := reports } := by
  have hnext : (Script.next none o.reports).1 = none :=
    (Script.next_mem none o.reports).elim id (ho.reports _)
  rw [Outlets.report]
  dsimp only
  rw [hnext]
  exact ⟨_, rfl⟩

/-- A report changes nothing but what was written to the console and what becomes of later reports. -/
theorem report_frame (o : Outlets) (bytes : Bytes) :
    ∃ console reports, (o.report bytes).2 = { o with console := console, reports := reports } := by
  rw [report]
  dsimp only
  cases (Script.next none o.reports).1 with
  | none => exact ⟨_, _, rfl⟩
  | some p => exact ⟨_, _, rfl⟩

end Outlets

/-! ### Writing a line -/

namespace Engine

/-- A line is offered to destinations in turn, up to the first whose answer is not harmless; those that
cannot fail keep it. -/
structure Offers (e : Engine) (targets : List Handle) (bytes : Bytes) (result : Outcome Unit × Engine) :
    Prop where
  reached : ∃ reached, reached <+: targets ∧ (result.1 = .ok () → reached = targets) ∧
    result.2.outlets.attempts = e.outlets.attempts ++ reached.map (Attempt.append · bytes) ∧
    ∀ k content, e.outlets.kept? k = some content →
      result.2.outlets.kept? k = some (content ++ (reached.filter (· = k)).flatMap fun _ => bytes)
  goesOn : ∀ code, result.1 ≠ .error (.exit code)
  harmless : e.outlets.Harmless → result.1 = .ok () ∧ result.2.outlets.Harmless

/-- A step that returns is followed by the next one. -/
theorem andThen_of_returns {step : Outcome Unit × Engine} (h : step.1 = .ok ())
    (next : Engine → Outcome Unit × Engine) : andThen step next = next step.2 := by
  rw [show step = (.ok (), step.2) from Prod.ext h rfl, andThen_ok]

variable (e : Engine) (bytes : Bytes)

theorem report_harmless (h : e.outlets.Harmless) :
    (e.report bytes).1 = .ok () ∧ (e.report bytes).2.outlets.Harmless := by
  obtain ⟨hnone, hlater⟩ := h.report bytes
  exact ⟨congrArg Outcome.ofPanic hnone, hlater⟩

theorem report_goesOn (code : Nat) : (e.report bytes).1 ≠ .error (.exit code) := by
  rw [report]
  dsimp only
  cases (e.outlets.report bytes).1 <;> exact nofun

/-- What a write can come to: it is taken; it fails and is not even counted; or it fails, is counted, and may
be reported. -/
theorem writeTo_cases (report : Bool) (h : Handle) :
    let asked : Engine := { e with outlets := (e.outlets.append h bytes).2 }
    let counted : Engine := { asked with stats := e.stats.recordWriteError }
    (failureText (e.outlets.append h bytes).1 = none ∧ e.writeTo bytes report h = (.ok (), asked)) ∨
      (∃ p, failureText (e.outlets.append h bytes).1 = some (.error p) ∧
        e.writeTo bytes report h = (.error (.panic p), asked)) ∨
      ∃ failure, failureText (e.outlets.append h bytes).1 = some (.ok failure) ∧
        e.writeTo bytes report h =
          if report && e.stats.writeErrors % Stats.reportInterval == 0 then
            counted.report (writeReport (asked.outlets.name h) failure (e.stats.writeErrors + 1))
          else (.ok (), counted) := by
  intro asked counted
  cases hfailure : failureText (e.outlets.append h bytes).1 with
  | none => exact .inl ⟨rfl, by simp only [writeTo, hfailure]; rfl⟩
  | some said =>
    cases said with
    | error p => exact .inr (.inl ⟨p, rfl, by simp only [writeTo, hfailure]; rfl⟩)
    | ok failure => exact .inr (.inr ⟨failure, rfl, by simp only [writeTo, hfailure]; rfl⟩)

theorem writeTo_frame (report : Bool) (h : Handle) :
    ∃ outcome outlets stats, e.writeTo bytes report h =
      (outcome, { e with outlets := outlets, stats := stats }) := by
  rcases e.writeTo_cases bytes report h with ⟨-, heq⟩ | ⟨p, -, heq⟩ | ⟨failure, -, heq⟩
  · exact ⟨_, _, _, heq⟩
  · exact ⟨_, _, _, heq⟩
  · rw [heq]
    split <;> exact ⟨_, _, _, rfl⟩

theorem offers_writeTo (report : Bool) (h : Handle) : e.Offers [h] bytes (e.writeTo bytes report h) := by
  have hattempts := e.outlets.attempts_append h bytes
  have hkept : ∀ k content, e.outlets.kept? k = some content →
      (e.outlets.append h bytes).2.kept? k =
        some (content ++ ([h].filter (· = k)).flatMap fun _ => bytes) := by
    intro k content hkept
    rw [Outlets.kept?_append hkept]
    by_cases heq : h = k <;> simp [heq]
  have hreached : ∀ outcome : Outcome Unit, ∃ reached, reached <+: [h] ∧ (outcome = .ok () → reached = [h]) ∧
      (e.outlets.append h bytes).2.attempts = e.outlets.attempts ++ reached.map (Attempt.append · bytes) ∧
      ∀ k content, e.outlets.kept? k = some content → (e.outlets.append h bytes).2.kept? k =
        some (content ++ (reached.filter (· = k)).flatMap fun _ => bytes) := fun _ =>
    ⟨[h], List.prefix_refl _, fun _ => rfl, hattempts, hkept⟩
  rcases e.writeTo_cases bytes report h with ⟨-, heq⟩ | ⟨p, hp, heq⟩ | ⟨failure, -, heq⟩
  · rw [heq]
    exact ⟨hreached _, fun _ => nofun, fun ho => ⟨rfl, (ho.append h bytes).2⟩⟩
  · rw [heq]
    refine ⟨hreached _, fun _ => nofun, fun ho => ?_⟩
    exact ((Reply.harmless_iff _).mp (ho.append h bytes).1 p hp).elim
  · rw [heq]
    split
    · refine ⟨?_, report_goesOn _ _, fun ho => report_harmless _ _ (ho.append h bytes).2⟩
      obtain ⟨console, reports, hframe⟩ := Outlets.report_frame (e.outlets.append h bytes).2
        (writeReport ((e.outlets.append h bytes).2.name h) failure (e.stats.writeErrors + 1))
      simp only [Engine.report, hframe]
      exact hreached _
    · exact ⟨hreached _, fun _ => nofun, fun ho => ⟨rfl, (ho.append h bytes).2⟩⟩

theorem writeAll_frame (writes : List (Handle × Bool)) :
    ∃ outcome outlets stats, e.writeAll bytes writes =
      (outcome, { e with outlets := outlets, stats := stats }) := by
  induction writes generalizing e with
  | nil => exact ⟨_, _, _, rfl⟩
  | cons w rest ih =>
    obtain ⟨outcome, outlets, stats, heq⟩ := e.writeTo_frame bytes w.2 w.1
    rw [writeAll, heq]
    cases outcome with
    | ok => exact ih { e with outlets := outlets, stats := stats }
    | error i => exact ⟨_, _, _, rfl⟩

theorem offers_writeAll (writes : List (Handle × Bool)) :
    e.Offers (writes.map Prod.fst) bytes (e.writeAll bytes writes) := by
  induction writes generalizing e with
  | nil =>
    refine ⟨⟨[], List.prefix_refl _, fun _ => rfl, (List.append_nil _).symm, fun k content hkept => ?_⟩,
      fun _ => nofun, fun ho => ⟨rfl, ho⟩⟩
    exact hkept.trans (congrArg some (List.append_nil _).symm)
  | cons w rest ih =>
    obtain ⟨⟨first, hprefix, hfirst, hattempts, hkept⟩, hgoesOn, hharmless⟩ :=
      e.offers_writeTo bytes w.2 w.1
    rw [writeAll]
    generalize e.writeTo bytes w.2 w.1 = result at *
    obtain ⟨outcome, e'⟩ := result
    cases outcome with
    | error i =>
      exact ⟨⟨first, hprefix.trans (List.prefix_append [w.1] _), nofun, hattempts, hkept⟩, hgoesOn,
        fun ho => absurd (hharmless ho).1 nofun⟩
    | ok =>
      obtain rfl : first = [w.1] := hfirst rfl
      obtain ⟨⟨later, hprefix', hlater, hattempts', hkept'⟩, hgoesOn', hharmless'⟩ := ih e'
      refine ⟨⟨w.1 :: later, (List.prefix_cons_inj w.1).mpr hprefix', fun h => ?_, ?_, fun k content h => ?_⟩,
        hgoesOn', fun ho => hharmless' (hharmless ho).2⟩
      · exact congrArg (w.1 :: ·) (hlater h)
      · exact hattempts'.trans (by rw [hattempts, List.append_assoc]; rfl)
      · refine (hkept' k _ (hkept k content h)).trans ?_
        rw [List.append_assoc, ← List.flatMap_append, ← List.filter_append]
        rfl

end Engine

/-! ### One line -/

theorem Slot.filter_files (severity : Severity) :
    ([Severity.fatal, .error, .warning, .info].filter fun t => t ≤ severity) = severity.cascade := by
  cases severity <;> decide

/-- The destinations that are written to are those that the policy says. -/
theorem Settings.map_fst_writes (s : Settings) (severity : Severity) :
    (s.writes severity).map Prod.fst = s.targets severity := by
  have hconsole : s.Selects severity .console ↔ (s.thresholds.route severity).console = true :=
    (s.thresholds.route_console severity).symm
  have hfiles : (([Severity.fatal, .error, .warning, .info].map Slot.file).filter fun slot =>
      s.Selects severity slot) =
        if s.thresholds.toConsole = false then severity.cascade.map Slot.file else [] := by
    rw [List.filter_map]
    split
    · next hfalse =>
      rw [← Slot.filter_files]
      simp only [Function.comp_def, Selects, hfalse, true_and]
    · next htrue => simp [Function.comp_def, Selects, htrue]
  have hall : Slot.all = .console :: [Severity.fatal, .error, .warning, .info].map Slot.file := rfl
  rw [writes, targets, hall, List.filter_cons, hfiles, s.thresholds.route_files severity, cascade]
  by_cases hselected : (s.thresholds.route severity).console = true <;>
    cases s.thresholds.toConsole <;>
      simp [hconsole, hselected, holder, List.filterMap_map, Function.comp_def]

namespace Engine

variable (e : Engine) (severity : Severity) (buffer : Buffer)

theorem written_frame :
    ∃ outcome outlets stats, e.written severity buffer =
      (outcome, { e with outlets := outlets, stats := stats, pool := e.pool.release buffer }) := by
  obtain ⟨outcome, outlets, stats, heq⟩ :=
    e.writeAll_frame buffer.bytes (e.settings.writes severity)
  exact ⟨outcome, outlets, _, by rw [written, heq]⟩

/-- A line is offered to the destinations of its severity. -/
theorem offers_written :
    e.Offers (e.settings.targets severity) buffer.bytes (e.written severity buffer) := by
  have hoffers := e.offers_writeAll buffer.bytes (e.settings.writes severity)
  rw [Settings.map_fst_writes] at hoffers
  exact ⟨hoffers.reached, hoffers.goesOn, hoffers.harmless⟩

end Engine

/-! ### After a fatal line -/

/-- What destinations answer when they are flushed in turn, all of them. -/
def Outlets.flushReplies (o : Outlets) : List Handle → List Reply
  | [] => []
  | h :: rest => (o.flush h).1 :: (o.flush h).2.flushReplies rest

/-- The error of an answer. -/
def Reply.error? : Reply → Option LogError
  | .failed error => some error
  | _ => none

/-- No answer to flushing ends the call, and neither does the report of the first error: nobody panics, all
errors can be thrown away, and the first one can be shown. -/
structure FlushesThrough (replies : List Reply) (reports : Script (Option Panic)) : Prop where
  returns : ∀ p disposal, Reply.panicked p disposal ∉ replies
  disposes : ∀ error ∈ replies.filterMap Reply.error?, error.disposal = none
  reported : ∀ error, (replies.filterMap Reply.error?).head? = some error →
    error.ending = .returns ∧ (Script.next none reports).1 = none

namespace Engine

/-- Behind a first error only the panics and the disposals of answers matter. -/
theorem foldlM_firstError_error (first : LogError) (replies : List Reply) (result : Except LogError Unit) :
    replies.foldlM firstError (.error first) = .ok result ↔
      result = .error first ∧ (∀ p disposal, Reply.panicked p disposal ∉ replies) ∧
        ∀ error ∈ replies.filterMap Reply.error?, error.disposal = none := by
  induction replies with
  | nil => simp [pure, Except.pure, eq_comm]
  | cons reply rest ih =>
    rw [List.foldlM_cons]
    cases reply with
    | done => simpa [firstError, bind, Except.bind, Reply.error?] using ih
    | panicked cause disposal =>
      exact iff_of_false nofun fun h => h.2.1 cause disposal List.mem_cons_self
    | failed error =>
      cases hdisposal : error.disposal with
      | none => simpa [firstError, bind, Except.bind, Reply.error?, hdisposal] using ih
      | some p => simp [firstError, bind, Except.bind, Reply.error?, hdisposal]

/-- The first error is kept; of those behind it only the disposals matter. -/
theorem foldlM_firstError_ok (replies : List Reply) (result : Except LogError Unit) :
    replies.foldlM firstError (.ok ()) = .ok result ↔
      (result = match (replies.filterMap Reply.error?).head? with
        | none => .ok ()
        | some error => .error error) ∧
      (∀ p disposal, Reply.panicked p disposal ∉ replies) ∧
        ∀ error ∈ (replies.filterMap Reply.error?).tail, error.disposal = none := by
  induction replies with
  | nil => simp [pure, Except.pure, eq_comm]
  | cons reply rest ih =>
    rw [List.foldlM_cons]
    cases reply with
    | done =>
      rw [List.filterMap_cons_none rfl]
      simpa [firstError, bind, Except.bind] using ih
    | panicked cause disposal =>
      exact iff_of_false nofun fun h => h.2.1 cause disposal List.mem_cons_self
    | failed error =>
      simpa [firstError, bind, Except.bind, Reply.error?] using foldlM_firstError_error error rest result

/-- Flushing is gone through with if nothing ends it and the first error, if there is one, can be reported. -/
theorem flushesThrough_iff {replies : List Reply} {reports : Script (Option Panic)} :
    FlushesThrough replies reports ↔ ∃ result, replies.foldlM firstError (.ok ()) = .ok result ∧
      ∀ error, result = .error error →
        (Script.next none reports).1 = none ∧ error.ending = .returns ∧ error.disposal = none := by
  constructor
  · intro h
    have hlater : ∀ error ∈ (replies.filterMap Reply.error?).tail, error.disposal = none := fun error hmem =>
      h.disposes error (List.mem_of_mem_tail hmem)
    refine ⟨_, (foldlM_firstError_ok replies _).mpr ⟨rfl, h.returns, hlater⟩, fun error herror => ?_⟩
    cases hhead : (replies.filterMap Reply.error?).head? with
    | none => simp [hhead] at herror
    | some first =>
      obtain rfl : first = error := by simpa [hhead] using herror
      obtain ⟨hending, hnext⟩ := h.reported first hhead
      exact ⟨hnext, hending, h.disposes first (List.mem_of_mem_head? hhead)⟩
  · rintro ⟨result, hfold, hreport⟩
    obtain ⟨hfirst, hreturns, hlater⟩ := (foldlM_firstError_ok _ _).mp hfold
    cases hlist : replies.filterMap Reply.error? with
    | nil => exact ⟨hreturns, by simp [hlist], by simp [hlist]⟩
    | cons error rest =>
      rw [hlist] at hfirst hlater
      obtain ⟨hnext, hending, hdisposal⟩ := hreport error hfirst
      refine ⟨hreturns, ?_, fun other hother => ?_⟩
      · rw [hlist]
        exact List.forall_mem_cons.mpr ⟨hdisposal, hlater⟩
      · rw [hlist] at hother
        cases hother
        exact ⟨hending, hnext⟩

variable (e : Engine)

theorem flushAll_cons (result : Except LogError Unit) (h : Handle) (rest : List Handle) :
    e.flushAll result (h :: rest) =
      match firstError result (e.outlets.flush h).1 with
      | .ok result => { e with outlets := (e.outlets.flush h).2 }.flushAll result rest
      | .error p => (.error (.panic p), { e with outlets := (e.outlets.flush h).2 }) := rfl

/-- Flushing changes only the outlets, and nothing that is kept. It goes on until all destinations are
flushed or an answer ends it. -/
theorem flushAll_spec (result : Except LogError Unit) (handles : List Handle) :
    ∃ outlets reached, reached <+: handles ∧
      outlets.attempts = e.outlets.attempts ++ reached.map Attempt.flush ∧
      (∀ k, outlets.kept? k = e.outlets.kept? k) ∧ (e.outlets.Harmless → outlets.Harmless) ∧
      outlets.reports = e.outlets.reports ∧
      (∀ result', (e.outlets.flushReplies handles).foldlM firstError result = .ok result' →
        e.flushAll result handles = (.ok result', { e with outlets := outlets }) ∧ reached = handles) ∧
      ∀ p, (e.outlets.flushReplies handles).foldlM firstError result = .error p →
        e.flushAll result handles = (.error (.panic p), { e with outlets := outlets }) := by
  induction handles generalizing e result with
  | nil =>
    refine ⟨e.outlets, [], List.nil_prefix, (List.append_nil _).symm, fun _ => rfl, id, rfl, ?_, nofun⟩
    rintro result' ⟨⟩
    exact ⟨rfl, rfl⟩
  | cons h rest ih =>
    have hattempts := e.outlets.attempts_flush h
    have hkept := e.outlets.kept?_flush h
    have hreports := e.outlets.reports_flush h
    rw [flushAll_cons, Outlets.flushReplies, List.foldlM_cons]
    cases hfirst : firstError result (e.outlets.flush h).1 with
    | error p =>
      refine ⟨(e.outlets.flush h).2, [h], List.prefix_append [h] rest, hattempts, hkept, fun ho => ho.flush h,
        hreports, nofun, ?_⟩
      rintro p' ⟨⟩
      rfl
    | ok result' =>
      obtain ⟨outlets, reached, hprefix, hattempts', hkept', hharmless', hreports', hall, hends⟩ :=
        ih { e with outlets := (e.outlets.flush h).2 } result'
      refine ⟨outlets, h :: reached, (List.prefix_cons_inj h).mpr hprefix, ?_,
        fun k => (hkept' k).trans (hkept k), fun ho => hharmless' (ho.flush h), hreports'.trans hreports,
        fun result'' heq => ?_, hends⟩
      · rw [hattempts', hattempts, List.append_assoc]
        rfl
      · obtain ⟨hflushed, hreached⟩ := hall result'' heq
        exact ⟨hflushed, congrArg (h :: ·) hreached⟩

/-- A report of flushing changes the console only. It returns if the console can be written to and the error
can be shown and thrown away. -/
theorem reportFlush_frame (error : LogError) :
    ∃ outcome console reports,
      e.reportFlush error =
        (outcome, { e with outlets := { e.outlets with console := console, reports := reports } }) ∧
      ((∀ step ∈ e.outlets.reports, step = none) → ∀ step ∈ reports, step = none) ∧
      (outcome = .ok () ↔ (Script.next none e.outlets.reports).1 = none ∧ error.ending = .returns ∧
        error.disposal = none) ∧
      ∀ code, outcome ≠ .error (.exit code) := by
  have hlater : (∀ step ∈ e.outlets.reports, step = none) →
      ∀ step ∈ (Script.next none e.outlets.reports).2, step = none := fun h step hstep =>
    h step (e.outlets.reports.next_subset none hstep)
  rw [reportFlush, report, Outlets.report]
  dsimp only
  cases (Script.next none e.outlets.reports).1 with
  | some p => exact ⟨_, _, _, rfl, hlater, by simp, nofun⟩
  | none =>
    cases hending : error.ending with
    | panics p => exact ⟨_, _, _, rfl, hlater, by simp, nofun⟩
    | fails => exact ⟨_, _, _, rfl, hlater, by simp, nofun⟩
    | returns =>
      cases hdisposal : error.disposal with
      | none => exact ⟨_, _, _, rfl, hlater, by simp [Outcome.ofPanic], nofun⟩
      | some p => exact ⟨_, _, _, rfl, hlater, by simp [Outcome.ofPanic], nofun⟩

/-- Either all destinations are flushed and the exit hook is run, or an answer ends the call before that. -/
theorem finishFatal_spec (hook : ExitHook) :
    ∃ outlets reached, reached <+: e.settings.handles ∧
      outlets.attempts = e.outlets.attempts ++ reached.map Attempt.flush ∧
      (∀ k, outlets.kept? k = e.outlets.kept? k) ∧ (e.outlets.Harmless → outlets.Harmless) ∧
      (FlushesThrough (e.outlets.flushReplies e.settings.handles) e.outlets.reports →
        e.finishFatal hook = { e with outlets := outlets }.runExitHook hook ∧
          reached = e.settings.handles) ∧
      (¬ FlushesThrough (e.outlets.flushReplies e.settings.handles) e.outlets.reports →
        ∃ p, e.finishFatal hook = (.error (.panic p), { e with outlets := outlets })) := by
  obtain ⟨outlets, reached, hprefix, hattempts, hkept, hharmless, hreports, hall, hends⟩ :=
    e.flushAll_spec (.ok ()) e.settings.handles
  cases hresult : (e.outlets.flushReplies e.settings.handles).foldlM firstError (.ok ()) with
  | error p =>
    refine ⟨outlets, reached, hprefix, hattempts, hkept, hharmless, fun hthrough => ?_, fun _ => ⟨p, ?_⟩⟩
    · obtain ⟨result, hok, -⟩ := flushesThrough_iff.mp hthrough
      cases hresult.symm.trans hok
    · rw [finishFatal, flush, hends p hresult]
  | ok result =>
    obtain ⟨hflushed, hreached⟩ := hall result hresult
    cases result with
    | ok =>
      have hthrough : FlushesThrough (e.outlets.flushReplies e.settings.handles) e.outlets.reports :=
        flushesThrough_iff.mpr ⟨.ok (), hresult, nofun⟩
      refine ⟨outlets, reached, hprefix, hattempts, hkept, hharmless, fun _ => ⟨?_, hreached⟩,
        fun hnot => (hnot hthrough).elim⟩
      rw [finishFatal, flush, hflushed]
    | error error =>
      obtain ⟨outcome, console, reports, hreport, hsteps, hreturned, hgoesOn⟩ :=
        { e with outlets := outlets }.reportFlush_frame error
      dsimp only at hsteps hreturned
      have hthrough : FlushesThrough (e.outlets.flushReplies e.settings.handles) e.outlets.reports ↔
          outcome = .ok () := by
        rw [hreturned, hreports, flushesThrough_iff]
        constructor
        · rintro ⟨result, hok, hreported⟩
          cases hresult.symm.trans hok
          exact hreported error rfl
        · refine fun h => ⟨.error error, hresult, fun other hother => ?_⟩
          cases hother
          exact h
      have hfinish : e.finishFatal hook = andThen ({ e with outlets := outlets }.reportFlush error)
          fun e => e.runExitHook hook := by
        rw [finishFatal, flush, hflushed]
      rw [hreport] at hfinish
      refine ⟨{ outlets with console := console, reports := reports }, reached, hprefix, hattempts, hkept,
        fun ho => ⟨(hharmless ho).answers, hsteps (hharmless ho).reports⟩, fun h => ⟨?_, hreached⟩,
        fun hnot => ?_⟩
      · rw [hfinish, hthrough.mp h]
        rfl
      · cases outcome with
        | ok => exact (hnot (hthrough.mpr rfl)).elim
        | error i =>
          cases i with
          | panic p => exact ⟨p, hfinish⟩
          | exit code => exact (hgoesOn code rfl).elim

theorem runExitHook_frame (hook : ExitHook) :
    ∃ outcome exits, e.runExitHook hook = (outcome, { e with exits := exits }) ∧
      (hook ≠ .endsProcess → ∀ code, outcome ≠ .error (.exit code)) := by
  match hook with
  | .endsProcess => exact ⟨_, e.exits, rfl, fun h => (h rfl).elim⟩
  | .custom none => exact ⟨_, e.exits + 1, rfl, fun _ _ h => by cases h⟩
  | .custom (some p) => exact ⟨_, e.exits + 1, rfl, fun _ _ h => by cases h⟩

/-- What follows a fatal line offers nothing to destinations and takes nothing from them. -/
theorem finishFatal_frame (hook : ExitHook) :
    ∃ outcome outlets exits, e.finishFatal hook = (outcome, { e with outlets := outlets, exits := exits }) ∧
      outlets.offers = e.outlets.offers ∧ (∀ k, outlets.kept? k = e.outlets.kept? k) ∧
      (e.outlets.Harmless → outlets.Harmless) ∧
      (hook ≠ .endsProcess → ∀ code, outcome ≠ .error (.exit code)) := by
  obtain ⟨outlets, reached, -, hattempts, hkept, hharmless, hthrough, hends⟩ := e.finishFatal_spec hook
  have hoffers : outlets.offers = e.outlets.offers := by
    rw [Outlets.offers, hattempts, List.filterMap_append, List.filterMap_map]
    simp [Outlets.offers]
  by_cases h : FlushesThrough (e.outlets.flushReplies e.settings.handles) e.outlets.reports
  · obtain ⟨outcome, exits, hrun, hne⟩ := runExitHook_frame { e with outlets := outlets } hook
    exact ⟨outcome, outlets, exits, (hthrough h).1.trans hrun, hoffers, hkept, hharmless, hne⟩
  · obtain ⟨p, heq⟩ := hends h
    exact ⟨.error (.panic p), outlets, e.exits, heq, hoffers, hkept, hharmless, fun _ _ h => by cases h⟩

/-! ### What a call of `output` does -/

variable (severity : Severity) (buffer : Buffer)

theorem Offers.offered {e : Engine} {targets : List Handle} {bytes : Bytes} {result : Outcome Unit × Engine}
    (h : e.Offers targets bytes result) :
    ∃ reached, reached <+: targets ∧ (result.1 = .ok () → reached = targets) ∧
      result.2.outlets.offers = e.outlets.offers ++ reached.map (·, bytes) ∧
      ∀ k content, e.outlets.kept? k = some content →
        result.2.outlets.kept? k = some (content ++ (reached.filter (· = k)).flatMap fun _ => bytes) := by
  obtain ⟨reached, hprefix, hall, hattempts, hkept⟩ := h.reached
  refine ⟨reached, hprefix, hall, ?_, hkept⟩
  rw [Outlets.offers, hattempts, List.filterMap_append, List.filterMap_map]
  simp [Outlets.offers]

theorem written_of_harmless (h : e.outlets.Harmless) : (e.written severity buffer).1 = .ok () :=
  ((e.offers_written severity buffer).harmless h).1

/-- A line leaves the settings alone, whether it is fatal or not. Its destinations are offered it in
order, and those that cannot fail keep it; all of them are, unless the writing is interrupted. -/
theorem output_spec :
    (e.output severity buffer).2.settings = e.settings ∧
      (∃ reached, reached <+: e.settings.targets severity ∧
        ((e.written severity buffer).1 = .ok () → reached = e.settings.targets severity) ∧
        (e.output severity buffer).2.outlets.offers =
          e.outlets.offers ++ reached.map (·, buffer.bytes) ∧
        ∀ k content, e.outlets.kept? k = some content →
          (e.output severity buffer).2.outlets.kept? k =
            some (content ++ (reached.filter (· = k)).flatMap fun _ => buffer.bytes)) ∧
      (e.outlets.Harmless → (e.output severity buffer).2.outlets.Harmless) ∧
      (e.settings.exitHook ≠ .endsProcess →
        ∀ code, (e.output severity buffer).1 ≠ .error (.exit code)) := by
  have hwritten := e.offers_written severity buffer
  obtain ⟨outcome, outlets, stats, hframe⟩ := e.written_frame severity buffer
  obtain ⟨reached, hprefix, hall, hoffers, hkept⟩ := hwritten.offered
  have hharmless := hwritten.harmless
  have hgoesOn := hwritten.goesOn
  rw [output]
  rw [hframe] at hall hoffers hkept hharmless hgoesOn ⊢
  cases outcome with
  | error i =>
    exact ⟨rfl, ⟨reached, hprefix, hall, hoffers, hkept⟩, fun h => (hharmless h).2, fun _ => hgoesOn⟩
  | ok =>
    rw [andThen_ok]
    split
    · let after : Engine := { e with
        outlets := outlets
        stats := stats
        pool := e.pool.release buffer }
      obtain ⟨outcome, later, exits, heq, hoffers', hkept', hharmless', hexit⟩ :=
        after.finishFatal_frame e.settings.exitHook
      rw [heq]
      exact ⟨rfl, ⟨reached, hprefix, hall, hoffers'.trans hoffers,
        fun k content h => (hkept' k).trans (hkept k content h)⟩, fun h => hharmless' (hharmless h).2, hexit⟩
    · exact ⟨rfl, ⟨reached, hprefix, hall, hoffers, hkept⟩, fun h => (hharmless h).2, fun _ => hgoesOn⟩

/-- What a line changes: the destinations, the statistics, the pool that gets its buffer back, and, if it
is fatal, the count of exits. -/
theorem output_frame :
    ∃ outcome outlets stats exits, e.output severity buffer =
      (outcome, { e with
        outlets := outlets
        stats := stats
        pool := e.pool.release buffer
        exits := exits }) := by
  obtain ⟨outcome, outlets, stats, hframe⟩ := e.written_frame severity buffer
  rw [output, hframe]
  cases outcome with
  | error i => exact ⟨_, _, _, _, rfl⟩
  | ok =>
    rw [andThen_ok]
    split
    · let after : Engine := { e with
        outlets := outlets
        stats := stats
        pool := e.pool.release buffer }
      obtain ⟨outcome, later, exits, heq, -⟩ := after.finishFatal_frame e.settings.exitHook
      exact ⟨_, _, _, _, heq⟩
    · exact ⟨_, _, _, _, rfl⟩

/-- Only after a fatal line there is more to do. -/
theorem output_of_ne_fatal (h : severity ≠ .fatal) : e.output severity buffer = e.written severity buffer := by
  rw [output]
  rcases e.written severity buffer with ⟨_ | ⟨⟩, after⟩
  · rfl
  · rw [andThen_ok, if_neg h]

end Engine

end Logline
