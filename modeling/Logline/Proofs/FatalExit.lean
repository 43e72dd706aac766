import Mathlib
import Logline.Proofs.Delivery

/-!
# What follows a fatal line

After a fatal line all destinations are to be flushed, and then the exit hook is to be run. A destination
that fails to flush does not keep the others from being flushed, but one that panics does, and then the
exit hook is not run either: appending is guarded against panics, flushing is not. Neither is what is done
with an error: one that panics when it is put into words or thrown away ends the call as well, after a
failed append just as after a failed flush.

Main statement: `endsInExitHook_iff`. A fatal line ends in the exit hook if and only if the line can be
written to its destinations and no answer to flushing ends the call (`FlushesThrough`); otherwise a panic
leaves it. The writing depends on the answers to appending and on the reports about them
(`writeAll_returns_iff`).
-/

namespace Logline

/-! ### When a line can be written -/

/-- What destinations answer when they are given octets in turn, all of them. -/
def Outlets.appendReplies (o : Outlets) (bytes : Bytes) : List Handle → List Reply
  | [] => []
  | h :: rest => (o.append h bytes).1 :: (o.append h bytes).2.appendReplies bytes rest

namespace Outlets

variable {o o' : Outlets} (h : o.appenders = o'.appenders) (bytes : Bytes)

include h

/-- What a destination answers, and what becomes of it, depends on the destinations alone. -/
theorem append_congr (k : Handle) :
    (o.append k bytes).1 = (o'.append k bytes).1 ∧
      (o.append k bytes).2.appenders = (o'.append k bytes).2.appenders := by
  simp only [append, accept, appender?, note, replace, print, h]
  cases o'.appenders[k]? with
  | none => exact ⟨rfl, h⟩
  | some a =>
    cases a with
    | scripted name appends flushes => exact ⟨rfl, rfl⟩
    | memory m => exact ⟨rfl, rfl⟩
    | writer name out => exact ⟨rfl, rfl⟩
    | console colours => exact ⟨rfl, rfl⟩
    | file path locked pending => cases locked <;> exact ⟨rfl, rfl⟩

theorem appendReplies_congr (handles : List Handle) :
    o.appendReplies bytes handles = o'.appendReplies bytes handles := by
  induction handles generalizing o o' with
  | nil => rfl
  | cons k rest ih =>
    obtain ⟨hreply, hlater⟩ := append_congr h bytes k
    rw [appendReplies, hreply, ih hlater, appendReplies]

end Outlets

namespace Engine

variable (e : Engine) (bytes : Bytes)

/-- If reports can be written, a write returns or panics as the answer is harmless or not. -/
theorem writeTo_returns (hreports : ∀ step ∈ e.outlets.reports, step = none) (report : Bool) (h : Handle) :
    ((e.outlets.append h bytes).1.Harmless →
      ∃ outlets stats, e.writeTo bytes report h = (.ok (), { e with outlets := outlets, stats := stats }) ∧
        outlets.appenders = (e.outlets.append h bytes).2.appenders ∧
        ∀ step ∈ outlets.reports, step = none) ∧
      (¬ (e.outlets.append h bytes).1.Harmless → (e.writeTo bytes report h).1 ≠ .ok ()) := by
  have hlater : ∀ step ∈ (e.outlets.append h bytes).2.reports, step = none := by
    rwa [Outlets.reports_append]
  rw [Reply.harmless_iff]
  rcases e.writeTo_cases bytes report h with ⟨hnone, heq⟩ | ⟨p, hp, heq⟩ | ⟨failure, hfailure, heq⟩
  · exact ⟨fun _ => ⟨_, _, heq, rfl, hlater⟩, fun hnot => (hnot (by simp [hnone])).elim⟩
  · exact ⟨fun h => (h p hp).elim, fun _ => by simp [heq]⟩
  · refine ⟨fun _ => ?_, fun hnot => (hnot (by simp [hfailure])).elim⟩
    rw [heq]
    split
    · -- the report is written: what comes next from its script is not a panic
      have hnext : (Script.next none (e.outlets.append h bytes).2.reports).1 = none :=
        (Script.next_mem none _).elim id (hlater _)
      simp only [Engine.report, Outlets.report, hnext]
      exact ⟨_, _, rfl, rfl, fun step hstep => hlater step (Script.next_subset none _ hstep)⟩
    · exact ⟨_, _, rfl, rfl, hlater⟩

/-- If reports can be written, a line can be written to destinations if and only if all their answers are
harmless. -/
theorem writeAll_returns_iff (hreports : ∀ step ∈ e.outlets.reports, step = none)
    (writes : List (Handle × Bool)) :
    (e.writeAll bytes writes).1 = .ok () ↔
      ∀ reply ∈ e.outlets.appendReplies bytes (writes.map Prod.fst), reply.Harmless := by
  induction writes generalizing e with
  | nil => exact iff_of_true rfl fun _ => nofun
  | cons w rest ih =>
    obtain ⟨hharmless, hpanics⟩ := e.writeTo_returns bytes hreports w.2 w.1
    rw [writeAll, List.map_cons, Outlets.appendReplies, List.forall_mem_cons]
    by_cases h : (e.outlets.append w.1 bytes).1.Harmless
    · obtain ⟨outlets, stats, heq, happenders, hlater⟩ := hharmless h
      rw [heq, andThen_ok, ih _ hlater, Outlets.appendReplies_congr happenders]
      exact (and_iff_right h).symm
    · refine iff_of_false (fun hok => hpanics h ?_) (fun hall => h hall.1)
      cases hresult : e.writeTo bytes w.2 w.1 with
      | mk outcome after =>
        rw [hresult] at hok
        cases outcome with
        | ok => rfl
        | error i => cases hok

/-! ### A fatal line -/

/-- A fatal line is offered to its destinations, then all destinations of the settings are flushed, and
then the exit hook is run, with whatever that leads to. -/
def EndsInExitHook (e : Engine) (buffer : Buffer) : Prop :=
  ∃ flushed : Engine,
    flushed.outlets.attempts =
        e.outlets.attempts ++ (e.settings.targets .fatal).map (Attempt.append · buffer.bytes) ++
          e.settings.handles.map Attempt.flush ∧
      flushed.exits = e.exits ∧ e.output .fatal buffer = flushed.runExitHook e.settings.exitHook

/-- The exit hook leaves a trace: the count of exits is up, or the process is at its end. -/
theorem runExitHook_ne_panic (hook : ExitHook) (p : Panic) {after : Engine} (hexits : after.exits = e.exits) :
    e.runExitHook hook ≠ (.error (.panic p), after) := by
  intro heq
  match hook with
  | .endsProcess => cases congrArg Prod.fst heq
  | .custom none => cases congrArg Prod.fst heq
  | .custom (some _) =>
    have hcount : e.exits + 1 = after.exits := congrArg (fun result => result.2.exits) heq
    omega

/-- A panic leaves the call of `output` for a fatal line, before the exit hook is run. Destinations were
offered the line in order, and were flushed only after all of them had been offered it. -/
structure LeftByPanic (e : Engine) (buffer : Buffer) : Prop where
  panics : ∃ p, (e.output .fatal buffer).1 = .error (.panic p)
  exits : (e.output .fatal buffer).2.exits = e.exits
  reached : ∃ offered flushed, offered <+: e.settings.targets .fatal ∧ flushed <+: e.settings.handles ∧
    (offered = e.settings.targets .fatal ∨ flushed = []) ∧
    (e.output .fatal buffer).2.outlets.attempts =
      e.outlets.attempts ++ offered.map (Attempt.append · buffer.bytes) ++ flushed.map Attempt.flush

variable {e} {buffer : Buffer}

theorem LeftByPanic.not_endsInExitHook (h : e.LeftByPanic buffer) : ¬ e.EndsInExitHook buffer := by
  rintro ⟨flushed, -, hexits, heq⟩
  obtain ⟨p, hp⟩ := h.panics
  exact flushed.runExitHook_ne_panic e.settings.exitHook p (h.exits.trans hexits.symm)
    (heq.symm.trans (Prod.ext hp rfl))

/-- A line that cannot be written to its destinations is the end of the call. -/
theorem leftByPanic_of_written {i : Interrupt} (h : (e.written .fatal buffer).1 = .error i) :
    e.LeftByPanic buffer := by
  obtain ⟨⟨offered, hprefix, -, hattempts, -⟩, hgoesOn, -⟩ := e.offers_written .fatal buffer
  obtain ⟨outcome, outlets, stats, hframe⟩ := e.written_frame .fatal buffer
  rw [hframe] at hattempts hgoesOn h
  subst h
  have houtput : e.output .fatal buffer =
      (.error i, { e with outlets := outlets, stats := stats, pool := e.pool.release buffer }) := by
    rw [output, hframe, andThen_error]
  refine ⟨?_, by rw [houtput], offered, [], hprefix, List.nil_prefix, .inr rfl, ?_⟩
  · cases i with
    | panic p => exact ⟨p, by rw [houtput]⟩
    | exit code => exact (hgoesOn code rfl).elim
  · rw [houtput, List.map_nil, List.append_nil]
    exact hattempts

/-- Once the line is written, it depends on the answers to flushing how the call goes on. -/
theorem endsInExitHook_or_leftByPanic (h : (e.written .fatal buffer).1 = .ok ()) :
    let after := (e.written .fatal buffer).2
    (FlushesThrough (after.outlets.flushReplies e.settings.handles) after.outlets.reports ∧
      e.EndsInExitHook buffer) ∨
    (¬ FlushesThrough (after.outlets.flushReplies e.settings.handles) after.outlets.reports ∧
      e.LeftByPanic buffer) := by
  intro after
  obtain ⟨offered, -, hall, hoffered, -⟩ := (e.offers_written .fatal buffer).reached
  obtain rfl : offered = e.settings.targets .fatal := hall h
  obtain ⟨outcome, outlets, stats, hframe⟩ := e.written_frame .fatal buffer
  have hafter : after = { e with outlets := outlets, stats := stats, pool := e.pool.release buffer } :=
    congrArg Prod.snd hframe
  have houtput : e.output .fatal buffer = after.finishFatal e.settings.exitHook := by
    rw [output, andThen_of_returns h, if_pos rfl]
  have hhandles : after.settings.handles = e.settings.handles := by rw [hafter]
  have hexits : after.exits = e.exits := by rw [hafter]
  obtain ⟨flushed, reached, hprefix, hattempts, -, -, hthrough, hends⟩ :=
    after.finishFatal_spec e.settings.exitHook
  rw [hhandles] at hprefix hthrough hends
  rw [hoffered] at hattempts
  by_cases hflush : FlushesThrough (after.outlets.flushReplies e.settings.handles) after.outlets.reports
  · obtain ⟨hfinish, rfl⟩ := hthrough hflush
    exact .inl ⟨hflush, { after with outlets := flushed }, hattempts, hexits, houtput.trans hfinish⟩
  · obtain ⟨p, hfinish⟩ := hends hflush
    refine .inr ⟨hflush, ⟨p, ?_⟩, ?_, _, reached, List.prefix_refl _, hprefix, .inl rfl, ?_⟩
    · rw [houtput, hfinish]
    · rw [houtput, hfinish]
      exact hexits
    · rw [houtput, hfinish]
      exact hattempts

/-- A fatal line ends in the exit hook if and only if it can be written to its destinations and no answer
to flushing ends the call; otherwise a panic leaves the call before the exit hook is run. It can be
written, if the reports about failures can be, if and only if the answers to appending are harmless. Below
the fatal severity a call only offers the line to its destinations, all of them if their answers are
harmless: nothing is flushed and no exit hook is run. -/
theorem endsInExitHook_iff (e : Engine) (buffer : Buffer) :
    let wrote := e.written .fatal buffer
    (e.EndsInExitHook buffer ↔ wrote.1 = .ok () ∧
        FlushesThrough (wrote.2.outlets.flushReplies e.settings.handles) wrote.2.outlets.reports) ∧
      (¬ e.EndsInExitHook buffer → e.LeftByPanic buffer) ∧
      ((∀ step ∈ e.outlets.reports, step = none) →
        (wrote.1 = .ok () ↔
          ∀ reply ∈ e.outlets.appendReplies buffer.bytes (e.settings.targets .fatal), reply.Harmless)) ∧
      ∀ severity, severity ≠ .fatal →
        (∀ code, (e.output severity buffer).1 ≠ .error (.exit code)) ∧
          (e.output severity buffer).2.exits = e.exits ∧
          (∃ offered, offered <+: e.settings.targets severity ∧
            ((e.output severity buffer).1 = .ok () → offered = e.settings.targets severity) ∧
            (e.output severity buffer).2.outlets.attempts =
              e.outlets.attempts ++ offered.map (Attempt.append · buffer.bytes)) ∧
          (e.outlets.Harmless → (e.output severity buffer).1 = .ok ()) := by
  intro wrote
  have hreports : (∀ step ∈ e.outlets.reports, step = none) →
      (wrote.1 = .ok () ↔
        ∀ reply ∈ e.outlets.appendReplies buffer.bytes (e.settings.targets .fatal), reply.Harmless) := by
    intro hreports
    rw [← Settings.map_fst_writes, ← e.writeAll_returns_iff buffer.bytes hreports]
    exact Iff.rfl
  have hbelow : ∀ severity, severity ≠ .fatal →
      (∀ code, (e.output severity buffer).1 ≠ .error (.exit code)) ∧
        (e.output severity buffer).2.exits = e.exits ∧
        (∃ offered, offered <+: e.settings.targets severity ∧
          ((e.output severity buffer).1 = .ok () → offered = e.settings.targets severity) ∧
          (e.output severity buffer).2.outlets.attempts =
            e.outlets.attempts ++ offered.map (Attempt.append · buffer.bytes)) ∧
        (e.outlets.Harmless → (e.output severity buffer).1 = .ok ()) := by
    intro severity hne
    obtain ⟨⟨offered, hprefix, hall, hattempts, -⟩, hgoesOn, hharmless⟩ := e.offers_written severity buffer
    obtain ⟨outcome, outlets, stats, hframe⟩ := e.written_frame severity buffer
    rw [e.output_of_ne_fatal severity buffer hne]
    exact ⟨hgoesOn, by rw [hframe], ⟨offered, hprefix, hall, hattempts⟩, fun h => (hharmless h).1⟩
  cases houtcome : wrote.1 with
  | error i =>
    have hleft := leftByPanic_of_written houtcome
    exact ⟨iff_of_false hleft.not_endsInExitHook nofun, fun _ => hleft, houtcome ▸ hreports, hbelow⟩
  | ok =>
    rcases endsInExitHook_or_leftByPanic houtcome with ⟨hflush, hends⟩ | ⟨hflush, hleft⟩
    · exact ⟨iff_of_true hends ⟨rfl, hflush⟩, fun hnot => (hnot hends).elim, houtcome ▸ hreports, hbelow⟩
    · exact ⟨iff_of_false hleft.not_endsInExitHook fun h => hflush h.2, fun _ => hleft,
        houtcome ▸ hreports, hbelow⟩

/-- An engine whose console takes lines but panics when it is flushed. Its exit hook would return. -/
def panickingConsole : Engine where
  settings := { console := 0, exitHook := .custom none }
  outlets := { appenders := [.scripted "tape" [] [.panicked (.message "appender broke")]] }
  stamp := ⟨1, 1, 0, 0, 0, 0⟩

/-- A fatal line does not always end in the exit hook: a panicking flush keeps it from being run. -/
theorem not_endsInExitHook_panickingConsole :
    ¬ panickingConsole.EndsInExitHook ⟨0, [0x46, 0x0A]⟩ ∧
      (panickingConsole.output .fatal ⟨0, [0x46, 0x0A]⟩).2.exits = 0 := by
  have hexits : (panickingConsole.output .fatal ⟨0, [0x46, 0x0A]⟩).2.exits = 0 := rfl
  refine ⟨?_, hexits⟩
  rintro ⟨flushed, -, -, heq⟩
  have hcount : (panickingConsole.output .fatal ⟨0, [0x46, 0x0A]⟩).2.exits = flushed.exits + 1 :=
    congrArg (fun result => result.2.exits) heq
  omega

end Engine

end Logline
