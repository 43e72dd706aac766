import Mathlib
import Logline.Engine

/-!
# Flags in sequence

A flag is given by its name and a text for its value, and both may be anything. Whether a text is a value
of a flag is a matter of the flag's grammar alone: `Grammar.Denotes` says it without reading the text from
its front, and the readers follow it (`Grammar.read_eq_ok_iff`). So what a call reports does not depend on
the settings, and what it changes is one setting, to the value that its text denotes.

Main statement: `Thresholds.applyAll_lastSet`. After any calls every setting is what the last call that was
understood has made of it, calls that are not understood have no effect, and calls for different flags can
trade places. An engine that is given the calls does what its thresholds do.
-/

namespace Logline

/-! ### The grammars of values -/

/-- The value of a setting. -/
inductive Setting where
  | truth (b : Bool)
  | severity (s : Severity)
  | level (n : UInt32)
  deriving DecidableEq, Repr

/-- The ways in which values are spelled. -/
inductive Grammar where
  | truth
  | severity
  | level
  deriving DecidableEq, Repr

/-- The number that a decimal numeral denotes: one or more digits, possibly with a plus sign before them. -/
def Numeral (text : List Char) (n : Nat) : Prop :=
  ∃ digits, (text = digits ∨ text = '+' :: digits) ∧ digits ≠ [] ∧ (∀ c ∈ digits, '0' ≤ c ∧ c ≤ '9') ∧
    n = Nat.ofDigits 10 (digits.reverse.map fun c => c.toNat - '0'.toNat)

namespace Grammar

/-- The value that a text denotes, if it denotes one. -/
def Denotes : Grammar → String → Setting → Prop
  | .truth, text, .truth true => text ∈ ["1", "t", "T", "true", "TRUE", "True"]
  | .truth, text, .truth false => text ∈ ["0", "f", "F", "false", "FALSE", "False"]
  | .severity, text, .severity s => Severity.ofText text = .ok s
  | .level, text, .level n => Numeral text.toList n.toNat
  | _, _, _ => False

/-- What is said of a text that denotes no value. -/
def refusal (g : Grammar) (flag text : String) : LogError :=
  match g with
  | .truth => .invalidConfiguration flag ("invalid boolean value '" ++ text ++ "'")
  | .severity => .invalidSeverity text
  | .level => .invalidConfiguration flag ("invalid verbosity level '" ++ text ++ "'")

/-- Reads a value. -/
def read (g : Grammar) (flag text : String) : Except LogError Setting :=
  match g with
  | .truth => (Thresholds.readBool flag text).map .truth
  | .severity => (Severity.ofText text).map .severity
  | .level => (Thresholds.readVerbosity flag text).map .level

end Grammar

namespace Thresholds

theorem natural?_eq_some_iff (text : List Char) (n : Nat) : natural? text = some n ↔ Numeral text n := by
  have hvalue : ∀ digits : List Char,
      digits.foldl (fun n c => n * 10 + (c.toNat - '0'.toNat)) 0 =
        Nat.ofDigits 10 (digits.reverse.map fun c => c.toNat - '0'.toNat) := by
    intro digits
    rw [Nat.ofDigits_eq_foldr, List.map_reverse, List.foldr_reverse, List.foldl_map]
    simp only [Nat.cast_id, Nat.mul_comm, Nat.add_comm]
  have hdigit : ∀ c : Char, c.isDigit = true ↔ '0' ≤ c ∧ c ≤ '9' := by
    intro c
    simp [Char.isDigit, Char.le_def]
  have hplus : ¬ ('0' ≤ '+' ∧ '+' ≤ '9') := by decide
  -- the digits of a text are what follows its plus sign, and a plus sign is no digit
  have hdigits : ∀ digits : List Char,
      (if digits ≠ [] ∧ digits.all Char.isDigit then
        some (digits.foldl (fun n c => n * 10 + (c.toNat - '0'.toNat)) 0) else none) = some n ↔
      digits ≠ [] ∧ (∀ c ∈ digits, '0' ≤ c ∧ c ≤ '9') ∧
        n = Nat.ofDigits 10 (digits.reverse.map fun c => c.toNat - '0'.toNat) := by
    intro digits
    rw [Option.ite_none_right_eq_some, Option.some.injEq, hvalue, List.all_eq_true, and_assoc]
    simp only [hdigit, eq_comm]
  unfold natural?
  split
  · next rest =>
    rw [hdigits]
    constructor
    · rintro ⟨hne, hall, hn⟩
      exact ⟨rest, Or.inr rfl, hne, hall, hn⟩
    · rintro ⟨digits, heq | heq, hne, hall, hn⟩
      · exact (hplus (hall '+' (heq ▸ List.mem_cons_self))).elim
      · cases heq
        exact ⟨hne, hall, hn⟩
  · next hno =>
    rw [hdigits]
    constructor
    · rintro ⟨hne, hall, hn⟩
      exact ⟨text, Or.inl rfl, hne, hall, hn⟩
    · rintro ⟨digits, heq | heq, hne, hall, hn⟩
      · rw [heq]
        exact ⟨hne, hall, hn⟩
      · exact (hno digits heq).elim

theorem readVerbosity_eq_ok_iff (flag text : String) (n : UInt32) :
    readVerbosity flag text = .ok n ↔ Numeral text.toList n.toNat := by
  rw [← natural?_eq_some_iff, readVerbosity]
  cases hnatural : natural? text.toList with
  | none => exact ⟨nofun, nofun⟩
  | some m =>
    dsimp only
    split
    · next hlt =>
      rw [Except.ok.injEq, Option.some.injEq, ← UInt32.toNat_inj, UInt32.toNat_ofNat_of_lt' hlt]
    · next hge =>
      -- no word of 32 bits is the number
      refine ⟨nofun, fun heq => (hge ?_).elim⟩
      rw [Option.some.inj heq]
      exact n.toNat_lt

theorem readBool_eq_ok_iff (flag text : String) (b : Bool) :
    readBool flag text = .ok b ↔ text ∈ if b then trueTexts else falseTexts := by
  have hdisjoint : ∀ text ∈ trueTexts, text ∉ falseTexts := by decide
  rw [readBool]
  split
  · next htrue =>
    cases b with
    | true => simpa using htrue
    | false => simpa using hdisjoint text htrue
  · next htrue =>
    split
    · next hfalse =>
      cases b with
      | true => simpa using htrue
      | false => simpa using hfalse
    · next hfalse => cases b <;> simpa

end Thresholds

namespace Grammar

/-- A text is read as the value that it denotes. -/
theorem read_eq_ok_iff (g : Grammar) (flag text : String) (v : Setting) :
    g.read flag text = .ok v ↔ g.Denotes text v := by
  cases g with
  | truth =>
    cases v with
    | truth b =>
      have hspelled : Denotes .truth text (.truth b) ↔
          text ∈ if b then Thresholds.trueTexts else Thresholds.falseTexts := by
        cases b <;> rfl
      rw [hspelled, ← Thresholds.readBool_eq_ok_iff flag, read]
      cases Thresholds.readBool flag text <;> simp [Except.map]
    | _ => cases hread : Thresholds.readBool flag text <;> simp [read, Denotes, Except.map, hread]
  | severity =>
    cases v <;> cases hread : Severity.ofText text <;> simp [read, Denotes, Except.map, hread]
  | level =>
    cases v <;> cases hread : Thresholds.readVerbosity flag text <;>
      simp [read, Denotes, Except.map, hread, ← Thresholds.readVerbosity_eq_ok_iff flag]

/-- A text that denotes nothing is refused, with the grammar's own words. -/
theorem read_eq_error_iff (g : Grammar) (flag text : String) (error : LogError) :
    g.read flag text = .error error ↔ (∀ v, ¬ g.Denotes text v) ∧ error = g.refusal flag text := by
  have hwords : ∀ error, g.read flag text = .error error → error = g.refusal flag text := by
    intro error h
    cases g with
    | truth =>
      simp only [read, Thresholds.readBool] at h
      split at h
      · cases h
      · split at h <;> cases h
        rfl
    | severity =>
      simp only [read, Severity.ofText] at h
      split at h <;> cases h
      rfl
    | level =>
      simp only [read, Thresholds.readVerbosity] at h
      split at h
      · split at h <;> cases h
        rfl
      · cases h
        rfl
  cases hread : g.read flag text with
  | ok v =>
    refine ⟨nofun, fun h => (h.1 v ?_).elim⟩
    rwa [← read_eq_ok_iff g flag]
  | error e =>
    have hnone : ∀ v, ¬ g.Denotes text v := fun v hv => by
      rw [← read_eq_ok_iff g flag, hread] at hv
      cases hv
    rw [Except.error.injEq, hwords e hread, eq_comm]
    exact ⟨fun h => ⟨hnone, h⟩, fun h => h.2⟩

end Grammar

/-! ### One flag -/

namespace Flag

/-- How the values of a flag are spelled. -/
def grammar : Flag → Grammar
  | .toConsole => .truth
  | .alsoToConsole => .truth
  | .legacy => .truth
  | .consoleThreshold => .severity
  | .alsoThreshold => .severity
  | .verbosity => .level

theorem name_injective {f g : Flag} (h : f.name = g.name) : f = g := by
  cases f <;> cases g <;> first | rfl | exact absurd h (by decide)

theorem ofName?_eq_some_iff (name : String) (f : Flag) : ofName? name = some f ↔ f.name = name := by
  constructor
  · intro h
    simpa using List.find?_some h
  · rintro rfl
    cases f <;> rfl

theorem ofName?_eq_none_iff (name : String) : ofName? name = none ↔ ∀ f : Flag, f.name ≠ name := by
  rw [ofName?, List.find?_eq_none]
  exact ⟨fun h f => by simpa using h f (mem_all f), fun h f _ => by simpa using h f⟩

end Flag

namespace Thresholds

/-- The setting of a flag. -/
def setting (t : Thresholds) : Flag → Setting
  | .toConsole => .truth t.toConsole
  | .alsoToConsole => .truth t.alsoToConsole
  | .legacy => .truth t.legacy
  | .consoleThreshold => .severity t.consoleThreshold
  | .alsoThreshold => .severity t.alsoThreshold
  | .verbosity => .level t.verbosity

/-- Thresholds are nothing but the settings of the flags. -/
theorem ext_setting {t u : Thresholds} (h : ∀ flag, t.setting flag = u.setting flag) : t = u := by
  obtain ⟨toConsole, alsoToConsole, legacy, consoleThreshold, alsoThreshold, verbosity⟩ := t
  have h1 := h .toConsole
  have h2 := h .alsoToConsole
  have h3 := h .legacy
  have h4 := h .consoleThreshold
  have h5 := h .alsoThreshold
  have h6 := h .verbosity
  simp only [setting, Setting.truth.injEq, Setting.severity.injEq, Setting.level.injEq] at h1 h2 h3 h4 h5 h6
  subst h1 h2 h3 h4 h5 h6
  rfl

/-- The thresholds with one setting replaced. -/
def put (t : Thresholds) : Flag → Setting → Thresholds
  | .toConsole, .truth b => { t with toConsole := b }
  | .alsoToConsole, .truth b => { t with alsoToConsole := b }
  | .legacy, .truth b => { t with legacy := b }
  | .consoleThreshold, .severity s => { t with consoleThreshold := s }
  | .alsoThreshold, .severity s => { t with alsoThreshold := s }
  | .verbosity, .level n => { t with verbosity := n }
  | _, _ => t

theorem setting_put_self (t : Thresholds) {flag : Flag} {text : String} {v : Setting}
    (h : flag.grammar.Denotes text v) : (t.put flag v).setting flag = v := by
  cases flag <;> cases v <;> first | rfl | exact h.elim

theorem setting_put_of_ne (t : Thresholds) {flag other : Flag} (hne : other ≠ flag) (v : Setting) :
    (t.put flag v).setting other = t.setting other := by
  cases flag <;> cases v <;> first | rfl | (cases other <;> first | rfl | exact (hne rfl).elim)

theorem set_eq (t : Thresholds) (flag : Flag) (text : String) :
    t.set flag text = (flag.grammar.read flag.name text).map (t.put flag) := by
  cases flag with
  | toConsole => rw [set, Flag.grammar, Grammar.read]; cases readBool _ text <;> rfl
  | alsoToConsole => rw [set, Flag.grammar, Grammar.read]; cases readBool _ text <;> rfl
  | legacy => rw [set, Flag.grammar, Grammar.read]; cases readBool _ text <;> rfl
  | consoleThreshold => rw [set, Flag.grammar, Grammar.read]; cases Severity.ofText text <;> rfl
  | alsoThreshold => rw [set, Flag.grammar, Grammar.read]; cases Severity.ofText text <;> rfl
  | verbosity => rw [set, Flag.grammar, Grammar.read]; cases readVerbosity _ text <;> rfl

end Thresholds

/-! ### Calls -/

/-- A flag given by its name, with the text for its value. -/
structure FlagText where
  name : String
  text : String
  deriving DecidableEq, Repr

namespace FlagText

/-- The call is for a flag, and its text denotes a value of it. -/
def Sets (c : FlagText) (flag : Flag) (v : Setting) : Prop :=
  flag.name = c.name ∧ flag.grammar.Denotes c.text v

/-- What a call reports: success if it sets a flag, otherwise that there is no such flag, or the words of
the flag's grammar. -/
def Reports (c : FlagText) : Except LogError Unit → Prop
  | .ok () => ∃ flag v, c.Sets flag v
  | .error error => (∀ flag v, ¬ c.Sets flag v) ∧
      (((∀ flag : Flag, flag.name ≠ c.name) ∧ error = .unknownFlag c.name) ∨
        ∃ flag : Flag, flag.name = c.name ∧ error = flag.grammar.refusal c.name c.text)

/-- What a change reports, and the state after it. A change that fails leaves the state as it is. -/
def settle {σ : Type} (s : σ) : Except LogError σ → Except LogError Unit × σ
  | .ok changed => (.ok (), changed)
  | .error error => (.error error, s)

/-- Carries out calls in turn: what they report, and the state after them. -/
def runAll {σ : Type} (apply : σ → String → String → Except LogError σ) (s : σ) :
    List FlagText → List (Except LogError Unit) × σ
  | [] => ([], s)
  | c :: rest =>
    let (report, s) := settle s (apply s c.name c.text)
    let (reports, s) := runAll apply s rest
    (report :: reports, s)

/-- After calls a setting has the value of the last call that set it, or that of the start. -/
def LastSet (calls : List FlagText) (flag : Flag) (start v : Setting) : Prop :=
  (v = start ∧ ∀ c ∈ calls, ∀ w, ¬ c.Sets flag w) ∨
    ∃ before c after, calls = before ++ c :: after ∧ c.Sets flag v ∧ ∀ d ∈ after, ∀ w, ¬ d.Sets flag w

end FlagText

/-- Applies flags in turn. -/
def Thresholds.applyAll (t : Thresholds) : List FlagText → List (Except LogError Unit) × Thresholds :=
  FlagText.runAll Thresholds.apply t

/-- Applies flags to the thresholds of an engine in turn. -/
def Engine.applyAll (e : Engine) : List FlagText → List (Except LogError Unit) × Engine :=
  FlagText.runAll Engine.applyFlag e

namespace Thresholds

/-- Applies one flag. -/
def call (t : Thresholds) (c : FlagText) : Except LogError Unit × Thresholds :=
  FlagText.settle t (t.apply c.name c.text)

/-- One call: what it reports depends on the call alone, and it changes nothing but what it sets. -/
theorem call_spec (t : Thresholds) (c : FlagText) :
    c.Reports (t.call c).1 ∧ (∀ flag v, c.Sets flag v → (t.call c).2.setting flag = v) ∧
      ∀ flag, (∀ v, ¬ c.Sets flag v) → (t.call c).2.setting flag = t.setting flag := by
  rw [call, apply]
  cases hname : Flag.ofName? c.name with
  | none =>
    have hunknown : ∀ flag v, ¬ c.Sets flag v := fun flag v hsets =>
      (Flag.ofName?_eq_none_iff c.name).mp hname flag hsets.1
    exact ⟨⟨hunknown, Or.inl ⟨(Flag.ofName?_eq_none_iff c.name).mp hname, rfl⟩⟩,
      fun flag v hsets => (hunknown flag v hsets).elim, fun _ _ => rfl⟩
  | some known =>
    have hknown : known.name = c.name := (Flag.ofName?_eq_some_iff c.name known).mp hname
    -- a call that sets a flag sets the one of its name
    have hsets : ∀ flag v, c.Sets flag v → flag = known := fun flag v h =>
      Flag.name_injective (h.1.trans hknown.symm)
    dsimp only
    rw [set_eq]
    cases hread : known.grammar.read known.name c.text with
    | ok v =>
      have hdenotes := (known.grammar.read_eq_ok_iff _ c.text v).mp hread
      refine ⟨⟨known, v, hknown, hdenotes⟩, fun flag w h => ?_, fun flag hno => ?_⟩
      · obtain rfl := hsets flag w h
        have hsame : v = w := by
          have hw := (flag.grammar.read_eq_ok_iff flag.name c.text w).mpr h.2
          rwa [hread, Except.ok.injEq] at hw
        exact hsame ▸ t.setting_put_self hdenotes
      · refine t.setting_put_of_ne (fun heq => ?_) v
        exact hno v ⟨heq ▸ hknown, heq ▸ hdenotes⟩
    | error error =>
      obtain ⟨hnone, hwords⟩ := (known.grammar.read_eq_error_iff _ c.text error).mp hread
      have hno : ∀ flag v, ¬ c.Sets flag v := fun flag v h => hnone v (hsets flag v h ▸ h.2)
      exact ⟨⟨hno, Or.inr ⟨known, hknown, hknown ▸ hwords⟩⟩, fun flag v h => (hno flag v h).elim,
        fun _ _ => rfl⟩

theorem call_refused (t : Thresholds) {c : FlagText} (h : ∀ flag v, ¬ c.Sets flag v) : (t.call c).2 = t :=
  ext_setting fun flag => (t.call_spec c).2.2 flag (h flag)

/-- Calls for different flags can trade places. -/
theorem call_comm (t : Thresholds) {c d : FlagText} (hne : c.name ≠ d.name) :
    ((t.call c).2.call d).2 = ((t.call d).2.call c).2 := by
  refine ext_setting fun flag => ?_
  obtain ⟨-, hset, hkept⟩ := t.call_spec c
  obtain ⟨-, hset', hkept'⟩ := (t.call d).2.call_spec c
  obtain ⟨-, hsetd, hkeptd⟩ := t.call_spec d
  obtain ⟨-, hsetd', hkeptd'⟩ := (t.call c).2.call_spec d
  by_cases hc : ∃ v, c.Sets flag v
  · obtain ⟨v, hv⟩ := hc
    have hno : ∀ w, ¬ d.Sets flag w := fun w hw => hne (hv.1.symm.trans hw.1)
    rw [hkeptd' flag hno, hset flag v hv, hset' flag v hv]
  · have hno : ∀ v, ¬ c.Sets flag v := fun v hv => hc ⟨v, hv⟩
    rw [hkept' flag hno]
    by_cases hd : ∃ v, d.Sets flag v
    · obtain ⟨v, hv⟩ := hd
      rw [hsetd' flag v hv, hsetd flag v hv]
    · have hno' : ∀ v, ¬ d.Sets flag v := fun v hv => hd ⟨v, hv⟩
      rw [hkeptd' flag hno', hkept flag hno, hkeptd flag hno']

/-! ### Runs -/

theorem applyAll_cons (t : Thresholds) (c : FlagText) (rest : List FlagText) :
    t.applyAll (c :: rest) =
      ((t.call c).1 :: ((t.call c).2.applyAll rest).1, ((t.call c).2.applyAll rest).2) := rfl

theorem applyAll_append (t : Thresholds) (before after : List FlagText) :
    (t.applyAll (before ++ after)).2 = ((t.applyAll before).2.applyAll after).2 := by
  induction before generalizing t with
  | nil => rfl
  | cons c before ih => exact ih (t.call c).2

theorem reports_applyAll (t : Thresholds) (calls : List FlagText) :
    List.Forall₂ FlagText.Reports calls (t.applyAll calls).1 := by
  induction calls generalizing t with
  | nil => exact .nil
  | cons c rest ih => exact .cons (t.call_spec c).1 (ih (t.call c).2)

theorem lastSet_applyAll (t : Thresholds) (calls : List FlagText) (flag : Flag) :
    FlagText.LastSet calls flag (t.setting flag) ((t.applyAll calls).2.setting flag) := by
  induction calls generalizing t with
  | nil => exact Or.inl ⟨rfl, fun c hc => (List.not_mem_nil hc).elim⟩
  | cons c rest ih =>
    rcases ih (t.call c).2 with ⟨hkept, hno⟩ | ⟨before, d, after, hsplit, hsets, hno⟩
    · -- nothing behind the first call sets the flag, so it is the first one or none
      obtain ⟨-, hset, hstart⟩ := t.call_spec c
      by_cases hc : ∃ v, c.Sets flag v
      · obtain ⟨v, hv⟩ := hc
        refine Or.inr ⟨[], c, rest, rfl, ?_, hno⟩
        rw [applyAll_cons, hkept, hset flag v hv]
        exact hv
      · have hfirst : ∀ v, ¬ c.Sets flag v := fun v hv => hc ⟨v, hv⟩
        exact Or.inl ⟨hkept.trans (hstart flag hfirst), List.forall_mem_cons.mpr ⟨hfirst, hno⟩⟩
    · exact Or.inr ⟨c :: before, d, after, congrArg (c :: ·) hsplit, hsets, hno⟩

/-- On an engine calls do the same to the thresholds, and nothing to the rest. -/
theorem applyAll_engine (e : Engine) (calls : List FlagText) :
    e.applyAll calls = ((e.settings.thresholds.applyAll calls).1,
      { e with settings :=
        { e.settings with thresholds := (e.settings.thresholds.applyAll calls).2 } }) := by
  induction calls generalizing e with
  | nil => rfl
  | cons c rest ih =>
    have hstep : FlagText.settle e (e.applyFlag c.name c.text) = ((e.settings.thresholds.call c).1,
        { e with settings := { e.settings with thresholds := (e.settings.thresholds.call c).2 } }) := by
      rw [call, Engine.applyFlag]
      cases e.settings.thresholds.apply c.name c.text <;> rfl
    have hrest := ih { e with settings :=
      { e.settings with thresholds := (e.settings.thresholds.call c).2 } }
    simp only [Engine.applyAll, FlagText.runAll] at hrest ⊢
    rw [hstep, hrest, applyAll_cons]

/-- Flags applied in turn, each given by any name and any text. A call succeeds if and only if there is a
flag of its name and its text denotes a value of that flag, and otherwise it reports what is wrong with it.
After the calls every setting has the value that the last successful call for its flag denotes, or its
value of the start. A call that fails could as well be left out, and neighbouring calls for different flags
could trade places. On an engine the calls report the same, its thresholds become what the calls make of
them, and nothing else changes. -/
theorem applyAll_lastSet (e : Engine) (t : Thresholds) (calls : List FlagText) :
    List.Forall₂ FlagText.Reports calls (t.applyAll calls).1 ∧
      (∀ flag, FlagText.LastSet calls flag (t.setting flag) ((t.applyAll calls).2.setting flag)) ∧
      (∀ before c after, calls = before ++ c :: after → (∀ flag v, ¬ c.Sets flag v) →
        (t.applyAll (before ++ after)).2 = (t.applyAll calls).2) ∧
      (∀ before c d after, calls = before ++ c :: d :: after → c.name ≠ d.name →
        (t.applyAll (before ++ d :: c :: after)).2 = (t.applyAll calls).2) ∧
      let (reports, after) := e.applyAll calls
      reports = (e.settings.thresholds.applyAll calls).1 ∧
        after.settings.thresholds = (e.settings.thresholds.applyAll calls).2 ∧
        after = { e with settings := { e.settings with thresholds := after.settings.thresholds } } := by
  refine ⟨t.reports_applyAll calls, t.lastSet_applyAll calls, ?_, ?_, ?_⟩
  · rintro before c after rfl hrefused
    rw [applyAll_append, applyAll_append, applyAll_cons, call_refused _ hrefused]
  · rintro before c d after rfl hne
    simp only [applyAll_append, applyAll_cons]
    rw [call_comm _ hne]
  · rw [applyAll_engine]
    exact ⟨rfl, rfl, rfl⟩

/-- Calls for an engine, some of which are not understood. -/
theorem applyAll_lastSet_mixed :
    let calls : List FlagText :=
      [⟨"v", "+007"⟩, ⟨"logtostderr", "yes"⟩, ⟨"logtostderr", "F"⟩, ⟨"v", "4294967296"⟩,
        ⟨"vmodule", "2"⟩, ⟨"stderrthreshold", " fatal "⟩, ⟨"stderrthreshold", "LOUD"⟩]
    let e := Engine.initial {} ⟨1, 1, 0, 0, 0, 0⟩ 1
    (e.applyAll calls).1 =
        [.ok (), .error (.invalidConfiguration "logtostderr" "invalid boolean value 'yes'"), .ok (),
          .error (.invalidConfiguration "v" "invalid verbosity level '4294967296'"),
          .error (.unknownFlag "vmodule"), .ok (), .error (.invalidSeverity "LOUD")] ∧
      (e.applyAll calls).2.settings.thresholds =
        { toConsole := false, consoleThreshold := .fatal, verbosity := 7 } := by
  intro calls e
  obtain ⟨-, -, -, -, hreports, hthresholds, -⟩ := applyAll_lastSet e {} calls
  exact ⟨hreports.trans (by decide +kernel), hthresholds.trans (by decide +kernel)⟩

end Thresholds

end Logline
