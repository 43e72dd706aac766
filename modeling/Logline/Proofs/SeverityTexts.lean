import Mathlib
import Logline.Proofs.FlagDocuments

/-!
# Texts of severities

A severity is read from its name or its number, between any white space. Letters of a name may be of either
case, and case is a matter of Unicode: the dotless i is a lower-case letter whose capital is the letter of
`INFO` and `WARNING`, so it may stand for that (`Severity.Denotes`).

The reader knows the upper case of ASCII characters and of the two others that have an ASCII capital. For
reading severities this is as good as upper-casing all of Unicode, though some characters have capitals of
several letters (`Severity.ofText_eq_upper`).

Main statement: `Severity.ofText_paths`. Wherever a text is taken for a severity, the same texts are
accepted, and for a text that is refused nothing changes.
-/

namespace Logline

open Json Text

namespace Severity

/-! ### The grammar -/

/-- Equal up to the case of ASCII letters, the second character being a capital or no letter. -/
def AsciiCase (c d : Char) : Prop := c.toUpper = d

/-- Equal up to case, the second character being a capital or no letter. -/
def LetterCase (c d : Char) : Prop := AsciiCase c d ∨ (c = 'ı' ∧ d = 'I')

/-- A text denotes a severity: between white space there is its name, up to a notion of case, or its
number. -/
def DenotesUpTo (same : Char → Char → Prop) (text : String) (s : Severity) : Prop :=
  ∃ before core after, text.toList = before ++ (core ++ after) ∧ (∀ c ∈ before, isWhiteSpace c = true) ∧
    (∀ c ∈ after, isWhiteSpace c = true) ∧
    (List.Forall₂ same core s.name.toList ∨ core = (toString s.index).toList)

/-- The texts of a severity. -/
def Denotes (text : String) (s : Severity) : Prop := DenotesUpTo LetterCase text s

/-! ### White space -/

theorem trimmed_append {before core after : List Char} (hbefore : ∀ c ∈ before, isWhiteSpace c = true)
    (hafter : ∀ c ∈ after, isWhiteSpace c = true) (hhead : ∀ c ∈ core.head?, isWhiteSpace c = false)
    (hlast : ∀ c ∈ core.getLast?, isWhiteSpace c = false) :
    trimmed (before ++ (core ++ after)) = core := by
  have hfront : (core ++ after).dropWhile isWhiteSpace = if core = [] then [] else core ++ after := by
    cases core with
    | nil => exact List.dropWhile_eq_nil_iff.mpr hafter
    | cons c core => exact dropWhile_of_head? hhead
  rw [trimmed, List.dropWhile_append_of_pos hbefore, hfront]
  split
  · next hnil => rw [hnil]; rfl
  · rw [List.reverse_append, List.dropWhile_append_of_pos (by simpa using hafter),
      dropWhile_of_head? (by simpa using hlast), List.reverse_reverse]

theorem exists_trimmed (cs : List Char) :
    ∃ before after, cs = before ++ (trimmed cs ++ after) ∧ (∀ c ∈ before, isWhiteSpace c = true) ∧
      ∀ c ∈ after, isWhiteSpace c = true := by
  refine ⟨cs.takeWhile isWhiteSpace, ((cs.dropWhile isWhiteSpace).reverse.takeWhile isWhiteSpace).reverse,
    ?_, fun c hc => List.mem_takeWhile_imp hc, fun c hc => List.mem_takeWhile_imp (List.mem_reverse.mp hc)⟩
  rw [trimmed, ← List.reverse_append, List.takeWhile_append_dropWhile, List.reverse_reverse,
    List.takeWhile_append_dropWhile]

/-! ### Capitals -/

theorem ofCapitals?_eq_some_iff (cs : List Char) (s : Severity) :
    ofCapitals? cs = some s ↔ cs = s.name.toList ∨ cs = (toString s.index).toList := by
  constructor
  · intro h
    simpa using List.find?_some h
  · rintro (rfl | rfl) <;> cases s <;> decide

theorem upperCase_of_ascii {c : Char} (h : c.toNat < 128) : upperCase c = c.toUpper := by
  have hchars : ∀ n < 128, upperCase (Char.ofNat n) = (Char.ofNat n).toUpper := by decide +kernel
  rw [← Char.ofNat_toNat (c := c)]
  exact hchars c.toNat h

theorem toUpper_of_beyond {c : Char} (h : 128 ≤ c.toNat) : c.toUpper = c := by
  have hz : ¬ c.val ≤ 'z'.val := fun hle => absurd (show c.toNat ≤ 122 from hle) (by omega)
  rw [Char.toUpper, dif_neg fun h => hz h.2]

theorem upperCase_of_beyond {c : Char} (h : 128 ≤ c.toNat) (hdotless : c ≠ 'ı') (hlong : c ≠ 'ſ') :
    upperCase c = c := by
  have hz : ¬ c ≤ 'z' := fun hle => absurd (show c.toNat ≤ 122 from hle) (by omega)
  rw [upperCase, if_neg fun h => hz h.2, if_neg hdotless, if_neg hlong]

/-- Upper-casing looks at letters up to their case, but for the long s. -/
theorem upperCase_eq_iff {c d : Char} (hd : d.toNat < 128) (hs : d ≠ 'S') :
    upperCase c = d ↔ LetterCase c d := by
  by_cases hc : c.toNat < 128
  · have hdotless : c ≠ 'ı' := by rintro rfl; exact absurd hc (by decide)
    rw [upperCase_of_ascii hc, LetterCase, AsciiCase]
    exact ⟨.inl, fun h => h.resolve_right fun h => hdotless h.1⟩
  · have hupper := toUpper_of_beyond (Nat.not_lt.mp hc)
    have hbeyond : c ≠ d := by rintro rfl; exact hc hd
    rw [LetterCase, AsciiCase, hupper]
    by_cases hdotless : c = 'ı'
    · subst hdotless
      exact ⟨fun h => .inr ⟨rfl, h.symm⟩, fun h => (h.resolve_left hbeyond).2.symm⟩
    · have hnone : ¬ (c = d ∨ c = 'ı' ∧ d = 'I') := fun h => h.elim hbeyond fun h => hdotless h.1
      by_cases hlong : c = 'ſ'
      · subst hlong
        exact ⟨fun h => (hs h.symm).elim, fun h => (hnone h).elim⟩
      · rw [upperCase_of_beyond (Nat.not_lt.mp hc) hdotless hlong]
        exact ⟨fun h => (hbeyond h).elim, fun h => (hnone h).elim⟩

theorem map_upperCase_eq_iff {core capitals : List Char} (h : ∀ d ∈ capitals, d.toNat < 128 ∧ d ≠ 'S') :
    core.map upperCase = capitals ↔ List.Forall₂ LetterCase core capitals := by
  induction core generalizing capitals with
  | nil => rw [List.map_nil, List.forall₂_nil_left_iff, eq_comm]
  | cons c core ih =>
    cases capitals with
    | nil => exact ⟨nofun, nofun⟩
    | cons d capitals =>
      obtain ⟨hd, hcapitals⟩ := List.forall_mem_cons.mp h
      rw [List.map_cons, List.cons_eq_cons, List.forall₂_cons, upperCase_eq_iff hd.1 hd.2, ih hcapitals]

/-- A digit has no case. -/
theorem letterCase_digit_iff {c d : Char} (hd : d.isDigit = true) : LetterCase c d ↔ c = d := by
  have hnotI : d ≠ 'I' := by rintro rfl; cases hd
  have hascii : ∀ n < 128, ∀ d, (Char.ofNat n).toUpper = d ∨ Char.ofNat n = d → d.isDigit = true →
      (Char.ofNat n).toUpper = Char.ofNat n := by
    have hboth : ∀ n < 128, ((Char.ofNat n).toUpper.isDigit = true ∨ (Char.ofNat n).isDigit = true) →
        (Char.ofNat n).toUpper = Char.ofNat n := by decide +kernel
    rintro n hn d (rfl | rfl) hd
    · exact hboth n hn (.inl hd)
    · exact hboth n hn (.inr hd)
  have hsame : c.toUpper = d ∨ c = d → c.toUpper = c := by
    intro h
    by_cases hc : c.toNat < 128
    · have hchar := hascii c.toNat hc d
      rw [Char.ofNat_toNat] at hchar
      exact hchar h hd
    · exact toUpper_of_beyond (Nat.not_lt.mp hc)
  constructor
  · rintro (h | ⟨-, h⟩)
    · exact (hsame (.inl h)).symm.trans h
    · exact (hnotI h).elim
  · intro h
    exact .inl ((hsame (.inr h)).trans h)

theorem upperCase_of_isWhiteSpace {c : Char} (h : isWhiteSpace c = true) : upperCase c = c := by
  have hascii : ∀ n < 128, isWhiteSpace (Char.ofNat n) = true → upperCase (Char.ofNat n) = Char.ofNat n := by
    decide +kernel
  by_cases hc : c.toNat < 128
  · have hchar := hascii c.toNat hc
    rw [Char.ofNat_toNat] at hchar
    exact hchar h
  · refine upperCase_of_beyond (Nat.not_lt.mp hc) ?_ ?_ <;> (rintro rfl; revert h; decide)

/-- What stands between white space for a severity has none at its ends, or anywhere. -/
theorem ofCapitals?_map_iff (core : List Char) (s : Severity) :
    ofCapitals? (core.map upperCase) = some s ↔
      List.Forall₂ LetterCase core s.name.toList ∨ core = (toString s.index).toList := by
  have hname : ∀ s : Severity, ∀ d ∈ s.name.toList, d.toNat < 128 ∧ d ≠ 'S' := by
    intro s d hd
    have hall : (s.name.toList.all fun d => decide (d.toNat < 128 ∧ d ≠ 'S')) = true := by
      cases s <;> decide
    exact of_decide_eq_true (List.all_eq_true.mp hall d hd)
  have hnumber : ∀ s : Severity, ∃ d, (toString s.index).toList = [d] ∧ d.isDigit = true ∧ d.toNat < 128 := by
    intro s
    cases s
    · exact ⟨'0', rfl, rfl, by decide⟩
    · exact ⟨'1', rfl, rfl, by decide⟩
    · exact ⟨'2', rfl, rfl, by decide⟩
    · exact ⟨'3', rfl, rfl, by decide⟩
  obtain ⟨d, hindex, hdigit, hascii⟩ := hnumber s
  have hs : d ≠ 'S' := by rintro rfl; cases hdigit
  rw [ofCapitals?_eq_some_iff, map_upperCase_eq_iff (hname s), hindex,
    map_upperCase_eq_iff (by simpa using ⟨hascii, hs⟩)]
  refine or_congr_right ⟨fun h => ?_, fun h => ?_⟩
  · cases h with
    | cons hfirst hrest =>
      cases hrest
      rw [(letterCase_digit_iff hdigit).mp hfirst]
  · rw [h]
    exact .cons ((letterCase_digit_iff hdigit).mpr rfl) .nil

theorem denotes_iff (text : String) (s : Severity) :
    Denotes text s ↔ ofCapitals? ((trimmed text.toList).map upperCase) = some s := by
  constructor
  · rintro ⟨before, core, after, htext, hbefore, hafter, hcore⟩
    have hcapitals := (ofCapitals?_map_iff core s).mpr hcore
    have hsolid : ∀ c ∈ core, isWhiteSpace c = false := by
      have hnone : (core.map upperCase).all (fun d => !isWhiteSpace d) = true := by
        rcases (ofCapitals?_eq_some_iff _ s).mp hcapitals with heq | heq <;> rw [heq] <;> cases s <;> decide
      intro c hc
      by_contra hwhite
      have hupper := upperCase_of_isWhiteSpace (Bool.not_eq_false _ ▸ hwhite)
      have hsolid := List.all_eq_true.mp hnone _ (List.mem_map_of_mem hc)
      rw [hupper, Bool.not_eq_true'] at hsolid
      exact hwhite hsolid
    rwa [htext, trimmed_append hbefore hafter (fun c hc => hsolid c (List.mem_of_mem_head? hc))
      fun c hc => hsolid c (List.mem_of_mem_getLast? hc)]
  · intro h
    obtain ⟨before, after, htext, hbefore, hafter⟩ := exists_trimmed text.toList
    exact ⟨before, _, after, htext, hbefore, hafter, (ofCapitals?_map_iff _ s).mp h⟩

theorem ofText_eq_ok_iff (text : String) (s : Severity) : ofText text = .ok s ↔ Denotes text s := by
  rw [denotes_iff, ofText]
  cases ofCapitals? ((trimmed text.toList).map upperCase) with
  | none => constructor <;> (intro h; cases h)
  | some t => rw [Except.ok.injEq, Option.some.injEq]

theorem ofText_of_forall_not {text : String} (h : ∀ s, ¬ Denotes text s) :
    ofText text = .error (.invalidSeverity text) := by
  cases hread : ofText text with
  | ok s => exact (h s ((ofText_eq_ok_iff text s).mp hread)).elim
  | error e =>
    rw [ofText] at hread
    split at hread <;> cases hread
    rfl

/-! ### All of Unicode -/

/-- The capitals of the ligatures and of the sharp s. -/
def ligatures : List (List Char) :=
  [['S', 'S'], ['F', 'F'], ['F', 'I'], ['F', 'L'], ['F', 'F', 'I'], ['F', 'F', 'L'], ['S', 'T']]

/-- Upper-casing of characters, as far as reading severities depends on it. A character may have a capital
of several characters. -/
structure UpperCasing (upper : Char → List Char) : Prop where
  ascii : ∀ c, c.toNat < 128 → upper c = [c.toUpper]
  dotless : upper 'ı' = ['I']
  long : upper 'ſ' = ['S']
  beyond : ∀ c, 128 ≤ c.toNat → c ≠ 'ı' → c ≠ 'ſ' → (∃ d ∈ upper c, 128 ≤ d.toNat) ∨ upper c ∈ ligatures

theorem upperCasing_upperCase : UpperCasing fun c => [upperCase c] where
  ascii _ hc := congrArg (fun c => [c]) (upperCase_of_ascii hc)
  dotless := rfl
  long := rfl
  beyond c hc hdotless hlong :=
    .inl ⟨c, List.mem_singleton.mpr (upperCase_of_beyond hc hdotless hlong).symm, hc⟩

namespace UpperCasing

variable {upper : Char → List Char} (h : UpperCasing upper)

include h

theorem eq_singleton {c : Char} (hc : c.toNat < 128 ∨ c = 'ı' ∨ c = 'ſ') : upper c = [upperCase c] := by
  rcases hc with hc | rfl | rfl
  · rw [h.ascii c hc, upperCase_of_ascii hc]
  · exact h.dotless
  · exact h.long

/-- What is written in ASCII and without ligatures is the capitals of the same texts. -/
theorem flatMap_eq_iff (core : List Char) {capitals : List Char} (hascii : ∀ d ∈ capitals, d.toNat < 128)
    (hligature : ∀ l ∈ ligatures, ¬ l <:+: capitals) :
    core.flatMap upper = capitals ↔ core.map upperCase = capitals := by
  have hsame : (∀ c ∈ core, c.toNat < 128 ∨ c = 'ı' ∨ c = 'ſ') →
      core.flatMap upper = core.map upperCase := by
    intro hcore
    rw [List.map_eq_flatMap]
    exact List.flatMap_congr fun c hc => h.eq_singleton (hcore c hc)
  constructor
  · intro hcapitals
    refine (hsame fun c hc => ?_).symm.trans hcapitals
    by_contra hother
    simp only [not_or, Nat.not_lt] at hother
    obtain ⟨before, after, rfl⟩ := List.append_of_mem hc
    rw [List.flatMap_append, List.flatMap_cons] at hcapitals
    have hpart : upper c <:+: capitals := ⟨_, _, by rw [List.append_assoc]; exact hcapitals⟩
    rcases h.beyond c hother.1 hother.2.1 hother.2.2 with ⟨d, hd, hbeyond⟩ | hmem
    · exact absurd (hascii d (hpart.subset hd)) (Nat.not_lt.mpr hbeyond)
    · exact hligature _ hmem hpart
  · intro hcapitals
    refine (hsame fun c hc => ?_).trans hcapitals
    by_contra hother
    simp only [not_or, Nat.not_lt] at hother
    have hupper := upperCase_of_beyond hother.1 hother.2.1 hother.2.2
    have hmem : c ∈ capitals := hcapitals ▸ hupper ▸ List.mem_map_of_mem hc
    exact absurd (hascii c hmem) (Nat.not_lt.mpr hother.1)

end UpperCasing

/-- Reading severities does not depend on how the rest of Unicode is upper-cased. -/
theorem ofText_eq_upper {upper : Char → List Char} (h : UpperCasing upper) (text : String) :
    ofText text =
      match ofCapitals? ((trimmed text.toList).flatMap upper) with
      | some s => .ok s
      | none => .error (.invalidSeverity text) := by
  have hcapitals : ∀ (s : Severity), ∀ capitals ∈ [s.name.toList, (toString s.index).toList],
      (trimmed text.toList).flatMap upper = capitals ↔ (trimmed text.toList).map upperCase = capitals := by
    intro s capitals hmem
    have hascii : ∀ capitals ∈ [s.name.toList, (toString s.index).toList],
        (capitals.all fun d => d.toNat < 128) = true := by cases s <;> decide
    have hligature : ∀ capitals ∈ [s.name.toList, (toString s.index).toList],
        ∀ l ∈ ligatures, ¬ l <:+: capitals := by cases s <;> decide
    exact h.flatMap_eq_iff _ (by simpa using hascii capitals hmem) (hligature capitals hmem)
  have heq : ofCapitals? ((trimmed text.toList).flatMap upper) =
      ofCapitals? ((trimmed text.toList).map upperCase) := by
    refine Option.ext fun s => ?_
    rw [ofCapitals?_eq_some_iff, ofCapitals?_eq_some_iff,
      hcapitals s _ List.mem_cons_self, hcapitals s _ (List.mem_cons_of_mem _ List.mem_cons_self)]
  rw [heq]
  rfl

/-! ### The ways to a severity -/

/-- A text is taken for a severity wherever one is wanted. -/
structure Accepted (text : String) (s : Severity) : Prop where
  flag : ∀ (flag : Flag) (t : Thresholds), flag.grammar = .severity →
    FlagText.settle t (t.apply flag.name text) = (.ok (), t.put flag (.severity s))
  engineFlag : ∀ (flag : Flag) (e : Engine), flag.grammar = .severity →
    FlagText.settle e (e.applyFlag flag.name text) =
      (.ok (), e.setThresholds (e.settings.thresholds.put flag (.severity s)))
  output : ∀ (e : Engine) (h : Handle), FlagText.settle e (e.setOutputBySeverity text h) =
    (.ok (), e.setFiles (e.settings.files.set s (some h)))
  document : ∀ doc, (Source.string text).IsText doc → FlagTable.severityOfText doc = .ok s
  member : ∀ (flag : Flag) doc, flag.grammar = .severity →
    (Source.object [(flag.name, .string text)]).IsText doc →
    FlagTable.ofText doc = .ok (FlagTable.initial.put flag (.severity s))

/-- A text is refused wherever a severity is wanted, and what it would have changed stays as it is. -/
structure Refused (text : String) : Prop where
  flag : ∀ (flag : Flag) (t : Thresholds), flag.grammar = .severity →
    FlagText.settle t (t.apply flag.name text) = (.error (.invalidSeverity text), t)
  engineFlag : ∀ (flag : Flag) (e : Engine), flag.grammar = .severity →
    FlagText.settle e (e.applyFlag flag.name text) = (.error (.invalidSeverity text), e)
  output : ∀ (e : Engine) (h : Handle), FlagText.settle e (e.setOutputBySeverity text h) =
    (.error (.invalidSeverity text), e)
  document : ∀ doc, (Source.string text).IsText doc →
    FlagTable.severityOfText doc = .error (.data (LogError.invalidSeverity text).message)
  member : ∀ (flag : Flag) members doc, flag.grammar = .severity → (flag.name, .string text) ∈ members →
    (Source.object members).IsText doc → ∃ error, FlagTable.ofText doc = .error error

theorem apply_severity {flag : Flag} (hflag : flag.grammar = .severity) (t : Thresholds) (text : String) :
    t.apply flag.name text = (ofText text).map fun s => t.put flag (.severity s) := by
  have hname := (Flag.ofName?_eq_some_iff flag.name flag).mpr rfl
  rw [Thresholds.apply, hname]
  dsimp only
  rw [Thresholds.set_eq, hflag, Grammar.read]
  cases ofText text <;> rfl

theorem severityOfText_eq {doc text : String} (h : (Source.string text).IsText doc) :
    FlagTable.severityOfText doc = (ofText text).mapError fun e => .data e.message := by
  obtain ⟨before, cs, after, hdoc, hbefore, hcs, hafter⟩ := h
  rw [FlagTable.severityOfText, hdoc, FlagTable.readSeverity, readText_string hbefore hcs]
  dsimp only
  cases ofText text with
  | ok s =>
    rw [finish]
    exact if_pos (skipBlanks_eq_nil hafter)
  | error e => rfl

theorem accepted_of_denotes {text : String} {s : Severity} (h : Denotes text s) : Accepted text s := by
  have hread := (ofText_eq_ok_iff text s).mpr h
  refine ⟨fun flag t hflag => ?_, fun flag e hflag => ?_, fun e h => ?_, fun doc hdoc => ?_,
    fun flag doc hflag hdoc => ?_⟩
  · rw [apply_severity hflag, hread]
    rfl
  · rw [Engine.applyFlag, apply_severity hflag, hread]
    rfl
  · rw [Engine.setOutputBySeverity, hread]
    rfl
  · rw [severityOfText_eq hdoc, hread]
    rfl
  · have hencodes : flag.grammar.Encodes (.string text) (.severity s) := by
      rw [hflag]
      exact hread
    have horder : List.Forall₂ Assigns [(flag.name, .string text)] [(flag, .severity s)] :=
      .cons ⟨rfl, hencodes⟩ .nil
    exact FlagTable.ofText_of_assigns hdoc horder (List.nodup_singleton flag)

theorem refused_of_forall_not {text : String} (h : ∀ s, ¬ Denotes text s) : Refused text := by
  have hread := ofText_of_forall_not h
  refine ⟨fun flag t hflag => ?_, fun flag e hflag => ?_, fun e h => ?_, fun doc hdoc => ?_,
    fun flag members doc hflag hmem hdoc => ?_⟩
  · rw [apply_severity hflag, hread]
    rfl
  · rw [Engine.applyFlag, apply_severity hflag, hread]
    rfl
  · rw [Engine.setOutputBySeverity, hread]
    rfl
  · rw [severityOfText_eq hdoc, hread]
    rfl
  · rcases FlagTable.ofText_object hdoc with ⟨table, order, -, horder, -⟩ | ⟨herror, -⟩
    · obtain ⟨a, -, hname, hencodes⟩ := exists_mem_of_forall₂ horder hmem
      rw [Flag.name_injective hname, hflag] at hencodes
      cases hvalue : a.2 with
      | severity s =>
        rw [hvalue] at hencodes
        exact (h s ((ofText_eq_ok_iff text s).mp hencodes)).elim
      | _ =>
        rw [hvalue] at hencodes
        exact hencodes.elim
    · exact herror

/-- A text is read as a severity exactly if it denotes it: without the white space around it, it is the name
of the severity, in letters of either case, or its number; a dotless i is a lower-case form of the capital I
like any other. Each other text is refused and given back as it came. As the value of a flag, as the severity
whose output is set, as a JSON string and as a member of a flag table the same texts are accepted, and
nothing changes by one that is refused. Whatever the rest of Unicode is upper-cased to, the texts are the
same. -/
theorem ofText_paths (text : String) :
    (∀ s, ofText text = .ok s ↔ Denotes text s) ∧
      ((∀ s, ¬ Denotes text s) → ofText text = .error (.invalidSeverity text)) ∧
      (∀ s, Denotes text s → Accepted text s) ∧ ((∀ s, ¬ Denotes text s) → Refused text) ∧
      ∀ upper, UpperCasing upper → ofText text =
        match ofCapitals? ((trimmed text.toList).flatMap upper) with
        | some s => .ok s
        | none => .error (.invalidSeverity text) :=
  ⟨ofText_eq_ok_iff text, ofText_of_forall_not, fun _ => accepted_of_denotes, refused_of_forall_not,
    fun _ h => ofText_eq_upper h text⟩

/-- Between white space of other scripts and a line feed, in mixed letters and one that is beyond ASCII. -/
theorem ofText_paths_spaced :
    let text := "\u2003warNıng\n"
    Denotes text .warning ∧ ofText text = .ok .warning ∧ Accepted text .warning ∧
      (∀ s, ¬ Denotes "1.0" s) ∧ Refused "1.0" ∧ (UpperCasing fun c => [upperCase c]) := by
  intro text
  have hdenotes : Denotes text .warning :=
    ⟨['\u2003'], "warNıng".toList, ['\n'], by decide, List.forall_mem_singleton.mpr rfl,
      List.forall_mem_singleton.mpr rfl,
      .inl (.cons (.inl rfl) (.cons (.inl rfl) (.cons (.inl rfl) (.cons (.inl rfl)
        (.cons (.inr ⟨rfl, rfl⟩) (.cons (.inl rfl) (.cons (.inl rfl) .nil)))))))⟩
  obtain ⟨hread, -, haccepted, -⟩ := ofText_paths text
  obtain ⟨hread', -, -, hrefused, -⟩ := ofText_paths "1.0"
  have hnone : ∀ s, ¬ Denotes "1.0" s := by
    intro s hs
    have hvalue : ofText "1.0" = .error (.invalidSeverity "1.0") := by decide
    cases hvalue.symm.trans ((hread' s).mpr hs)
  exact ⟨hdenotes, (hread .warning).mpr hdenotes, haccepted .warning hdenotes, hnone, hrefused hnone,
    upperCasing_upperCase⟩

/-- With nothing but the case of ASCII letters left open, the grammar would not have this text. -/
theorem ofText_dotless : ofText "ınfo" = .ok .info ∧ ∀ s, ¬ DenotesUpTo AsciiCase "ınfo" s := by
  refine ⟨by decide, ?_⟩
  rintro s ⟨before, core, after, htext, hbefore, hafter, hcore⟩
  have hwhite : isWhiteSpace 'ı' ≠ true := by decide
  have hmem : 'ı' ∈ before ++ (core ++ after) := htext ▸ by decide
  simp only [List.mem_append] at hmem
  rcases hmem with hmem | hmem | hmem
  · exact hwhite (hbefore _ hmem)
  · have hname : 'ı' ∉ s.name.toList ∧ 'ı' ∉ (toString s.index).toList := by cases s <;> decide
    rcases hcore with hcore | hcore
    · obtain ⟨d, hd, hcase⟩ := exists_mem_of_forall₂ hcore hmem
      have hsame : 'ı' = d := hcase
      exact hname.1 (hsame ▸ hd)
    · exact hname.2 (hcore ▸ hmem)
  · exact hwhite (hafter _ hmem)

end Severity

end Logline
