import Mathlib
import Logline.Proofs.ContextPairs

/-!
# The place that a record is attributed to

A root sink with a call depth attributes its records to a place further out on the call stack. The search
for it goes over the stack once: up to the first symbol at the call site, and from there on it counts
symbols until the depth is reached. A symbol without a file or without a line is passed over in both parts:
it is not at the call site, and it does not count.

`CallSite.PlaceAbove` and `CallSite.NoPlaceAbove` say what there is to be found by the parts that the stack
falls into, without the search; the two exclude each other because the search finds one thing only.

Main statement: `CallSite.emit_attributed`, on the search and on the records of a sink.
-/

namespace Logline

/-! ### Places on a stack -/

namespace StackSymbol

/-- Whether the place of a symbol is known. -/
def isLocated (s : StackSymbol) : Bool := s.file.isSome && s.line.isSome

/-- A symbol is at a place: it has its file and its line. -/
def LiesAt (s : StackSymbol) (place : CallSite) : Prop :=
  s.file = some place.file ∧ s.line = some place.line

/-- A symbol is where a call site may be met: it has the line of the call site, and the path of its file
ends with the path of the call site, part by part. -/
def Meets (s : StackSymbol) (site : CallSite) : Prop :=
  s.line = some site.line ∧ ∃ file, s.file = some file ∧ pathParts site.file <:+ pathParts file

variable {s : StackSymbol} {site place : CallSite}

theorem isSome_site? (s : StackSymbol) : s.site?.isSome = s.isLocated := by
  obtain ⟨file, line⟩ := s
  cases file <;> cases line <;> rfl

theorem site?_eq_some_iff : s.site? = some place ↔ s.LiesAt place := by
  obtain ⟨file, line⟩ := s
  obtain ⟨placeFile, placeLine⟩ := place
  cases file <;> cases line <;> simp [site?, LiesAt]

theorem isAt_iff_meets (h : s.site? = some place) : site.isAt place = true ↔ s.Meets site := by
  obtain ⟨hfile, hline⟩ := site?_eq_some_iff.mp h
  simp only [CallSite.isAt, pathEndsWith, Meets, hfile, hline, Bool.and_eq_true, beq_iff_eq,
    List.isSuffixOf_iff_suffix, Option.some.injEq, exists_eq_left']

theorem not_meets (h : s.site? = none) : ¬ s.Meets site := by
  rintro ⟨hline, file, hfile, -⟩
  have hplace : s.site? = some ⟨file, site.line⟩ := site?_eq_some_iff.mpr ⟨hfile, hline⟩
  rw [h] at hplace
  cases hplace

end StackSymbol

namespace CallSite

/-- `place` is that of the `depth`-th located symbol behind the first one that meets the call site. -/
def PlaceAbove (site : CallSite) (depth : Nat) (stack : CallStack) (place : CallSite) : Prop :=
  ∃ inner first between last outer, stack = inner ++ first :: (between ++ last :: outer) ∧
    (∀ s ∈ inner, ¬ s.Meets site) ∧ first.Meets site ∧
    between.countP StackSymbol.isLocated + 1 = depth ∧ last.LiesAt place

/-- No symbol meets the call site, or fewer than `depth` located ones are behind the first that does. -/
def NoPlaceAbove (site : CallSite) (depth : Nat) (stack : CallStack) : Prop :=
  (∀ s ∈ stack, ¬ s.Meets site) ∨
    ∃ inner first outer, stack = inner ++ first :: outer ∧ (∀ s ∈ inner, ¬ s.Meets site) ∧
      first.Meets site ∧ outer.countP StackSymbol.isLocated < depth

variable {site place : CallSite} {left depth : Nat} {stack : CallStack}

/-! ### Walking outwards -/

theorem walkUp_eq (hleft : 0 < left) (stack : CallStack) :
    walkUp left stack = (stack.filterMap StackSymbol.site?)[left - 1]? := by
  induction stack generalizing left with
  | nil => rfl
  | cons s outer ih =>
    rw [walkUp]
    cases hs : s.site? with
    | none => rw [List.filterMap_cons_none hs, ← ih hleft]
    | some found =>
      rw [List.filterMap_cons_some hs]
      rcases Nat.lt_or_ge 1 left with hmore | hlast
      · obtain ⟨k, rfl⟩ : ∃ k, left = k + 2 := ⟨left - 2, by omega⟩
        exact (if_neg (by omega)).trans (ih (Nat.succ_pos k))
      · obtain rfl : left = 1 := by omega
        rfl

theorem length_places (stack : CallStack) :
    (stack.filterMap StackSymbol.site?).length = stack.countP StackSymbol.isLocated := by
  rw [List.length_filterMap_eq_countP]
  exact List.countP_congr fun s _ => by rw [StackSymbol.isSome_site?]

/-- The places of a stack are those of its located symbols, in their order. -/
theorem getElem?_places_eq_some_iff {n : Nat} :
    (stack.filterMap StackSymbol.site?)[n]? = some place ↔
      ∃ between last outer, stack = between ++ last :: outer ∧
        between.countP StackSymbol.isLocated = n ∧ last.LiesAt place := by
  constructor
  · intro h
    obtain ⟨hlt, hplace⟩ := List.getElem?_eq_some_iff.mp h
    have hsplit := List.take_append_drop n (stack.filterMap StackSymbol.site?)
    rw [List.drop_eq_getElem_cons hlt, hplace] at hsplit
    obtain ⟨between, rest, rfl, hfront, hrest⟩ := List.filterMap_eq_append_iff.mp hsplit.symm
    obtain ⟨skipped, last, outer, rfl, hskipped, hlast, -⟩ := List.filterMap_eq_cons_iff.mp hrest
    refine ⟨between ++ skipped, last, outer, (List.append_assoc _ _ _).symm, ?_,
      StackSymbol.site?_eq_some_iff.mp hlast⟩
    rw [← length_places, List.filterMap_append, List.filterMap_eq_nil_iff.mpr hskipped, List.append_nil,
      hfront, List.length_take, min_eq_left hlt.le]
  · rintro ⟨between, last, outer, rfl, rfl, hlast⟩
    rw [List.filterMap_append, List.filterMap_cons_some (StackSymbol.site?_eq_some_iff.mpr hlast),
      ← length_places, List.getElem?_append_right le_rfl, Nat.sub_self]
    rfl

/-! ### Looking for the call site -/

theorem searchUp_of_forall_not (h : ∀ s ∈ stack, ¬ s.Meets site) : site.searchUp depth stack = none := by
  induction stack with
  | nil => rfl
  | cons s outer ih =>
    obtain ⟨hs, houter⟩ := List.forall_mem_cons.mp h
    rw [searchUp]
    cases hplace : s.site? with
    | none => exact ih houter
    | some found => exact (if_neg fun hat => hs ((StackSymbol.isAt_iff_meets hplace).mp hat)).trans (ih houter)

theorem searchUp_append {inner outer : CallStack} {first : StackSymbol} (hinner : ∀ s ∈ inner, ¬ s.Meets site)
    (hfirst : first.Meets site) :
    site.searchUp depth (inner ++ first :: outer) = walkUp depth outer := by
  induction inner with
  | nil =>
    rw [List.nil_append, searchUp]
    cases hplace : first.site? with
    | none => exact absurd hfirst (StackSymbol.not_meets hplace)
    | some found => exact if_pos ((StackSymbol.isAt_iff_meets hplace).mpr hfirst)
  | cons s inner ih =>
    obtain ⟨hs, hinner⟩ := List.forall_mem_cons.mp hinner
    rw [List.cons_append, searchUp]
    cases hplace : s.site? with
    | none => exact ih hinner
    | some found => exact (if_neg fun hat => hs ((StackSymbol.isAt_iff_meets hplace).mp hat)).trans (ih hinner)

/-- A stack has a first symbol that meets the call site, or none does. -/
theorem exists_first (site : CallSite) (stack : CallStack) :
    (∀ s ∈ stack, ¬ s.Meets site) ∨
      ∃ inner first outer, stack = inner ++ first :: outer ∧ (∀ s ∈ inner, ¬ s.Meets site) ∧
        first.Meets site := by
  classical
  cases hfind : stack.find? fun s => decide (s.Meets site) with
  | none => exact .inl (by simpa using hfind)
  | some first =>
    obtain ⟨hfirst, inner, outer, heq, hinner⟩ := List.find?_eq_some_iff_append.mp hfind
    exact .inr ⟨inner, first, outer, heq, by simpa using hinner, by simpa using hfirst⟩

/-! ### What is found -/

theorem resolveUp_of_pos (hdepth : 0 < depth) (stack : CallStack) :
    site.resolveUp depth stack = site.searchUp depth stack := if_neg hdepth.ne'

theorem resolveUp_eq_some_iff (hdepth : 0 < depth) :
    site.resolveUp depth stack = some place ↔ site.PlaceAbove depth stack place := by
  rw [resolveUp_of_pos hdepth]
  constructor
  · intro h
    rcases exists_first site stack with hnone | ⟨inner, first, outer, rfl, hinner, hfirst⟩
    · rw [searchUp_of_forall_not hnone] at h
      cases h
    · rw [searchUp_append hinner hfirst, walkUp_eq hdepth] at h
      obtain ⟨between, last, outer, rfl, hcount, hlast⟩ := getElem?_places_eq_some_iff.mp h
      exact ⟨inner, first, between, last, outer, rfl, hinner, hfirst, by omega, hlast⟩
  · rintro ⟨inner, first, between, last, outer, rfl, hinner, hfirst, hcount, hlast⟩
    rw [searchUp_append hinner hfirst, walkUp_eq hdepth]
    exact getElem?_places_eq_some_iff.mpr ⟨between, last, outer, rfl, by omega, hlast⟩

theorem resolveUp_eq_none_iff (hdepth : 0 < depth) :
    site.resolveUp depth stack = none ↔ site.NoPlaceAbove depth stack := by
  have hwalk : ∀ outer : CallStack,
      walkUp depth outer = none ↔ outer.countP StackSymbol.isLocated < depth := by
    intro outer
    rw [walkUp_eq hdepth, List.getElem?_eq_none_iff, length_places]
    omega
  rw [resolveUp_of_pos hdepth]
  constructor
  · intro h
    rcases exists_first site stack with hnone | ⟨inner, first, outer, rfl, hinner, hfirst⟩
    · exact .inl hnone
    · rw [searchUp_append hinner hfirst] at h
      exact .inr ⟨inner, first, outer, rfl, hinner, hfirst, (hwalk outer).mp h⟩
  · rintro (hnone | ⟨inner, first, outer, rfl, hinner, hfirst, hcount⟩)
    · exact searchUp_of_forall_not hnone
    · rw [searchUp_append hinner hfirst]
      exact (hwalk outer).mpr hcount

end CallSite

/-! ### Records -/

/-- A sink that is derived from a new root sink on the engine logs each record once, at the place that all
its depths, added up, come to. -/
theorem Engine.emit_onEngine (e : Engine) (ds : List Sink.Derivation) (record : LogRecord) :
    e.emit ((Sink.engine [] 0).derive ds) record =
      e.printStructured (record.site.attributed (Sink.totalDepth ds) e.stack) record.severity record.message
        [Sink.allValues ds, record.kvs ++ Sink.contextPairs ds] := by
  have hderived := (e.emit_derived [] 0 { recorder := 0 } ds record rfl rfl).1
  rwa [Nat.zero_add, List.nil_append] at hderived

/-- The search finds the place of the `depth`-th located symbol behind the first one that meets the call
site, and nothing if there is no such symbol or fewer located ones are behind it. A sink on the engine
whose depths add up to `depth` logs its records at that place, or at their own call site if there is none. -/
theorem CallSite.emit_attributed (site : CallSite) (depth : Nat) (hdepth : 0 < depth) (stack : CallStack) :
    (∀ place, site.resolveUp depth stack = some place ↔ site.PlaceAbove depth stack place) ∧
      (site.resolveUp depth stack = none ↔ site.NoPlaceAbove depth stack) ∧
      ∀ (e : Engine) (ds : List Sink.Derivation) (severity : Severity) (message : String)
        (kvs : List Value) (place : CallSite), e.stack = stack → Sink.totalDepth ds = depth →
        site.PlaceAbove depth stack place ∨ (site.NoPlaceAbove depth stack ∧ place = site) →
        e.emit ((Sink.engine [] 0).derive ds) ⟨site, severity, message, kvs⟩ =
          e.printStructured place severity message
            [Sink.allValues ds, kvs ++ Sink.contextPairs ds] := by
  refine ⟨fun place => resolveUp_eq_some_iff hdepth, resolveUp_eq_none_iff hdepth, ?_⟩
  rintro e ds severity message kvs place rfl rfl hplace
  have hattributed : site.attributed (Sink.totalDepth ds) e.stack = place := by
    rw [attributed]
    rcases hplace with habove | ⟨hnone, rfl⟩
    · rw [(resolveUp_eq_some_iff hdepth).mpr habove, Option.getD_some]
    · rw [(resolveUp_eq_none_iff hdepth).mpr hnone, Option.getD_none]
  rw [e.emit_onEngine, hattributed]

/-- A stack of a call that calls itself: its call site is there twice, the first time behind symbols of which
one has its file and another its line, and symbols without a file or a line are between the others. -/
def recursiveStack : CallStack :=
  [⟨none, some 7⟩, ⟨some "src/a.rs", some 9⟩, ⟨some "src/a.rs", none⟩, ⟨some "src/a.rs", some 7⟩,
    ⟨none, none⟩, ⟨some "src/a.rs", some 7⟩, ⟨some "src/b.rs", none⟩, ⟨some "src/main.rs", some 40⟩,
    ⟨some "rt.rs", some 1⟩]

/-- Two calls further out the record is logged as one of `main.rs`; four calls out there is no place, and its
header has its own call site. -/
theorem CallSite.emit_attributed_recursive :
    let site : CallSite := ⟨"src/a.rs", 7⟩
    let e : Engine := { Engine.initial {} ⟨1, 2, 3, 4, 5, 6⟩ 1 with stack := recursiveStack }
    0 < 2 ∧ 0 < 4 ∧ site.PlaceAbove 2 recursiveStack ⟨"src/main.rs", 40⟩ ∧
      site.NoPlaceAbove 4 recursiveStack ∧
      (e.emit ((Sink.engine [] 0).derive [.depth 1, .values [.text "k"], .offset 1])
          ⟨site, .info, "m", []⟩).2.outlets.console =
        [Text.utf8 "I0102 03:04:05.000000       1 main.rs:40] \"m\" k=\"(MISSING)\"\n"] ∧
      (e.emit ((Sink.engine [] 0).derive [.depth 4]) ⟨site, .info, "m", []⟩).2.outlets.console =
        [Text.utf8 "I0102 03:04:05.000000       1 a.rs:7] \"m\"\n"] := by
  intro site e
  have hinner : ∀ s ∈ recursiveStack.take 3, ¬ s.Meets site := by
    simp [recursiveStack, StackSymbol.Meets, site]
  have hfirst : (⟨some "src/a.rs", some 7⟩ : StackSymbol).Meets site :=
    ⟨rfl, "src/a.rs", rfl, List.suffix_rfl⟩
  have habove : site.PlaceAbove 2 recursiveStack ⟨"src/main.rs", 40⟩ :=
    ⟨recursiveStack.take 3, _, (recursiveStack.drop 4).take 3, ⟨some "src/main.rs", some 40⟩, _, rfl, hinner,
      hfirst, rfl, rfl, rfl⟩
  have hnone : site.NoPlaceAbove 4 recursiveStack :=
    .inr ⟨recursiveStack.take 3, _, recursiveStack.drop 4, rfl, hinner, hfirst, by decide⟩
  obtain ⟨-, -, hlogged⟩ := emit_attributed site 2 (by decide) recursiveStack
  obtain ⟨-, -, hkept⟩ := emit_attributed site 4 (by decide) recursiveStack
  refine ⟨by decide, by decide, habove, hnone, ?_, ?_⟩
  · rw [hlogged e _ _ _ _ _ rfl rfl (.inl habove)]
    decide +kernel
  · rw [hkept e _ _ _ _ _ rfl rfl (.inr ⟨hnone, rfl⟩)]
    decide +kernel

end Logline
