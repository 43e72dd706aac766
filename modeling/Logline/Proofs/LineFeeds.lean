import Mathlib
import Logline.Proofs.Placeholders
import Logline.Proofs.SingleLine

/-!
# Line feeds inside a record

A record may span several lines, because the texts of its pairs may. Whoever reads lines tells the first
line of a record from the others by how they start: the others start with a tab, or they are the end of a
block. Texts keep to that, since they are quoted or written as blocks.

Two things are put into the line as they are. Where a hook that writes or encodes a value fails, the text
of the failure is put between quotes (`Value.unquoted?`), unlike the placeholder of a hook that shows one.
And what an encoder writes that completes is taken for a document on one line (`Value.octets?`). So a
record keeps to the rule if and only if these texts and octets do (`isRecord_structuredLine_iff`), and a
failing hook can make a line that looks like the first line of another record (`not_isRecord_forged`).

What follows a line feed may be written by the next part, so parts are looked at with what stands behind
them (`ContinuedBefore`, `continuedBefore_append_iff`). Texts of failures are *sealed*: they end in such a
way that nothing behind them matters.
-/

namespace Logline

open Text KeyValues

/-! ### Lines of a record -/

/-- How a line that is not the first one of its record goes on: with a tab, or it is the end of a
block. -/
def IsContinuation (after : Bytes) : Prop := [0x09] <+: after ∨ [0x20, 0x3E] <+: after

/-- Every line feed is followed by a line that is not the first one of a record. -/
def Continued (bs : Bytes) : Prop := ∀ after, 0x0A :: after <:+ bs → IsContinuation after

/-- The octets end with a line feed, and every other line feed is followed by a line that is not the first
one of a record. -/
def IsRecord (line : Bytes) : Prop :=
  line.getLast? = some 0x0A ∧ ∀ after, 0x0A :: after <:+ line → after = [] ∨ IsContinuation after

/-- No line of a record but the first one starts with the letter of a severity. -/
theorem IsRecord.not_letter_prefix {line after : Bytes} (h : IsRecord line) (hafter : 0x0A :: after <:+ line)
    (severity : Severity) : ¬ encode [severity.letter] <+: after := by
  intro hletter
  rcases h.2 after hafter with rfl | ⟨rest, rfl⟩ | ⟨rest, rfl⟩
  · cases severity <;> cases List.prefix_nil.mp hletter
  · cases severity <;> cases (List.cons_prefix_cons.mp hletter).1
  · cases severity <;> cases (List.cons_prefix_cons.mp hletter).1

theorem continued_nil : Continued [] := fun after hafter => by simpa using hafter.length_le

theorem continued_cons {b : UInt8} {bs : Bytes} :
    Continued (b :: bs) ↔ (b = 0x0A → IsContinuation bs) ∧ Continued bs := by
  constructor
  · intro h
    refine ⟨?_, fun after hafter => h after (hafter.trans (List.suffix_cons b bs))⟩
    rintro rfl
    exact h bs List.suffix_rfl
  · rintro ⟨hfirst, hrest⟩ after hafter
    rcases List.suffix_cons_iff.mp hafter with heq | hafter
    · cases heq
      exact hfirst rfl
    · exact hrest after hafter

theorem continued_cons_of_ne {b : UInt8} (h : b ≠ 0x0A) {bs : Bytes} :
    Continued (b :: bs) ↔ Continued bs := by
  rw [continued_cons, and_iff_right fun heq => absurd heq h]

instance (after : Bytes) : Decidable (IsContinuation after) :=
  inferInstanceAs <| Decidable <| [0x09] <+: after ∨ [0x20, 0x3E] <+: after

instance decidableContinued : (bs : Bytes) → Decidable (Continued bs)
  | [] => .isTrue continued_nil
  | _ :: bs =>
    have := decidableContinued bs
    decidable_of_iff _ continued_cons.symm

theorem Continued.of_notMem {bs : Bytes} (h : 0x0A ∉ bs) : Continued bs :=
  fun _ hafter => absurd (hafter.subset List.mem_cons_self) h

theorem suffix_of_suffix_append {s a b : Bytes} (h : s <:+ a ++ b) :
    s <:+ b ∨ ∃ t, s = t ++ b ∧ t <:+ a := by
  obtain ⟨front, heq⟩ := h
  rcases List.append_eq_append_iff.mp heq with ⟨t, ha, hs⟩ | ⟨t, -, hb⟩
  · exact Or.inr ⟨t, hs, front, ha.symm⟩
  · exact Or.inl ⟨t, hb.symm⟩

theorem IsContinuation.append {after : Bytes} (h : IsContinuation after) (b : Bytes) :
    IsContinuation (after ++ b) :=
  h.imp (·.trans (List.prefix_append after b)) (·.trans (List.prefix_append after b))

/-- What stands behind a line that is empty, or a lone space, may make a continuation of it; of no other. -/
theorem IsContinuation.of_append {after b : Bytes} (h : IsContinuation (after ++ b)) (hnil : after ≠ [])
    (hspace : after ≠ [0x20]) : IsContinuation after := by
  match after with
  | [] => exact (hnil rfl).elim
  | [x] =>
    rcases h with h | h
    · exact .inl (by simpa using (List.cons_prefix_cons.mp h).1)
    · exact (hspace (by rw [(List.cons_prefix_cons.mp h).1])).elim
  | x :: y :: after =>
    refine h.imp (fun h => ?_) fun h => ?_
    · simpa using (List.cons_prefix_cons.mp h).1
    · obtain ⟨hx, h⟩ := List.cons_prefix_cons.mp h
      simpa [hx] using (List.cons_prefix_cons.mp h).1

theorem Continued.append {a b : Bytes} (ha : Continued a) (hb : Continued b) : Continued (a ++ b) := by
  intro after hafter
  rcases suffix_of_suffix_append hafter with hafter | ⟨t, heq, ht⟩
  · exact hb after hafter
  · rcases List.cons_eq_append_iff.mp heq with ⟨rfl, rfl⟩ | ⟨t, rfl, rfl⟩
    · exact hb after List.suffix_rfl
    · exact (ha t ht).append b

/-! ### Parts of a record -/

/-- With `behind` behind the octets, every line feed in them is followed by a line that is not the first one
of a record, or it is the last octet of all. -/
def ContinuedBefore (behind bs : Bytes) : Prop :=
  ∀ after, 0x0A :: after <:+ bs → after ++ behind = [] ∨ IsContinuation (after ++ behind)

variable {behind : Bytes}

theorem ContinuedBefore.of_notMem {bs : Bytes} (h : 0x0A ∉ bs) : ContinuedBefore behind bs :=
  fun _ hafter => absurd (hafter.subset List.mem_cons_self) h

theorem Continued.before {bs : Bytes} (h : Continued bs) : ContinuedBefore behind bs :=
  fun after hafter => .inr ((h after hafter).append behind)

theorem continuedBefore_cons {b : UInt8} {bs : Bytes} :
    ContinuedBefore behind (b :: bs) ↔
      (b = 0x0A → bs ++ behind = [] ∨ IsContinuation (bs ++ behind)) ∧ ContinuedBefore behind bs := by
  constructor
  · intro h
    refine ⟨?_, fun after hafter => h after (hafter.trans (List.suffix_cons b bs))⟩
    rintro rfl
    exact h bs List.suffix_rfl
  · rintro ⟨hfirst, hrest⟩ after hafter
    rcases List.suffix_cons_iff.mp hafter with heq | hafter
    · cases heq
      exact hfirst rfl
    · exact hrest after hafter

instance decidableContinuedBefore : (bs : Bytes) → Decidable (ContinuedBefore behind bs)
  | [] => .isTrue (.of_notMem List.not_mem_nil)
  | _ :: bs =>
    have := decidableContinuedBefore bs
    decidable_of_iff _ continuedBefore_cons.symm

/-- Of two parts, the first one is looked at with the second one behind it. -/
theorem continuedBefore_append_iff {a b : Bytes} :
    ContinuedBefore behind (a ++ b) ↔ ContinuedBefore (b ++ behind) a ∧ ContinuedBefore behind b := by
  constructor
  · intro h
    refine ⟨fun after hafter => ?_, fun after hafter => h after (hafter.trans (List.suffix_append a b))⟩
    obtain ⟨front, rfl⟩ := hafter
    have hwhole := h (after ++ b) ⟨front, by rw [List.append_assoc, List.cons_append]⟩
    rwa [List.append_assoc] at hwhole
  · rintro ⟨ha, hb⟩ after hafter
    rcases suffix_of_suffix_append hafter with hafter | ⟨t, heq, ht⟩
    · exact hb after hafter
    · rcases List.cons_eq_append_iff.mp heq with ⟨rfl, rfl⟩ | ⟨t, rfl, rfl⟩
      · exact hb after List.suffix_rfl
      · rw [List.append_assoc]
        exact ha t ht

theorem continuedBefore_append_of_notMem {a b : Bytes} (h : 0x0A ∉ a) :
    ContinuedBefore behind (a ++ b) ↔ ContinuedBefore behind b := by
  rw [continuedBefore_append_iff, and_iff_right (.of_notMem h)]

/-- A line that is ended now is a record if its line feeds are followed by continuations, except for one at
its end. -/
theorem isRecord_finishLine_iff (buf : Bytes) : IsRecord (finishLine buf) ↔ ContinuedBefore [] buf := by
  by_cases hlast : buf.getLast? = some 0x0A
  · rw [finishLine, if_pos hlast, IsRecord, and_iff_right hlast]
    simp only [ContinuedBefore, List.append_nil]
  · rw [finishLine, if_neg hlast]
    -- the line feed at the end is the one that is added; none behind which there was nothing is in `buf`
    constructor
    · rintro ⟨-, h⟩ after ⟨front, rfl⟩
      rw [List.append_nil]
      have hafter := (h (after ++ [0x0A]) ⟨front, by simp⟩).resolve_left (by simp)
      refine .inr (hafter.of_append ?_ ?_)
      · rintro rfl
        exact hlast List.getLast?_concat
      · rintro rfl
        exact absurd hafter (by decide)
    · intro h
      refine ⟨List.getLast?_concat, fun after hafter => ?_⟩
      rcases suffix_of_suffix_append hafter with hafter | ⟨t, heq, ht⟩
      · have hlength := hafter.length_le
        exact .inl (List.eq_nil_of_length_eq_zero (by simpa using hlength))
      · rcases List.cons_eq_append_iff.mp heq with ⟨-, hfeed⟩ | ⟨t, rfl, rfl⟩
        · exact .inl (List.cons.inj hfeed).2.symm
        · obtain ⟨front, rfl⟩ := ht
          have ht := h t ⟨front, rfl⟩
          rw [List.append_nil] at ht
          rcases ht with rfl | ht
          · exact (hlast List.getLast?_concat).elim
          · exact .inr (ht.append [0x0A])

/-! ### Sealed parts -/

/-- The octets end neither with a line feed nor with a line feed and a space. -/
def Sealed (bs : Bytes) : Prop := ¬ [0x0A] <:+ bs ∧ ¬ [0x0A, 0x20] <:+ bs

theorem sealed_of_suffix {b : UInt8} {bs : Bytes} (hb : b ≠ 0x0A ∧ b ≠ 0x20) (h : [b] <:+ bs) :
    Sealed bs := by
  obtain ⟨front, rfl⟩ := h
  constructor
  · rintro ⟨other, heq⟩
    exact hb.1 (by simpa using (List.append_inj_right' heq rfl).symm)
  · rintro ⟨other, heq⟩
    rw [List.append_cons other] at heq
    exact hb.2 (by simpa using (List.append_inj_right' heq rfl).symm)

/-- What stands behind a sealed part does not make a line of it a continuation. -/
theorem Sealed.continuedBefore_iff {bs : Bytes} (h : Sealed bs) :
    ContinuedBefore behind bs ↔ Continued bs := by
  refine ⟨fun hbefore after hafter => ?_, Continued.before⟩
  have hnil : after ≠ [] := by
    rintro rfl
    exact h.1 hafter
  refine ((hbefore after hafter).resolve_left (by simp [hnil])).of_append hnil ?_
  rintro rfl
  exact h.2 hafter

/-! ### Texts -/

theorem lineFeed_notMem_encode {cs : List Char} (h : '\n' ∉ cs) : 0x0A ∉ encode cs :=
  fun hmem => h ((mem_encode_iff (by decide)).mp hmem)

theorem continued_encode_blockFrom (cs : List Char) : Continued (encode (blockFrom cs)) := by
  have hend : Continued (encode ['\n', ' ', '>']) := by
    change Continued (0x0A :: [0x20, 0x3E])
    rw [continued_cons]
    exact ⟨fun _ => Or.inr ⟨[], rfl⟩, .of_notMem (by decide)⟩
  induction cs using blockFrom.induct with
  | case1 => exact hend
  | case2 => exact hend
  | case3 cs hne ih =>
    rw [blockFrom.eq_3 cs hne]
    change Continued (0x0A :: 0x09 :: encode (blockFrom cs))
    rw [continued_cons, continued_cons_of_ne (by decide)]
    exact ⟨fun _ => Or.inl ⟨_, rfl⟩, ih⟩
  | case4 c cs _ hc ih =>
    have hchar : 0x0A ∉ String.utf8EncodeChar c := by
      have hnotMem : 0x0A ∉ encode [c] := lineFeed_notMem_encode fun h => hc (List.mem_singleton.mp h).symm
      simpa using hnotMem
    rw [blockFrom.eq_4 c cs ‹_› hc, encode_cons]
    exact Continued.append (.of_notMem hchar) ih

theorem continued_textValue (s : String) : Continued (textValue s) := by
  rw [textValue, valueChars]
  split_ifs with hlines
  · change Continued (0x3D :: 0x3C :: 0x0A :: 0x09 :: encode (blockFrom s.toList))
    rw [continued_cons_of_ne (by decide), continued_cons_of_ne (by decide), continued_cons,
      continued_cons_of_ne (by decide)]
    exact ⟨fun _ => Or.inl ⟨_, rfl⟩, continued_encode_blockFrom s.toList⟩
  · have hquoted : '\n' ∉ '=' :: quotedChars s.toList := by
      simpa using lineFeed_notMem_quotedChars s.toList
    exact .of_notMem (lineFeed_notMem_encode hquoted)

/-! ### What is put into the line as it is -/

namespace Value

/-- The octets of an encoder that completes, which are written as they are. -/
def completed? : Value → Option Bytes
  | .encoded (.completes octets) => some octets
  | _ => none

/-- The octets that an encoder of the value, or of the one that it stands for, writes as they are. -/
def octets? : Value → Option Bytes
  | .marshal _ none v => v.completed?
  | v => v.completed?

/-- The hook that is run to write the value, if there is one. -/
def writer? : Value → Option WriteHook
  | .written h => some h
  | .marshal _ none (.written h) => some h
  | _ => none

end Value

/-- The line feeds in octets keep to the rule if and only if those of the text `raw` and of the octets
`encoded` do, if there are any. Nothing that stands behind the octets matters for the text. -/
def FeedsIn (raw : Option String) (encoded : Option Bytes) (bs : Bytes) : Prop :=
  ∀ behind, ContinuedBefore behind bs ↔
    (∀ text ∈ raw, Continued (utf8 text)) ∧ ∀ octets ∈ encoded, ContinuedBefore behind octets

theorem FeedsIn.of_continued {bs : Bytes} (h : Continued bs) : FeedsIn none none bs :=
  fun _ => iff_of_true h.before ⟨nofun, nofun⟩

theorem FeedsIn.of_notMem {bs : Bytes} (h : 0x0A ∉ bs) : FeedsIn none none bs :=
  .of_continued (.of_notMem h)

/-- Octets without a line feed in front make no difference. -/
theorem FeedsIn.append {raw : Option String} {encoded : Option Bytes} {front bs : Bytes}
    (hfront : 0x0A ∉ front) (h : FeedsIn raw encoded bs) : FeedsIn raw encoded (front ++ bs) := fun behind =>
  (continuedBefore_append_of_notMem hfront).trans (h behind)

theorem FeedsIn.encoded (octets : Bytes) : FeedsIn none (some octets) (0x3D :: octets) := by
  have hequals : 0x0A ∉ [(0x3D : UInt8)] := by decide
  refine FeedsIn.append hequals fun behind => ?_
  simp

/-- A text that ends with a mark, as all placeholders do, is put between quotes as it is. -/
theorem FeedsIn.placeholder (text : String) :
    FeedsIn (some (text ++ ">")) none (0x3D :: utf8 ("\"" ++ (text ++ ">") ++ "\"")) := by
  have hparts : 0x3D :: utf8 ("\"" ++ (text ++ ">") ++ "\"") =
      [0x3D, 0x22] ++ (utf8 (text ++ ">") ++ [0x22]) := by
    simp only [utf8, String.toList_append, encode_append, List.append_assoc]
    rfl
  have hmark : Sealed (utf8 (text ++ ">")) := by
    refine sealed_of_suffix (b := 0x3E) (by decide) ⟨utf8 text, ?_⟩
    rw [utf8, utf8, String.toList_append, encode_append]
    rfl
  have hquote : 0x0A ∉ [(0x22 : UInt8)] := by decide
  rw [hparts]
  refine FeedsIn.append (by decide) fun behind => ?_
  rw [continuedBefore_append_iff, and_iff_left (.of_notMem hquote), hmark.continuedBefore_iff]
  simp

theorem value_writeAny_of_complete {v : Value} {written : Bytes}
    (h : (Formatter.encodeValue v).value = (written, none)) :
    (({} : Formatter).writeAny [] v).value = 0x3D :: written := by
  simp only [Formatter.writeAny, Traced.value_bind, h, Traced.value_pure]
  rfl

theorem feedsIn_writeAny {v : Value} (hhook : ∀ h, v = .written h → h.panic = none → 0x0A ∉ h.written) :
    FeedsIn v.unencoded? v.completed? (({} : Formatter).writeAny [] v).value := by
  have hjson : ∀ cs : List Char, '\n' ∉ cs → 0x0A ∉ 0x3D :: encode cs := fun cs h =>
    List.not_mem_cons_of_ne_of_not_mem (by decide) (lineFeed_notMem_encode h)
  cases v with
  | null => exact .of_notMem (hjson _ (Json.lineFeed_notMem_chars .null))
  | bool b => exact .of_notMem (hjson _ (Json.lineFeed_notMem_chars (.bool b)))
  | int i => exact .of_notMem (hjson _ (Json.lineFeed_notMem_chars (.integer i)))
  | nat n => exact .of_notMem (hjson _ (Json.lineFeed_notMem_chars (.integer n)))
  | float x =>
    refine .of_notMem ?_
    by_cases hfinite : x.isFinite
    · have hwritten : (Formatter.encodeValue (.float x)).value = (encode (Json.chars (.float x)), none) := by
        rw [Formatter.encodeValue, if_pos hfinite, Traced.value_pure]
      rw [value_writeAny_of_complete hwritten]
      exact hjson _ (Json.lineFeed_notMem_chars (.float x))
    · have hfailure : (Formatter.encodeValue (.float x)).value.2 =
          some ("json: unsupported value: " ++ Formatter.nonFiniteName x) := by
        rw [Formatter.encodeValue, if_neg hfinite, Traced.value_pure]
      rw [Formatter.value_writeAny_of_failure rfl hfailure, Formatter.nonFiniteName]
      split_ifs <;> decide
  | text s => exact .of_notMem (hjson _ (Json.lineFeed_notMem_stringChars s))
  | bytes bs => exact .of_notMem (hjson _ (Json.lineFeed_notMem_chars _))
  | json v => exact .of_notMem (hjson _ (Json.lineFeed_notMem_chars v))
  | encoded e =>
    cases e with
    | completes written =>
      rw [value_writeAny_of_complete rfl]
      exact .encoded written
    | stops written failure =>
      rw [Formatter.value_writeAny_of_failure rfl rfl]
      exact .placeholder _
  | shown h => exact .of_notMem (hjson _ (Json.lineFeed_notMem_stringChars _))
  | fault f => exact .of_notMem (hjson _ (Json.lineFeed_notMem_stringChars _))
  | marshal probe panic v => exact .of_notMem (hjson _ (Json.lineFeed_notMem_stringChars _))
  | written h =>
    cases hpanic : h.panic with
    | none =>
      have hwritten : (Formatter.encodeValue (.written h)).value = (h.written, none) := by
        simp only [Formatter.encodeValue, Traced.value_bind, Traced.value_pure, hpanic, Option.map_none]
      rw [Value.unencoded?, hpanic, value_writeAny_of_complete hwritten]
      exact .of_notMem (List.not_mem_cons_of_ne_of_not_mem (by decide) (hhook h rfl hpanic))
    | some p =>
      have hfailure : (Formatter.encodeValue (.written h)).value.2 = some p.placeholder := by
        simp only [Formatter.encodeValue, Traced.value_bind, Traced.value_pure, hpanic, Option.map_some]
      rw [Value.unencoded?, hpanic, Formatter.value_writeAny_of_failure rfl hfailure]
      exact .placeholder _

theorem continued_valueBytes_fault {key : Bytes} (hkey : 0x0A ∉ key) (fault : Fault) :
    Continued (({} : Formatter).valueBytes key (.fault fault)) := by
  have hjson : ∀ v : Json, 0x0A ∉ (({} : Formatter).writeAny [] (.json v)).value := fun v =>
    List.not_mem_cons_of_ne_of_not_mem (by decide) (lineFeed_notMem_encode (Json.lineFeed_notMem_chars v))
  have happend := fun buf (v : Value) => (Formatter.appends_writeAny {} v buf).1
  simp only [Formatter.valueBytes, Formatter.writeValue, Formatter.writeFault, Traced.value_bind,
    List.nil_append]
  split
  · exact continued_textValue _
  · rw [happend]
    have htext := continued_textValue (Formatter.showGuarded fault.shown).value
    have hkeyed := (htext.append (.of_notMem (by decide : 0x0A ∉ utf8 " "))).append (.of_notMem hkey)
    have hnamed := hkeyed.append (.of_notMem (by decide : 0x0A ∉ utf8 "Details"))
    exact hnamed.append (.of_notMem (hjson _))

theorem feedsIn_valueBytes {key : Bytes} (hkey : 0x0A ∉ key) {v : Value}
    (hhook : ∀ h, v.writer? = some h → h.panic = none → 0x0A ∉ h.written) :
    FeedsIn v.unquoted? v.octets? (({} : Formatter).valueBytes key v) := by
  have hequals : utf8 "=" = [0x3D] := by decide
  cases v with
  | text s => exact .of_continued (continued_textValue s)
  | shown h => exact .of_continued (continued_textValue _)
  | bytes bs =>
    have hquoted : '\n' ∉ '=' :: '"' :: (bs.flatMap octetChars ++ ['"']) := by
      simp [lineFeed_notMem_octetChars]
    exact .of_notMem (lineFeed_notMem_encode hquoted)
  | fault fault => exact .of_continued (continued_valueBytes_fault hkey fault)
  | marshal probe panic v =>
    cases panic with
    | some p => exact .of_continued (continued_textValue _)
    | none =>
      have hany : FeedsIn v.unencoded? v.completed? (({} : Formatter).writeAny [] v).value :=
        feedsIn_writeAny fun h heq => hhook h (heq ▸ rfl)
      cases v with
      | text s => exact .of_continued (continued_textValue s)
      | _ => exact hany
  | written h =>
    cases hpanic : h.panic with
    | none =>
      have hwritten : ({} : Formatter).valueBytes key (.written h) = 0x3D :: h.written := by
        simp only [Formatter.valueBytes, Formatter.writeValue, Formatter.writeWritten, Traced.value_bind,
          hpanic, Traced.value_pure, hequals]
        rfl
      rw [Value.unquoted?, hpanic, hwritten]
      exact .of_notMem (List.not_mem_cons_of_ne_of_not_mem (by decide) (hhook h rfl hpanic))
    | some p =>
      have hfailure : ({} : Formatter).valueBytes key (.written h) =
          0x3D :: utf8 ("\"" ++ p.placeholder ++ "\"") := by
        simp only [Formatter.valueBytes, Formatter.writeValue, Formatter.writeWritten, Traced.value_bind,
          hpanic, Traced.value_pure, hequals]
        rfl
      rw [Value.unquoted?, hpanic, hfailure]
      exact .placeholder _
  | _ => exact feedsIn_writeAny (by rintro h ⟨⟩)

theorem feedsIn_rendering {pair : Value × Value} (hkey : 0x0A ∉ Formatter.keyBytes pair.1)
    (hhook : ∀ h, pair.2.writer? = some h → h.panic = none → 0x0A ∉ h.written) :
    FeedsIn pair.2.unquoted? pair.2.octets? (({} : Formatter).rendering pair).bytes := by
  have hfront : 0x0A ∉ 0x20 :: Formatter.keyBytes pair.1 :=
    List.not_mem_cons_of_ne_of_not_mem (by decide) hkey
  exact (feedsIn_valueBytes hkey hhook).append hfront

/-! ### What stands behind a survivor -/

/-- The octets of the survivors behind the `i`-th rendering. -/
def behindSurvivor (rs : List Rendering) (i : Nat) : Bytes :=
  (((List.range rs.length).filter fun j => i < j ∧ Survives rs j).filterMap fun j => rs[j]?).flatMap
    Rendering.bytes

/-- Renderings at ascending positions keep to the rule if each does, with the later ones behind it. -/
theorem continuedBefore_filterMap_iff (rs : List Rendering) {positions : List Nat}
    (h : positions.Pairwise (· < ·)) :
    ContinuedBefore behind ((positions.filterMap fun j => rs[j]?).flatMap Rendering.bytes) ↔
      ∀ i ∈ positions, ∀ r ∈ rs[i]?,
        ContinuedBefore
          ((((positions.filter (i < ·)).filterMap fun j => rs[j]?).flatMap Rendering.bytes) ++ behind)
          r.bytes := by
  induction positions with
  | nil => exact iff_of_true (.of_notMem List.not_mem_nil) nofun
  | cons i rest ih =>
    obtain ⟨hfirst, hrest⟩ := List.pairwise_cons.mp h
    have hbehind : (i :: rest).filter (i < ·) = rest := by
      rw [List.filter_cons_of_neg (by simp), List.filter_eq_self]
      exact fun j hj => decide_eq_true (hfirst j hj)
    have hlater : ∀ j ∈ rest, (i :: rest).filter (j < ·) = rest.filter (j < ·) := fun j hj =>
      List.filter_cons_of_neg (by simpa using (hfirst j hj).le)
    rw [List.forall_mem_cons, hbehind]
    refine Iff.trans ?_ (and_congr_right fun _ => (ih hrest).trans (forall₂_congr fun j hj => by rw [hlater j hj]))
    cases hget : rs[i]? with
    | none => simp [hget]
    | some r => simp [hget, continuedBefore_append_iff]

theorem continuedBefore_survivors_iff (rs : List Rendering) :
    ContinuedBefore [] ((survivors rs).flatMap Rendering.bytes) ↔
      ∀ i r, rs[i]? = some r → Survives rs i → ContinuedBefore (behindSurvivor rs i) r.bytes := by
  have hascending : ((List.range rs.length).filter fun i => Survives rs i).Pairwise (· < ·) :=
    List.pairwise_lt_range.filter _
  rw [survivors, continuedBefore_filterMap_iff rs hascending]
  have hbehind : ∀ i, (((((List.range rs.length).filter fun j => Survives rs j).filter (i < ·)).filterMap
      fun j => rs[j]?).flatMap Rendering.bytes) ++ [] = behindSurvivor rs i := by
    intro i
    rw [List.append_nil, List.filter_filter, behindSurvivor]
    simp only [Bool.decide_and]
  simp only [hbehind, List.mem_filter, List.mem_range, decide_eq_true_eq, Option.mem_def]
  constructor
  · intro h i r hr hi
    exact h i ⟨(List.getElem?_eq_some_iff.mp hr).1, hi⟩ r hr
  · rintro h i ⟨-, hi⟩ r hr
    exact h i r hr hi

/-! ### Structured lines -/

/-- A structured line with its header, ended. -/
def structuredLine (severity : Severity) (stamp : Stamp) (pid : Nat) (site : CallSite) (message : String)
    (lists : List (List Value)) : Bytes :=
  finishLine (({} : Formatter).writeStructured (header severity stamp pid site) message lists).value

/-- If the file name and the keys are on one line, and the hooks that write values and complete write no
line feed, then a structured line is a record if and only if what is put into it as it is keeps to the
rule: all texts of failures that are not quoted, and all octets of encoders that complete, with the rest of
the line behind them. Then no line of it but the first starts with the letter of a severity. -/
theorem isRecord_structuredLine_iff (severity : Severity) (stamp : Stamp) (pid : Nat) (site : CallSite)
    (message : String) (lists : List (List Value)) (hsite : '\n' ∉ site.basename.toList)
    (hkeys : ∀ pair ∈ lists.flatMap completePairs, 0x0A ∉ Formatter.keyBytes pair.1)
    (hhooks : ∀ pair ∈ lists.flatMap completePairs, ∀ h, pair.2.writer? = some h → h.panic = none →
      0x0A ∉ h.written) :
    let rendered := (lists.flatMap completePairs).map ({} : Formatter).rendering
    (IsRecord (structuredLine severity stamp pid site message lists) ↔
      ∀ i pair, (lists.flatMap completePairs)[i]? = some pair → Survives rendered i →
        (∀ text, pair.2.unquoted? = some text → Continued (utf8 text)) ∧
          ∀ octets, pair.2.octets? = some octets → ContinuedBefore (behindSurvivor rendered i) octets) ∧
      (IsRecord (structuredLine severity stamp pid site message lists) →
        ∀ after, 0x0A :: after <:+ structuredLine severity stamp pid site message lists →
          ∀ other : Severity, ¬ encode [other.letter] <+: after) := by
  intro rendered
  have hfront : 0x0A ∉ header severity stamp pid site ++ quoted message := by
    rw [List.mem_append, not_or]
    exact ⟨lineFeed_notMem_encode (lineFeed_notMem_headerChars severity stamp pid hsite),
      lineFeed_notMem_encode (lineFeed_notMem_quotedChars message.toList)⟩
  refine ⟨?_, fun h after hafter other => h.not_letter_prefix hafter other⟩
  rw [structuredLine, Formatter.writeStructured, Formatter.value_writeLists, isRecord_finishLine_iff,
    continuedBefore_append_of_notMem hfront, continuedBefore_survivors_iff]
  have hfeeds : ∀ {i pair}, (lists.flatMap completePairs)[i]? = some pair →
      FeedsIn pair.2.unquoted? pair.2.octets? (({} : Formatter).rendering pair).bytes := fun hpair =>
    feedsIn_rendering (hkeys _ (List.mem_of_getElem? hpair)) (hhooks _ (List.mem_of_getElem? hpair))
  constructor
  · intro h i pair hpair hi
    exact (hfeeds hpair _).mp (h i _ (by rw [List.getElem?_map, hpair]; rfl) hi)
  · intro h i r hr hi
    rw [List.getElem?_map, Option.map_eq_some_iff] at hr
    obtain ⟨pair, hpair, rfl⟩ := hr
    exact (hfeeds hpair _).mpr (h i pair hpair hi)

/-- Lists with a text and a panic that would make a line of their own, a failure whose text goes on with a
tab, a panicking hook whose pair does not survive, and two encoders that write line feeds: one goes on with
a tab, the other stands at the end of the line. -/
def guardedFeeds : List (List Value) :=
  [[.text "a", .written ⟨[], some (.message "x\nE0102")⟩, .text "b", .text "1\nE0102",
    .text "c", .shown ⟨none, "", .panics (.message "2\nE0102")⟩,
    .text "d", .encoded (.stops [] (.error "3\n\tE0102")), .text "a", .nat 1,
    .text "e", .encoded (.completes (utf8 "[4,\n\t5]")), .text "f", .encoded (.completes (utf8 "6\n"))]]

theorem isRecord_structuredLine_guardedFeeds :
    '\n' ∉ (⟨"a.rs", 7⟩ : CallSite).basename.toList ∧
      (∀ pair ∈ guardedFeeds.flatMap completePairs, 0x0A ∉ Formatter.keyBytes pair.1) ∧
      (∀ pair ∈ guardedFeeds.flatMap completePairs, ∀ h, pair.2.writer? = some h → h.panic = none →
        0x0A ∉ h.written) ∧
      IsRecord (structuredLine .info ⟨1, 2, 3, 4, 5, 6000⟩ 1 ⟨"a.rs", 7⟩ "m\nE0102" guardedFeeds) := by
  have hsite : '\n' ∉ (⟨"a.rs", 7⟩ : CallSite).basename.toList := by decide +kernel
  have hkeys : ∀ pair ∈ guardedFeeds.flatMap completePairs, 0x0A ∉ Formatter.keyBytes pair.1 := by
    decide +kernel
  have hhooks : ∀ pair ∈ guardedFeeds.flatMap completePairs, ∀ h, pair.2.writer? = some h →
      h.panic = none → 0x0A ∉ h.written := by
    refine List.forall_mem_cons.mpr ⟨?_, List.forall_mem_cons.mpr ⟨?_, List.forall_mem_cons.mpr ⟨?_,
      List.forall_mem_cons.mpr ⟨?_, List.forall_mem_cons.mpr ⟨?_, List.forall_mem_cons.mpr ⟨?_,
      List.forall_mem_singleton.mpr ?_⟩⟩⟩⟩⟩⟩ <;>
      rintro h hwriter hpanic <;> cases hwriter
    cases hpanic
  refine ⟨hsite, hkeys, hhooks, (isRecord_structuredLine_iff .info ⟨1, 2, 3, 4, 5, 6000⟩ 1 _ _ _
    hsite hkeys hhooks).1.mpr ?_⟩
  intro i pair hpair hi
  match i with
  | 0 => exact absurd hi (by decide +kernel)
  | 1 | 2 | 4 =>
    cases hpair
    exact ⟨nofun, nofun⟩
  | 3 =>
    cases hpair
    refine ⟨?_, nofun⟩
    rintro text ⟨⟩
    decide +kernel
  | 5 =>
    cases hpair
    refine ⟨nofun, ?_⟩
    rintro octets ⟨⟩
    decide +kernel
  | 6 =>
    cases hpair
    refine ⟨nofun, ?_⟩
    rintro octets ⟨⟩
    decide +kernel
  | n + 7 => cases hpair

/-- A list with a hook that writes half of its value and panics with a text of two lines. -/
def forged : List (List Value) :=
  [[.text "k", .written ⟨utf8 "half", some (.message "a\nE0102 x")⟩]]

/-- A hook can forge the start of another record: its keys and its file are on one line, and no hook
completes, but a line of the record starts with the letter of a severity. -/
theorem not_isRecord_forged :
    '\n' ∉ (⟨"a.rs", 7⟩ : CallSite).basename.toList ∧
      (∀ pair ∈ forged.flatMap completePairs, 0x0A ∉ Formatter.keyBytes pair.1) ∧
      (∀ pair ∈ forged.flatMap completePairs, ∀ h, pair.2.writer? = some h → h.panic = none →
        0x0A ∉ h.written) ∧
      0x0A :: utf8 "E0102 x>\"\n" <:+
        structuredLine .info ⟨1, 2, 3, 4, 5, 6000⟩ 1 ⟨"a.rs", 7⟩ "m" forged ∧
      ¬ IsRecord (structuredLine .info ⟨1, 2, 3, 4, 5, 6000⟩ 1 ⟨"a.rs", 7⟩ "m" forged) := by
  have hsuffix : 0x0A :: utf8 "E0102 x>\"\n" <:+
      structuredLine .info ⟨1, 2, 3, 4, 5, 6000⟩ 1 ⟨"a.rs", 7⟩ "m" forged := by
    decide +kernel
  refine ⟨by decide +kernel, by decide +kernel, ?_, hsuffix, fun h => ?_⟩
  · refine List.forall_mem_singleton.mpr fun h hwriter hpanic => ?_
    cases hwriter
    cases hpanic
  · exact h.not_letter_prefix hsuffix .error (by decide +kernel)

end Logline
