import Mathlib
import Logline.Line
import Logline.Proofs.Literal

/-!
# What stays on one line

Most of what is written has no line feed, whatever it is made of: numbers, headers, quoted texts and
octets, and JSON. Quoting and JSON escape the line feeds of the texts in them, and numbers have none. So
the only line feeds are those of blocks, and those in what hooks write themselves.
-/

namespace Logline

namespace Text

/-! ### Numbers -/

theorem lineFeed_notMem_toDigits {base : Nat} (hbase : 1 < base) (n : Nat) :
    '\n' ∉ Nat.toDigits base n := by
  induction n using Nat.strong_induction_on with
  | _ n ih =>
    rw [Nat.toDigits_eq_if hbase]
    split_ifs with hlt
    · simp
    · have hdiv : n / base < n := Nat.div_lt_self (by omega) hbase
      rw [List.mem_append, not_or]
      exact ⟨ih _ hdiv, by simp⟩

theorem lineFeed_notMem_padded (width : Nat) {fill : Char} (hfill : fill ≠ '\n') {content : List Char}
    (h : '\n' ∉ content) : '\n' ∉ padded width fill content := by
  rw [padded, List.leftpad, List.mem_append, not_or]
  exact ⟨fun hmem => hfill (List.eq_of_mem_replicate hmem).symm, h⟩

theorem lineFeed_notMem_decimal (n : Nat) : '\n' ∉ decimal n :=
  lineFeed_notMem_toDigits (by decide) n

theorem lineFeed_notMem_signedDecimal (i : Int) : '\n' ∉ signedDecimal i := by
  cases i with
  | ofNat n => exact lineFeed_notMem_decimal n
  | negSucc n => simpa [signedDecimal] using lineFeed_notMem_decimal (n + 1)

theorem lineFeed_notMem_hexadecimal (width n : Nat) : '\n' ∉ hexadecimal width n :=
  lineFeed_notMem_padded width (by decide) (lineFeed_notMem_toDigits (by decide) n)

/-! ### Quoted texts and octets -/

theorem lineFeed_notMem_quotedChar (c : Char) : '\n' ∉ quotedChar c := by
  rw [quotedChar]
  split
  · next letter hletter =>
    unfold shortEscape at hletter
    split at hletter <;> cases hletter <;> decide
  · next hnone =>
    split
    · rw [List.mem_singleton]
      rintro rfl
      cases hnone
    · unfold numberEscape
      split_ifs <;> simpa using lineFeed_notMem_hexadecimal _ _

theorem lineFeed_notMem_quotedChars (cs : List Char) : '\n' ∉ quotedChars cs := by
  simp [quotedChars, lineFeed_notMem_quotedChar]

theorem lineFeed_notMem_octetChars (b : UInt8) : '\n' ∉ octetChars b := by
  unfold octetChars
  split_ifs with htab hfeed hreturn hmark hgraphic
  · decide
  · decide
  · decide
  · simp only [Bool.or_eq_true, beq_iff_eq] at hmark
    rcases hmark with (rfl | rfl) | rfl <;> decide
  · rw [List.mem_singleton]
    simp only [Bool.and_eq_true, decide_eq_true_eq, UInt8.le_iff_toNat_le] at hgraphic
    intro heq
    have hten := congrArg Char.toNat heq
    rw [toNat_ofNat_of_ascii (lt_of_le_of_lt hgraphic.2 (by decide))] at hten
    exact absurd hgraphic.1 (by rw [← hten]; decide)
  · simpa using lineFeed_notMem_hexadecimal 2 b.toNat

end Text

open Text

/-! ### Floating point numbers -/

namespace Decimal

theorem lineFeed_notMem_positionalChars {layout : Layout} (hend : '\n' ∉ layout.integerEnd)
    {digits : List Char} (h : '\n' ∉ digits) (point : Int) :
    '\n' ∉ positionalChars layout digits point := by
  unfold positionalChars
  split_ifs
  · simp [h]
  · simp [h, hend]
  · simp only [List.mem_append, List.mem_cons, not_or]
    exact ⟨fun hmem => h (List.mem_of_mem_take hmem), by decide, fun hmem => h (List.mem_of_mem_drop hmem)⟩

theorem lineFeed_notMem_exponentChars {digits : List Char} (h : '\n' ∉ digits) (exponent : Int) :
    '\n' ∉ exponentChars digits exponent := by
  have hexponent := lineFeed_notMem_decimal exponent.natAbs
  unfold exponentChars
  split <;> split_ifs <;> simp_all

theorem lineFeed_notMem_chars {layout : Layout} (hend : '\n' ∉ layout.integerEnd) (x : Binary64) :
    '\n' ∉ chars layout x := by
  have hsign : '\n' ∉ signChars x := by
    unfold signChars
    split_ifs <;> simp
  unfold chars
  split
  · next d _ =>
    rw [List.mem_append, not_or]
    refine ⟨hsign, ?_⟩
    unfold Scientific.chars
    dsimp only
    split_ifs
    · exact lineFeed_notMem_positionalChars hend (lineFeed_notMem_decimal d.digits) _
    · exact lineFeed_notMem_exponentChars (lineFeed_notMem_decimal d.digits) _
  · simp [hsign, hend]

end Decimal

/-! ### JSON -/

namespace Json

theorem lineFeed_notMem_stringChar (c : Char) : '\n' ∉ stringChar c := by
  unfold stringChar
  split_ifs
  iterate 7 decide
  · simpa using lineFeed_notMem_hexadecimal 4 c.toNat
  · rw [List.mem_singleton]
    rintro rfl
    contradiction

theorem lineFeed_notMem_stringChars (s : String) : '\n' ∉ stringChars s := by
  simp [stringChars, lineFeed_notMem_stringChar]

theorem lineFeed_notMem_floatChars (x : Binary64) : '\n' ∉ floatChars x := by
  unfold floatChars
  split_ifs
  · exact Decimal.lineFeed_notMem_chars (by decide) x
  · simp

mutual

theorem lineFeed_notMem_chars : ∀ v : Json, '\n' ∉ chars v
  | .null => by simp [chars]
  | .bool b => by cases b <;> simp [chars]
  | .integer i => lineFeed_notMem_signedDecimal i
  | .float x => lineFeed_notMem_floatChars x
  | .string s => lineFeed_notMem_stringChars s
  | .array items => by simpa [chars] using lineFeed_notMem_itemChars items
  | .object members => by simpa [chars] using lineFeed_notMem_memberChars members

theorem lineFeed_notMem_itemChars : ∀ items : List Json, '\n' ∉ itemChars items
  | [] => by simp [itemChars]
  | [v] => by simpa [itemChars] using lineFeed_notMem_chars v
  | v :: w :: rest => by
    simpa [itemChars] using ⟨lineFeed_notMem_chars v, lineFeed_notMem_itemChars (w :: rest)⟩

theorem lineFeed_notMem_memberChars : ∀ members : List (String × Json), '\n' ∉ memberChars members
  | [] => by simp [memberChars]
  | [(n, v)] => by
    simpa [memberChars] using ⟨lineFeed_notMem_stringChars n, lineFeed_notMem_chars v⟩
  | (n, v) :: m :: rest => by
    simpa [memberChars] using
      ⟨lineFeed_notMem_stringChars n, lineFeed_notMem_chars v, lineFeed_notMem_memberChars (m :: rest)⟩

end

end Json

/-! ### Headers -/

theorem Stamp.lineFeed_notMem_chars (t : Stamp) : '\n' ∉ t.chars := by
  have hfield : ∀ width n, '\n' ∉ padded width '0' (decimal n) := fun width n =>
    lineFeed_notMem_padded width (by decide) (lineFeed_notMem_decimal n)
  simp [Stamp.chars, twoDigits, hfield]

theorem CallSite.lineFeed_notMem_text {site : CallSite} (h : '\n' ∉ site.basename.toList) :
    '\n' ∉ site.text.toList := by
  have hline : '\n' ∉ Nat.toDigits 10 site.line := lineFeed_notMem_decimal site.line
  simp [text, h, hline]

/-- A header is on one line if the name of the file is. -/
theorem lineFeed_notMem_headerChars (severity : Severity) (stamp : Stamp) (pid : Nat) {site : CallSite}
    (h : '\n' ∉ site.basename.toList) : '\n' ∉ headerChars severity stamp pid site := by
  have hletter : '\n' ≠ severity.letter := by cases severity <;> decide
  have hpid : '\n' ∉ padded 7 ' ' (decimal pid) :=
    lineFeed_notMem_padded 7 (by decide) (lineFeed_notMem_decimal pid)
  simp [headerChars, hletter, stamp.lineFeed_notMem_chars, hpid, CallSite.lineFeed_notMem_text h]

end Logline
