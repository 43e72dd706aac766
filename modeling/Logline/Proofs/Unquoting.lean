import Mathlib
import Logline.Proofs.Literal

/-!
# Unquoting quoted texts

`unquote` reads a quoted text character by character: the letter of a short escape, a number of two, four
or eight hexadecimal digits behind `\x`, `\u` and `\U`, and every other character as it is, up to the first
double quote that is not escaped. A number of two digits is that of an ASCII character, so it is never
taken for an octet of another one. What follows the quoted text may be any octets.

Main statement: `quoted_readable`. A quoted text is read back whatever follows it, and between its quotes
nothing stands raw that could end it, break the line, or change the direction of the text.
-/

namespace Logline.Text

/-! ### Characters in UTF-8 -/

/-- Takes a character off the front of octets that begin with its UTF-8 form. -/
def takeChar? (bs : Bytes) : Option (Char × Bytes) :=
  (bs.toByteArray.utf8DecodeChar? 0).map fun c => (c, bs.drop c.utf8Size)

theorem takeChar?_utf8EncodeChar (c : Char) (rest : Bytes) :
    takeChar? (String.utf8EncodeChar c ++ rest) = some (c, rest) := by
  rw [takeChar?, List.toByteArray_append, ByteArray.utf8DecodeChar?_utf8EncodeChar_append, Option.map_some,
    ← String.length_utf8EncodeChar, List.drop_left]

theorem takeChar?_ascii {b : UInt8} (hb : b.toNat < 0x80) (rest : Bytes) :
    takeChar? (b :: rest) = some (Char.ofNat b.toNat, rest) := by
  have hchar := takeChar?_utf8EncodeChar (Char.ofNat b.toNat) rest
  rwa [utf8EncodeChar_of_ascii (by rwa [toNat_ofNat_of_ascii hb]), toNat_ofNat_of_ascii hb,
    UInt8.ofNat_toNat, List.singleton_append] at hchar

theorem length_lt_of_takeChar? {bs rest : Bytes} {c : Char} (h : takeChar? bs = some (c, rest)) :
    rest.length < bs.length := by
  obtain ⟨d, hd, heq⟩ := Option.map_eq_some_iff.mp h
  cases heq
  have hsize := ByteArray.le_size_of_utf8DecodeChar?_eq_some hd
  have hpos := Char.utf8Size_pos c
  rw [List.size_toByteArray] at hsize
  rw [List.length_drop]
  omega

/-- No character hides in the UTF-8 form of others: where its octets stand, it stands itself. -/
theorem mem_of_infix_encode {c : Char} {cs : List Char}
    (h : String.utf8EncodeChar c <:+: encode cs) : c ∈ cs := by
  induction cs with
  | nil => exact absurd (List.infix_nil.mp h) String.utf8EncodeChar_ne_nil
  | cons d cs ih =>
    obtain ⟨before, after, heq⟩ := h
    rw [encode_cons, List.append_assoc] at heq
    by_cases hlt : before.length < (String.utf8EncodeChar d).length
    · -- an octet that begins a character is the first one of it
      have hpos : 0 < (String.utf8EncodeChar c).length :=
        List.length_pos_of_ne_nil String.utf8EncodeChar_ne_nil
      have hoctet : (String.utf8EncodeChar d)[before.length] = (String.utf8EncodeChar c)[0] := by
        have hget := congrArg (·[before.length]?) heq
        simp only [List.getElem?_append_right le_rfl, Nat.sub_self, List.getElem?_append_left hpos,
          List.getElem?_append_left hlt, List.getElem?_eq_getElem hpos, List.getElem?_eq_getElem hlt,
          Option.some.injEq] at hget
        exact hget.symm
      have hfirst : (String.utf8EncodeChar d)[before.length].IsUTF8FirstByte := by
        rw [hoctet]
        exact UInt8.isUTF8FirstByte_getElem_zero_utf8EncodeChar
      obtain rfl : before = [] :=
        List.length_eq_zero_iff.mp (UInt8.isUTF8FirstByte_getElem_utf8EncodeChar.mp hfirst)
      have htake := congrArg takeChar? heq
      rw [List.nil_append, takeChar?_utf8EncodeChar, takeChar?_utf8EncodeChar] at htake
      cases htake
      exact List.mem_cons_self
    · have hrest := congrArg (List.drop (String.utf8EncodeChar d).length) heq
      rw [List.drop_append_of_le_length (by omega), List.drop_left] at hrest
      exact List.mem_cons_of_mem d (ih ⟨_, after, by rw [List.append_assoc]; exact hrest⟩)

/-! ### The reader -/

/-- Takes the character with a number of `width` hexadecimal digits off the front. The number has to be below
`limit`. -/
def takeNumber? (width limit : Nat) (bs : Bytes) : Option (Char × Bytes) :=
  if bs.length < width then none
  else
    (hexNumber? ((bs.take width).map fun b => Char.ofNat b.toNat)).bind fun n =>
      if n < limit then (charOfNumber? n).map (·, bs.drop width) else none

/-- Takes what follows a backslash off the front: the character that an escape stands for. -/
def takeEscape? : Bytes → Option (Char × Bytes)
  | [] => none
  | b :: rest =>
    if b = 0x78 then takeNumber? 2 0x80 rest
    else if b = 0x75 then takeNumber? 4 0x10000 rest
    else if b = 0x55 then takeNumber? 8 0x110000 rest
    else (shortUnescape (Char.ofNat b.toNat)).map (·, rest)

/-- Takes the next character of a quoted text off the front, escaped or as it is. It is missing where the
quoted text ends. -/
def takeQuoted? (bs : Bytes) : Option (Option Char × Bytes) :=
  (takeChar? bs).bind fun r =>
    if r.1 = '"' then some (none, r.2)
    else if r.1 = '\\' then (takeEscape? r.2).map fun s => (some s.1, s.2)
    else some (some r.1, r.2)

theorem length_le_of_takeNumber? {width limit : Nat} {bs rest : Bytes} {c : Char}
    (h : takeNumber? width limit bs = some (c, rest)) : rest.length ≤ bs.length := by
  unfold takeNumber? at h
  split_ifs at h
  obtain ⟨n, -, h⟩ := Option.bind_eq_some_iff.mp h
  split_ifs at h
  obtain ⟨d, -, heq⟩ := Option.map_eq_some_iff.mp h
  cases heq
  rw [List.length_drop]
  omega

theorem length_le_of_takeEscape? {bs rest : Bytes} {c : Char} (h : takeEscape? bs = some (c, rest)) :
    rest.length ≤ bs.length := by
  cases bs with
  | nil => cases h
  | cons b bs =>
    rw [List.length_cons]
    suffices rest.length ≤ bs.length by omega
    rw [takeEscape?] at h
    split_ifs at h
    · exact length_le_of_takeNumber? h
    · exact length_le_of_takeNumber? h
    · exact length_le_of_takeNumber? h
    · obtain ⟨d, -, heq⟩ := Option.map_eq_some_iff.mp h
      cases heq
      exact le_rfl

theorem length_lt_of_takeQuoted? {bs rest : Bytes} {item : Option Char}
    (h : takeQuoted? bs = some (item, rest)) : rest.length < bs.length := by
  obtain ⟨⟨c, tail⟩, hchar, h⟩ := Option.bind_eq_some_iff.mp h
  have hlt := length_lt_of_takeChar? hchar
  dsimp only at h
  split_ifs at h
  · cases h
    exact hlt
  · obtain ⟨⟨d, tail'⟩, hescape, heq⟩ := Option.map_eq_some_iff.mp h
    cases heq
    exact lt_of_le_of_lt (length_le_of_takeEscape? hescape) hlt
  · cases h
    exact hlt

/-- Reads the characters of a quoted text behind its opening quote, and what follows the closing one. -/
def unquoteBody (bs : Bytes) : Option (List Char × Bytes) :=
  match _h : takeQuoted? bs with
  | none => none
  | some (none, rest) => some ([], rest)
  | some (some c, rest) => (unquoteBody rest).map fun r => (c :: r.1, r.2)
termination_by bs.length
decreasing_by exact length_lt_of_takeQuoted? _h

/-- Reads a quoted text, and what follows it. -/
def unquote : Bytes → Option (String × Bytes)
  | [] => none
  | b :: rest => if b = 0x22 then (unquoteBody rest).map fun r => (String.ofList r.1, r.2) else none

theorem unquoteBody_of_end {bs rest : Bytes} (h : takeQuoted? bs = some (none, rest)) :
    unquoteBody bs = some ([], rest) := by
  rw [unquoteBody]
  split <;> simp_all

theorem unquoteBody_of_char {bs rest : Bytes} {c : Char} (h : takeQuoted? bs = some (some c, rest)) :
    unquoteBody bs = (unquoteBody rest).map fun r => (c :: r.1, r.2) := by
  rw [unquoteBody]
  split <;> simp_all

/-! ### Reading what is written -/

theorem digit_of_mem_toDigits {d : Char} {n : Nat} (h : d ∈ Nat.toDigits 16 n) :
    ∃ k < 16, d = Nat.digitChar k := by
  induction n using Nat.strong_induction_on with
  | _ n ih =>
    rw [Nat.toDigits_eq_if (by decide)] at h
    split_ifs at h with hn
    · exact ⟨n, hn, List.mem_singleton.mp h⟩
    · rcases List.mem_append.mp h with hfront | hlast
      · exact ih (n / 16) (by omega) hfront
      · exact ⟨n % 16, by omega, List.mem_singleton.mp hlast⟩

theorem digit_of_mem_hexadecimal {d : Char} {width n : Nat} (h : d ∈ hexadecimal width n) :
    ∃ k < 16, d = Nat.digitChar k := by
  unfold hexadecimal padded List.leftpad at h
  rcases List.mem_append.mp h with hzero | hdigit
  · exact ⟨0, by omega, List.eq_of_mem_replicate hzero⟩
  · exact digit_of_mem_toDigits hdigit

theorem encode_of_ascii {cs : List Char} (h : ∀ c ∈ cs, c.toNat < 0x80) :
    (encode cs).length = cs.length ∧ (encode cs).map (fun b => Char.ofNat b.toNat) = cs := by
  induction cs with
  | nil => exact ⟨rfl, rfl⟩
  | cons c cs ih =>
    obtain ⟨hc, hcs⟩ := List.forall_mem_cons.mp h
    have hchar : Char.ofNat (UInt8.ofNat c.toNat).toNat = c := by
      rw [UInt8.toNat_ofNat', Nat.mod_eq_of_lt (by omega), Char.ofNat_toNat]
    rw [encode_cons, utf8EncodeChar_of_ascii hc]
    exact ⟨congrArg (· + 1) (ih hcs).1, congrArg₂ List.cons hchar (ih hcs).2⟩

theorem takeNumber?_hexadecimal {width limit : Nat} {c : Char} (hwidth : 0 < width)
    (hc : c.toNat < 16 ^ width) (hlimit : c.toNat < limit) (rest : Bytes) :
    takeNumber? width limit (encode (hexadecimal width c.toNat) ++ rest) = some (c, rest) := by
  have hascii : ∀ d ∈ hexadecimal width c.toNat, d.toNat < 0x80 := by
    intro d hd
    obtain ⟨k, hk, rfl⟩ := digit_of_mem_hexadecimal hd
    exact lt_of_hexValue?_eq_some (hexValue?_digitChar hk)
  obtain ⟨hlength, hdigits⟩ := encode_of_ascii hascii
  rw [length_hexadecimal hwidth hc] at hlength
  have hlong : ¬ (encode (hexadecimal width c.toNat) ++ rest).length < width := by
    rw [List.length_append]
    omega
  rw [takeNumber?, if_neg hlong, List.take_left' hlength, List.drop_left' hlength, hdigits,
    hexNumber?_hexadecimal, Option.bind_some, if_pos hlimit, charOfNumber?_toNat, Option.map_some]

theorem takeQuoted?_backslash (rest : Bytes) :
    takeQuoted? (0x5C :: rest) = (takeEscape? rest).map fun s => (some s.1, s.2) := by
  unfold takeQuoted?
  rw [takeChar?_ascii (by decide), Option.bind_some]
  rfl

theorem takeQuoted?_quote (rest : Bytes) : takeQuoted? (0x22 :: rest) = some (none, rest) := by
  unfold takeQuoted?
  rw [takeChar?_ascii (by decide), Option.bind_some]
  rfl

theorem takeQuoted?_numberEscape (c : Char) (rest : Bytes) :
    takeQuoted? (encode (numberEscape c) ++ rest) = some (some c, rest) := by
  unfold numberEscape
  split_ifs with hascii hbasic
  · have hlt : c.toNat < 0x80 := by
      rw [Bool.or_eq_true, decide_eq_true_eq, beq_iff_eq] at hascii
      rcases hascii with hlt | rfl
      · exact lt_trans (Char.lt_def.mp hlt) (by decide)
      · decide
    change takeQuoted? (0x5C :: 0x78 :: (encode (hexadecimal 2 c.toNat) ++ rest)) = _
    rw [takeQuoted?_backslash, takeEscape?, if_pos rfl,
      takeNumber?_hexadecimal (by decide) (by omega) hlt, Option.map_some]
  · change takeQuoted? (0x5C :: 0x75 :: (encode (hexadecimal 4 c.toNat) ++ rest)) = _
    rw [takeQuoted?_backslash, takeEscape?, if_neg (by decide), if_pos rfl,
      takeNumber?_hexadecimal (by decide) (by omega) hbasic, Option.map_some]
  · have hlt : c.toNat < 0x110000 := by
      have hvalid := c.valid
      show c.val.toNat < 0x110000
      rcases hvalid with h | h <;> omega
    change takeQuoted? (0x5C :: 0x55 :: (encode (hexadecimal 8 c.toNat) ++ rest)) = _
    rw [takeQuoted?_backslash, takeEscape?, if_neg (by decide), if_neg (by decide), if_pos rfl,
      takeNumber?_hexadecimal (by decide) (by omega) hlt, Option.map_some]

/-- Every character is taken off as it was written, whatever follows it. -/
theorem takeQuoted?_quotedChar (c : Char) (rest : Bytes) :
    takeQuoted? (encode (quotedChar c) ++ rest) = some (some c, rest) := by
  unfold quotedChar
  split
  · next letter hletter =>
    -- the nine characters with a letter of their own
    unfold shortEscape at hletter
    split at hletter <;> cases hletter <;> exact takeQuoted?_backslash _
  · next hnone =>
    split_ifs
    · have hquote : c ≠ '"' := by
        rintro rfl
        cases hnone
      have hbackslash : c ≠ '\\' := by
        rintro rfl
        cases hnone
      unfold takeQuoted?
      rw [encode_cons, encode_nil, List.append_nil, takeChar?_utf8EncodeChar, Option.bind_some,
        if_neg hquote, if_neg hbackslash]
    · exact takeQuoted?_numberEscape c rest

theorem unquoteBody_quoted (cs : List Char) (rest : Bytes) :
    unquoteBody (encode (cs.flatMap quotedChar ++ ['"']) ++ rest) = some (cs, rest) := by
  induction cs with
  | nil => exact unquoteBody_of_end (takeQuoted?_quote rest)
  | cons c cs ih =>
    rw [List.flatMap_cons, List.append_assoc, encode_append, List.append_assoc,
      unquoteBody_of_char (takeQuoted?_quotedChar c _), ih, Option.map_some]

theorem unquote_quotedText (s : String) (rest : Bytes) : unquote (quoted s ++ rest) = some (s, rest) := by
  show (unquoteBody (encode (s.toList.flatMap quotedChar ++ ['"']) ++ rest)).map _ = _
  rw [unquoteBody_quoted, Option.map_some, String.ofList_toList]

/-! ### What stands between the quotes -/

/-- Whether octets end inside an escape: whether the octet behind them is escaped by a backslash. -/
def endsInEscape (bs : Bytes) : Bool := bs.foldl (fun escaped b => !escaped && b == 0x5C) false

/-- The separators of lines and of paragraphs. -/
def isSeparator (c : Char) : Bool := inRanges [(0x2028, 0x2029)] c.toNat

/-- The characters with the Unicode property `Bidi_Control`. -/
def isBidiControl (c : Char) : Bool :=
  inRanges [(0x61C, 0x61C), (0x200E, 0x200F), (0x202A, 0x202E), (0x2066, 0x2069)] c.toNat

theorem exists_numberEscape (c : Char) :
    ∃ letter ∈ ['x', 'u', 'U'], ∃ width, numberEscape c = '\\' :: letter :: hexadecimal width c.toNat := by
  unfold numberEscape
  split_ifs
  · exact ⟨'x', by simp, 2, rfl⟩
  · exact ⟨'u', by simp, 4, rfl⟩
  · exact ⟨'U', by simp, 8, rfl⟩

theorem isPrintable_of_mem_quotedChar {c d : Char} (h : d ∈ quotedChar c) : isPrintable d = true := by
  unfold quotedChar at h
  split at h
  · next letter hletter =>
    unfold shortEscape at hletter
    split at hletter <;> cases hletter <;>
      rcases List.mem_pair.mp h with rfl | rfl <;> decide
  · split_ifs at h with hprintable
    · rw [List.mem_singleton.mp h]
      exact hprintable
    · obtain ⟨letter, hletter, width, heq⟩ := exists_numberEscape c
      rw [heq] at h
      rcases List.mem_cons.mp h with rfl | h
      · decide
      · rcases List.mem_cons.mp h with rfl | h
        · simp only [List.mem_cons, List.not_mem_nil, or_false] at hletter
          rcases hletter with rfl | rfl | rfl <;> decide
        · obtain ⟨k, hk, rfl⟩ := digit_of_mem_hexadecimal h
          interval_cases k <;> decide

/-- Every double quote is escaped, and so is not the octet that follows. -/
def QuotesEscaped (bs : Bytes) : Prop :=
  endsInEscape bs = false ∧ ∀ before after, bs = before ++ 0x22 :: after → endsInEscape before = true

theorem endsInEscape_append {bs : Bytes} (h : endsInEscape bs = false) (cs : Bytes) :
    endsInEscape (bs ++ cs) = endsInEscape cs := by
  unfold endsInEscape at *
  rw [List.foldl_append, h]

theorem QuotesEscaped.append {bs cs : Bytes} (hbs : QuotesEscaped bs) (hcs : QuotesEscaped cs) :
    QuotesEscaped (bs ++ cs) := by
  constructor
  · rw [endsInEscape_append hbs.1]
    exact hcs.1
  · intro before after heq
    rcases List.append_eq_append_iff.mp heq with ⟨front, rfl, hrest⟩ | ⟨tail, hfront, hrest⟩
    · rw [endsInEscape_append hbs.1]
      exact hcs.2 front after hrest
    · cases tail with
      | nil =>
        rw [List.append_nil] at hfront
        subst hfront
        have hfirst := hcs.2 [] after hrest.symm
        cases hfirst
      | cons b tail =>
        obtain ⟨rfl, -⟩ := List.cons.inj hrest
        exact hbs.2 before tail hfront

theorem QuotesEscaped.of_verbatim {bs : Bytes} (h : ∀ b ∈ bs, b ≠ 0x22 ∧ b ≠ 0x5C) : QuotesEscaped bs := by
  constructor
  · induction bs with
    | nil => rfl
    | cons b bs ih =>
      obtain ⟨hb, hbs⟩ := List.forall_mem_cons.mp h
      have hstep : endsInEscape [b] = false := by simpa [endsInEscape] using hb.2
      rw [← List.singleton_append, endsInEscape_append hstep]
      exact ih hbs
  · rintro before after rfl
    exact absurd rfl (h 0x22 (by simp)).1

theorem QuotesEscaped.pair (b : UInt8) : QuotesEscaped [0x5C, b] := by
  constructor
  · rfl
  · intro before after heq
    match before, heq with
    | [], heq => cases heq
    | [x], heq =>
      obtain ⟨rfl, -⟩ := List.cons.inj heq
      rfl
    | x :: y :: before, heq =>
      have hlength := congrArg List.length heq
      simp at hlength

theorem verbatim_of_notMem {cs : List Char} (hquote : '"' ∉ cs) (hbackslash : '\\' ∉ cs) :
    ∀ b ∈ encode cs, b ≠ 0x22 ∧ b ≠ 0x5C := by
  intro b hb
  constructor <;> rintro rfl
  · exact hquote ((mem_encode_iff (by decide)).mp hb)
  · exact hbackslash ((mem_encode_iff (by decide)).mp hb)

theorem quotesEscaped_quotedChar (c : Char) : QuotesEscaped (encode (quotedChar c)) := by
  unfold quotedChar
  split
  · next letter hletter =>
    unfold shortEscape at hletter
    split at hletter <;> cases hletter <;> exact QuotesEscaped.pair _
  · next hnone =>
    split_ifs
    · apply QuotesEscaped.of_verbatim
      apply verbatim_of_notMem <;> rw [List.mem_singleton] <;> rintro rfl <;> cases hnone
    · obtain ⟨letter, hletter, width, heq⟩ := exists_numberEscape c
      have hdigit : ∀ d ∈ hexadecimal width c.toNat, d ≠ '"' ∧ d ≠ '\\' := by
        intro d hd
        obtain ⟨k, hk, rfl⟩ := digit_of_mem_hexadecimal hd
        interval_cases k <;> decide
      have hdigits : QuotesEscaped (encode (hexadecimal width c.toNat)) :=
        .of_verbatim (verbatim_of_notMem (fun h => (hdigit _ h).1 rfl) fun h => (hdigit _ h).2 rfl)
      rw [heq]
      simp only [List.mem_cons, List.not_mem_nil, or_false] at hletter
      rcases hletter with rfl | rfl | rfl <;> exact (QuotesEscaped.pair _).append hdigits

theorem quotesEscaped_flatMap (cs : List Char) : QuotesEscaped (encode (cs.flatMap quotedChar)) := by
  induction cs with
  | nil => exact .of_verbatim (by simp)
  | cons c cs ih =>
    rw [List.flatMap_cons, encode_append]
    exact (quotesEscaped_quotedChar c).append ih

theorem not_isPrintable {c : Char} (h : isControl c ∨ isSeparator c ∨ isBidiControl c) :
    isPrintable c = false := by
  have hspace : (c == ' ') = (c.toNat == 0x20) := by
    rw [Bool.eq_iff_iff, beq_iff_eq, beq_iff_eq, ← Char.toNat_inj]
    rfl
  simp only [isControl, isSeparator, isBidiControl, inRanges, List.any_cons, List.any_nil, Bool.or_eq_true,
    Bool.and_eq_true, decide_eq_true_eq, Bool.or_false] at h
  rw [Bool.eq_false_iff]
  simp only [isPrintable, hspace, isControl, isWhiteSpace, isShapeless, inRanges, List.any_cons,
    List.any_nil, Bool.or_eq_true, Bool.not_eq_true', Bool.or_eq_false_iff, Bool.and_eq_false_iff,
    decide_eq_false_iff_not, beq_iff_eq, Bool.or_false, ne_eq]
  omega

/-- A quoted text is read back as it was, whatever octets follow it. Between its quotes no character stands
raw that breaks the line, controls a terminal or changes the direction of the text, and every double quote
is escaped, while the closing one is not. -/
theorem quoted_readable (s : String) :
    (∀ rest, unquote (quoted s ++ rest) = some (s, rest)) ∧
      ∃ body, quoted s = 0x22 :: (body ++ [0x22]) ∧
        (∀ c, isControl c ∨ isSeparator c ∨ isBidiControl c → ¬ String.utf8EncodeChar c <:+: body) ∧
        (∀ before after, body = before ++ 0x22 :: after → endsInEscape before = true) ∧
        endsInEscape body = false := by
  refine ⟨unquote_quotedText s, encode (s.toList.flatMap quotedChar), ?_, ?_, ?_, ?_⟩
  · unfold quoted quotedChars
    rw [encode_cons, encode_append]
    rfl
  · intro c hc hstands
    obtain ⟨d, -, hmem⟩ := List.mem_flatMap.mp (mem_of_infix_encode hstands)
    have hprintable := isPrintable_of_mem_quotedChar hmem
    rw [not_isPrintable hc] at hprintable
    cases hprintable
  · exact (quotesEscaped_flatMap s.toList).2
  · exact (quotesEscaped_flatMap s.toList).1

example : unquote (quoted "é\"\\\u2028\x1b" ++ [0x5C, 0xFF]) = some ("é\"\\\u2028\x1b", [0x5C, 0xFF]) := by
  decide +kernel

end Logline.Text
