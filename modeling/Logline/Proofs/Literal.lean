import Mathlib
import Logline.Text.Block
import Logline.Text.Octet

/-!
# Quoted literals are read back from octets

A line is read octet by octet. In UTF-8 an octet below `0x80` is always a whole character
(`mem_encode_iff`), so the quotes and backslashes that a reader looks for are never part of another
character, and everything else may be copied without being decoded.

`readLiteral` reads both kinds of quoted literals that lines have: texts (`readLiteral_quotedText`) and raw
octets (`readLiteral_quotedOctets`). What it returns are octets: for a text, its UTF-8 form.

The reader is a machine that looks at one octet at a time. An escape by number takes it through
`LiteralState.number`, where it gathers the digits; the laws for single characters say how it comes back
to `LiteralState.plain`.
-/

namespace Logline.Text

/-! ### ASCII in UTF-8 -/

theorem utf8EncodeChar_of_ascii {c : Char} (h : c.toNat < 0x80) :
    String.utf8EncodeChar c = [UInt8.ofNat c.toNat] := by
  have hval : c.toNat ≤ 127 := by omega
  simp [String.utf8EncodeChar, hval]

theorem le_of_mem_utf8EncodeChar {c : Char} (h : 0x80 ≤ c.toNat) {b : UInt8}
    (hb : b ∈ String.utf8EncodeChar c) : 0x80 ≤ b.toNat := by
  have hval : ¬ c.val.toNat ≤ 127 := by
    have : c.val.toNat = c.toNat := rfl
    omega
  simp only [String.utf8EncodeChar, if_neg hval] at hb
  split_ifs at hb <;> simp only [List.mem_cons, List.not_mem_nil, or_false] at hb <;>
    rcases hb with rfl | rfl | rfl | rfl <;> simp only [UInt8.toNat_ofNat'] <;> omega

theorem toNat_ofNat_of_ascii {n : Nat} (h : n < 0x80) : (Char.ofNat n).toNat = n := by
  have hvalid : n.isValidChar := Or.inl (by omega)
  rw [Char.ofNat, dif_pos hvalid]
  exact Char.toNat_ofNatAux hvalid

/-- An octet below `0x80` is in the UTF-8 form of a text if and only if its character is in the text. -/
theorem mem_encode_iff {b : UInt8} (hb : b.toNat < 0x80) {cs : List Char} :
    b ∈ encode cs ↔ Char.ofNat b.toNat ∈ cs := by
  have hchar : ∀ c : Char, b ∈ String.utf8EncodeChar c ↔ Char.ofNat b.toNat = c := by
    intro c
    by_cases hc : c.toNat < 0x80
    · rw [utf8EncodeChar_of_ascii hc, List.mem_singleton, ← UInt8.toNat_inj, UInt8.toNat_ofNat',
        ← Char.toNat_inj, toNat_ofNat_of_ascii hb]
      omega
    · refine iff_of_false (fun hmem => ?_) fun heq => ?_
      · have := le_of_mem_utf8EncodeChar (by omega) hmem
        omega
      · rw [← heq, toNat_ofNat_of_ascii hb] at hc
        omega
  simp only [encode, List.mem_flatMap, hchar]
  constructor
  · rintro ⟨c, hc, heq⟩
    exact heq ▸ hc
  · intro h
    exact ⟨_, h, rfl⟩

/-! ### The reader -/

/-- Where a reader of a quoted literal stands. -/
inductive LiteralState where
  | plain
  /-- Behind a backslash. -/
  | escape
  /-- In an escape by number: so many digits are to come, and those before came to `n`. The number is
  that of an octet or that of a character. -/
  | number (ofOctet : Bool) (left n : Nat)

/-- Content that was read before the rest was. -/
def prepend (front : Bytes) (read : Option (Bytes × Bytes)) : Option (Bytes × Bytes) :=
  read.map fun r => (front ++ r.1, r.2)

/-- The octet of a short escape, given its letter. -/
def shortOctet? (b : UInt8) : Option UInt8 :=
  if b = 0x27 then some 0x27
  else (shortUnescape (Char.ofNat b.toNat)).map fun c => UInt8.ofNat c.toNat

/-- The octets that an escape by number stands for. -/
def numberOctets? (ofOctet : Bool) (n : Nat) : Option Bytes :=
  if ofOctet then some [UInt8.ofNat n] else (charOfNumber? n).map String.utf8EncodeChar

/-- Reads a quoted literal up to and including the first double quote that is not escaped, and returns
its content and what follows it. -/
def readLiteral : LiteralState → Bytes → Option (Bytes × Bytes)
  | _, [] => none
  | .plain, b :: rest =>
    if b = 0x22 then some ([], rest)
    else if b = 0x5C then readLiteral .escape rest
    else prepend [b] (readLiteral .plain rest)
  | .escape, b :: rest =>
    if b = 0x78 then readLiteral (.number true 2 0) rest
    else if b = 0x75 then readLiteral (.number false 4 0) rest
    else if b = 0x55 then readLiteral (.number false 8 0) rest
    else (shortOctet? b).bind fun o => prepend [o] (readLiteral .plain rest)
  | .number ofOctet left n, b :: rest =>
    (hexValue? (Char.ofNat b.toNat)).bind fun d =>
      if left ≤ 1 then
        (numberOctets? ofOctet (16 * n + d)).bind fun bs => prepend bs (readLiteral .plain rest)
      else readLiteral (.number ofOctet (left - 1) (16 * n + d)) rest

@[simp] theorem prepend_nil (read : Option (Bytes × Bytes)) : prepend [] read = read := by
  cases read <;> rfl

@[simp] theorem prepend_prepend (a b : Bytes) (read : Option (Bytes × Bytes)) :
    prepend a (prepend b read) = prepend (a ++ b) read := by
  cases read <;> simp [prepend]

@[simp] theorem prepend_some (a b rest : Bytes) :
    prepend a (some (b, rest)) = some (a ++ b, rest) := rfl

theorem prepend_eq_some {front content rest : Bytes} {read : Option (Bytes × Bytes)} :
    prepend front read = some (content, rest) ↔ ∃ c, read = some (c, rest) ∧ front ++ c = content := by
  simp [prepend]

theorem length_lt_of_readLiteral {s : LiteralState} {bs content rest : Bytes}
    (h : readLiteral s bs = some (content, rest)) : rest.length < bs.length := by
  induction bs generalizing s content with
  | nil => simp [readLiteral] at h
  | cons b bs ih =>
    rw [List.length_cons]
    suffices rest.length ≤ bs.length by omega
    cases s with
    | plain =>
      rw [readLiteral] at h
      split_ifs at h
      · cases h
        exact le_rfl
      · exact (ih h).le
      · obtain ⟨c, hc, -⟩ := prepend_eq_some.mp h
        exact (ih hc).le
    | escape =>
      rw [readLiteral] at h
      split_ifs at h
      · exact (ih h).le
      · exact (ih h).le
      · exact (ih h).le
      · obtain ⟨o, -, h⟩ := Option.bind_eq_some_iff.mp h
        obtain ⟨c, hc, -⟩ := prepend_eq_some.mp h
        exact (ih hc).le
    | number ofOctet left n =>
      rw [readLiteral] at h
      obtain ⟨d, -, h⟩ := Option.bind_eq_some_iff.mp h
      split_ifs at h
      · obtain ⟨o, -, h⟩ := Option.bind_eq_some_iff.mp h
        obtain ⟨c, hc, -⟩ := prepend_eq_some.mp h
        exact (ih hc).le
      · exact (ih h).le

theorem readLiteral_verbatim {bs : Bytes} (h : ∀ b ∈ bs, b ≠ 0x22 ∧ b ≠ 0x5C) (rest : Bytes) :
    readLiteral .plain (bs ++ rest) = prepend bs (readLiteral .plain rest) := by
  induction bs with
  | nil => simp
  | cons b bs ih =>
    obtain ⟨hquote, hbackslash⟩ := h b List.mem_cons_self
    rw [List.cons_append, readLiteral, if_neg hquote, if_neg hbackslash,
      ih fun c hc => h c (List.mem_cons_of_mem _ hc), prepend_prepend, List.singleton_append]

/-! ### Numbers in hexadecimal -/

theorem hexValue?_digitChar {d : Nat} (h : d < 16) : hexValue? d.digitChar = some d := by
  interval_cases d <;> decide

theorem lt_of_hexValue?_eq_some {c : Char} {d : Nat} (h : hexValue? c = some d) : c.toNat < 0x80 := by
  unfold hexValue? at h
  simp only [Char.le_def, UInt32.le_iff_toNat_le] at h
  split_ifs at h with h1 h2 h3
  · exact lt_of_le_of_lt h1.2 (by decide)
  · exact lt_of_le_of_lt h2.2 (by decide)
  · exact lt_of_le_of_lt h3.2 (by decide)

theorem hexNumber?_append {ds es : List Char} {m : Nat} (h : hexNumber? ds = some m) :
    hexNumber? (ds ++ es) = es.foldlM (fun n c => (hexValue? c).map (16 * n + ·)) m := by
  unfold hexNumber? at *
  rw [List.foldlM_append, h]
  rfl

theorem hexNumber?_toDigits (n : Nat) : hexNumber? (Nat.toDigits 16 n) = some n := by
  induction n using Nat.strong_induction_on with
  | _ n ih =>
    by_cases hn : n < 16
    · rw [Nat.toDigits_of_lt_base hn]
      simp [hexNumber?, hexValue?_digitChar hn]
    · have hdigit : hexValue? (n % 16).digitChar = some (n % 16) := hexValue?_digitChar (by omega)
      rw [Nat.toDigits_eq_if (by decide), if_neg hn, hexNumber?_append (ih (n / 16) (by omega))]
      simp only [List.foldlM_cons, List.foldlM_nil, hdigit, Option.map_some, Option.bind_eq_bind,
        Option.bind_some, Option.pure_def, Option.some.injEq]
      omega

theorem hexNumber?_hexadecimal (width n : Nat) : hexNumber? (hexadecimal width n) = some n := by
  have hzeros : ∀ k, hexNumber? (List.replicate k '0') = some 0 := by
    intro k
    induction k with
    | zero => rfl
    | succ k ih => rw [List.replicate_succ', hexNumber?_append ih]; rfl
  rw [hexadecimal, padded, List.leftpad, hexNumber?_append (hzeros _)]
  exact hexNumber?_toDigits n

theorem length_hexadecimal {width n : Nat} (hwidth : 0 < width) (h : n < 16 ^ width) :
    (hexadecimal width n).length = width := by
  have hlength := (Nat.length_toDigits_le_iff (by decide) hwidth).mpr h
  rw [hexadecimal, length_padded]
  omega

/-- The digits of an escape take the reader back to where it was before the escape. -/
theorem readLiteral_digits (ofOctet : Bool) {ds : List Char} (hds : ds ≠ []) {n m : Nat}
    (h : ds.foldlM (fun n c => (hexValue? c).map (16 * n + ·)) n = some m) (rest : Bytes) :
    readLiteral (.number ofOctet ds.length n) (encode ds ++ rest) =
      (numberOctets? ofOctet m).bind fun bs => prepend bs (readLiteral .plain rest) := by
  induction ds generalizing n with
  | nil => exact absurd rfl hds
  | cons c ds ih =>
    cases hc : hexValue? c with
    | none => simp [hc] at h
    | some d =>
      have hascii := lt_of_hexValue?_eq_some hc
      have hchar : Char.ofNat (UInt8.ofNat c.toNat).toNat = c := by
        rw [UInt8.toNat_ofNat', Nat.mod_eq_of_lt (by omega), Char.ofNat_toNat]
      simp only [List.foldlM_cons, hc, Option.map_some, Option.bind_eq_bind, Option.bind_some] at h
      rw [encode_cons, utf8EncodeChar_of_ascii hascii, List.singleton_append, List.cons_append, readLiteral,
        hchar, hc, Option.bind_some, List.length_cons]
      cases ds with
      | nil =>
        obtain rfl : 16 * n + d = m := by simpa using h
        rfl
      | cons e ds =>
        rw [if_neg (by simp)]
        exact ih (List.cons_ne_nil _ _) h

theorem readLiteral_hexadecimal (ofOctet : Bool) {width n : Nat} (hwidth : 0 < width)
    (h : n < 16 ^ width) (rest : Bytes) :
    readLiteral (.number ofOctet width 0) (encode (hexadecimal width n) ++ rest) =
      (numberOctets? ofOctet n).bind fun bs => prepend bs (readLiteral .plain rest) := by
  have hlength := length_hexadecimal hwidth h
  have hne : hexadecimal width n ≠ [] := List.ne_nil_of_length_pos (by omega)
  have hread := readLiteral_digits ofOctet hne (hexNumber?_hexadecimal width n) rest
  rwa [hlength] at hread

/-! ### Texts -/

theorem charOfNumber?_toNat (c : Char) : charOfNumber? c.toNat = some c := by
  have hvalid : c.toNat.isValidChar := c.valid
  have hchar := Char.ofNat_toNat c
  rw [Char.ofNat, dif_pos hvalid] at hchar
  rw [charOfNumber?, dif_pos hvalid, hchar]

theorem readLiteral_numberEscape (c : Char) (rest : Bytes) :
    readLiteral .plain (encode (numberEscape c) ++ rest) =
      prepend (String.utf8EncodeChar c) (readLiteral .plain rest) := by
  unfold numberEscape
  split_ifs with hascii hbasic
  · have hlt : c.toNat < 0x80 := by
      rw [Bool.or_eq_true, decide_eq_true_eq, beq_iff_eq] at hascii
      rcases hascii with hlt | rfl
      · exact lt_trans (Char.lt_def.mp hlt) (by decide)
      · decide
    change readLiteral (.number true 2 0) (encode (hexadecimal 2 c.toNat) ++ rest) = _
    rw [readLiteral_hexadecimal true (by decide) (by omega), utf8EncodeChar_of_ascii hlt]
    rfl
  · change readLiteral (.number false 4 0) (encode (hexadecimal 4 c.toNat) ++ rest) = _
    rw [readLiteral_hexadecimal false (by decide) (by omega), numberOctets?, if_neg (by decide),
      charOfNumber?_toNat]
    rfl
  · have hlt : c.toNat < 16 ^ 8 := by
      have := c.val.toNat_lt
      rw [Char.toNat]
      omega
    change readLiteral (.number false 8 0) (encode (hexadecimal 8 c.toNat) ++ rest) = _
    rw [readLiteral_hexadecimal false (by decide) hlt, numberOctets?, if_neg (by decide),
      charOfNumber?_toNat]
    rfl

theorem readLiteral_quotedChar (c : Char) (rest : Bytes) :
    readLiteral .plain (encode (quotedChar c) ++ rest) =
      prepend (String.utf8EncodeChar c) (readLiteral .plain rest) := by
  rw [quotedChar]
  split
  · next letter hletter =>
    -- the nine characters with a letter of their own
    unfold shortEscape at hletter
    split at hletter <;> cases hletter <;> rfl
  · next hnone =>
    split
    · have hcopied : ∀ b ∈ encode [c], b ≠ 0x22 ∧ b ≠ 0x5C := by
        refine fun b hb => ⟨?_, ?_⟩ <;> rintro rfl
        · obtain rfl : '"' = c := List.mem_singleton.mp ((mem_encode_iff (by decide)).mp hb)
          cases hnone
        · obtain rfl : '\\' = c := List.mem_singleton.mp ((mem_encode_iff (by decide)).mp hb)
          cases hnone
      rw [readLiteral_verbatim hcopied, encode_cons, encode_nil, List.append_nil]
    · exact readLiteral_numberEscape c rest

/-- Behind its opening quote, a quoted text is read as its UTF-8 form. -/
theorem readLiteral_quotedText (cs : List Char) (rest : Bytes) :
    readLiteral .plain (encode (cs.flatMap quotedChar ++ ['"']) ++ rest) = some (encode cs, rest) := by
  induction cs with
  | nil => rfl
  | cons c cs ih =>
    rw [List.flatMap_cons, List.append_assoc, encode_append, List.append_assoc, readLiteral_quotedChar, ih,
      prepend_some, encode_cons]

/-! ### Octets -/

theorem readLiteral_octetChars (b : UInt8) (rest : Bytes) :
    readLiteral .plain (encode (octetChars b) ++ rest) = prepend [b] (readLiteral .plain rest) := by
  unfold octetChars
  split_ifs with htab hfeed hreturn hmark hgraphic
  · obtain rfl : b = 0x09 := by simpa using htab
    rfl
  · obtain rfl : b = 0x0A := by simpa using hfeed
    rfl
  · obtain rfl : b = 0x0D := by simpa using hreturn
    rfl
  · simp only [Bool.or_eq_true, beq_iff_eq] at hmark
    rcases hmark with (rfl | rfl) | rfl <;> rfl
  · simp only [Bool.and_eq_true, decide_eq_true_eq, UInt8.le_iff_toNat_le] at hgraphic
    have hlt : b.toNat < 0x80 := lt_of_le_of_lt hgraphic.2 (by decide)
    have hencode : encode [Char.ofNat b.toNat] = [b] := by
      rw [encode_cons, utf8EncodeChar_of_ascii (by rwa [toNat_ofNat_of_ascii hlt]),
        toNat_ofNat_of_ascii hlt, UInt8.ofNat_toNat]
      rfl
    have hcopied : ∀ x ∈ [b], x ≠ 0x22 ∧ x ≠ 0x5C := by
      simp only [List.mem_singleton, forall_eq]
      constructor <;> rintro rfl <;> exact absurd rfl hmark
    rw [hencode, readLiteral_verbatim hcopied]
  · change readLiteral (.number true 2 0) (encode (hexadecimal 2 b.toNat) ++ rest) = _
    have hlt := b.toNat_lt
    rw [readLiteral_hexadecimal true (by decide) (by omega), numberOctets?, if_pos rfl,
      UInt8.ofNat_toNat]
    rfl

/-- Behind their opening quote, quoted octets are read as they were. -/
theorem readLiteral_quotedOctets (bs rest : Bytes) :
    readLiteral .plain (encode (bs.flatMap octetChars ++ ['"']) ++ rest) = some (bs, rest) := by
  induction bs with
  | nil => rfl
  | cons b bs ih =>
    rw [List.flatMap_cons, List.append_assoc, encode_append, List.append_assoc, readLiteral_octetChars, ih,
      prepend_some, List.singleton_append]

end Logline.Text
