import Mathlib
import Logline.Line
import Logline.Proofs.Deduplication
import Logline.Proofs.Literal

/-!
# Structured bodies are read back

The body of a structured line is a quoted message and pairs. `Body.read` knows no more than that: it
takes one literal, and then again and again a space, a key up to the first equals sign, and a value, which
is a literal, a block, or a token up to the next space.

Texts, octets and scalars say in their first octet which of the three forms they have, and each form says
where it ends: a literal and a block in themselves, a token by what follows it, which is the space of the
next pair or nothing. So the pairs of a body are read one by one (`readPair_rendering`), whatever the
texts in them look like, and what is read for a key is the content of the last value that it was given
(`lastValue?_of_mem_survivors`).
-/

namespace Logline

open Text KeyValues

/-! ### The last value of a key -/

/-- The value of the last pair whose key is written as `key`. -/
def KeyValues.lastValue? (pairs : List (Value × Value)) (key : Bytes) : Option Value :=
  (pairs.reverse.find? fun pair => Formatter.keyBytes pair.1 == key).map Prod.snd

theorem KeyValues.exists_of_lastValue? {pairs : List (Value × Value)} {key : Bytes} {v : Value}
    (h : lastValue? pairs key = some v) :
    ∃ before pair after, pairs = before ++ pair :: after ∧ Formatter.keyBytes pair.1 = key ∧
      pair.2 = v ∧ ∀ later ∈ after, Formatter.keyBytes later.1 ≠ key := by
  obtain ⟨pair, hpair, rfl⟩ := Option.map_eq_some_iff.mp h
  obtain ⟨hkey, after, before, hsplit, hafter⟩ := List.find?_eq_some_iff_append.mp hpair
  refine ⟨before.reverse, pair, after.reverse, ?_, by simpa using hkey, rfl, fun later hlater => ?_⟩
  · simpa using congrArg List.reverse hsplit
  · simpa using hafter later (List.mem_reverse.mp hlater)

theorem Rendering.eq_of_bytes {r s : Rendering} (hkey : r.key = s.key) (hbytes : r.bytes = s.bytes) :
    r = s := by
  cases r
  cases s
  simp_all [Rendering.bytes]

/-- What survives of a key is the rendering of the last value that it was given. -/
theorem lastValue?_of_mem_survivors (f : Formatter) {pairs : List (Value × Value)} {r : Rendering}
    (hr : r ∈ survivors (pairs.map f.rendering)) :
    ∃ v, lastValue? pairs r.key = some v ∧ f.valueBytes r.key v = r.value := by
  obtain ⟨i, own, hown, hsurvives, rfl⟩ := mem_survivors_map.mp hr
  have hsome : (lastValue? pairs (f.rendering own).key).isSome := by
    simp only [lastValue?, Option.isSome_map, List.find?_isSome, List.mem_reverse, beq_iff_eq]
    exact ⟨own, List.mem_of_getElem? hown, rfl⟩
  obtain ⟨v, hv⟩ := Option.isSome_iff_exists.mp hsome
  obtain ⟨before, last, after, rfl, hkey, rfl, hafter⟩ := exists_of_lastValue? hv
  suffices hsame : f.rendering last = f.rendering own by
    refine ⟨last.2, hv, ?_⟩
    rw [← hsame]
    rfl
  -- the surviving pair is the last one of its key, or the last one is written like it
  rcases Nat.lt_trichotomy i before.length with hlt | rfl | hgt
  · have hi : ((before ++ last :: after).map f.rendering)[i]? = some (f.rendering own) := by
      rw [List.getElem?_map, hown, Option.map_some]
    have hlast : ((before ++ last :: after).map f.rendering)[before.length]? =
        some (f.rendering last) := by simp
    exact Rendering.eq_of_bytes hkey (hsurvives.1.bytes_eq hlt hi hlast hkey)
  · obtain rfl : last = own := by simpa using hown
    rfl
  · have hmem : own ∈ after := by
      rw [List.getElem?_append_right (by omega), List.getElem?_cons, if_neg (by omega)] at hown
      exact List.mem_of_getElem? hown
    exact absurd rfl (hafter own hmem)

/-! ### Contents -/

/-- What a reader gets back for a value that is a text, octets or a scalar. A text of several lines ends
with a line feed. -/
def Value.content? : Value → Option Bytes
  | .text s => some (encode (lineEnded s.toList))
  | .shown h => some (encode (lineEnded (guarded h.run).toList))
  | .bytes bs => some bs
  | .bool b => some (utf8 (toString b))
  | .int i => some (encode (signedDecimal i))
  | .nat n => some (encode (decimal n))
  | .null => some (utf8 "null")
  | _ => none

namespace Body

/-! ### The reader -/

/-- Reads the lines of a block up to its end. The flag tells whether the reader stands inside a line. -/
def readLines : Bool → Bytes → Option (Bytes × Bytes)
  | _, [] => none
  | true, b :: rest => prepend [b] (readLines (b != 0x0A) rest)
  | false, b :: rest =>
    if b = 0x09 then readLines true rest
    else if b = 0x20 ∧ rest.head? = some 0x3E then some ([], rest.tail)
    else none

/-- Reads a value: a literal, a block, or a token up to the next space. -/
def readValue : Bytes → Option (Bytes × Bytes)
  | [] => some ([], [])
  | b :: rest =>
    if b = 0x22 then readLiteral .plain rest
    else if b = 0x3C then if rest.head? = some 0x0A then readLines false rest.tail else none
    else some ((b :: rest).span (· ≠ 0x20))

/-- Reads a pair: a space, a key up to the first equals sign, and a value. -/
def readPair : Bytes → Option ((Bytes × Bytes) × Bytes)
  | [] => none
  | b :: rest =>
    if b = 0x20 then
      match rest.dropWhile (· ≠ 0x3D) with
      | [] => none
      | _ :: behind => (readValue behind).map fun r => ((rest.takeWhile (· ≠ 0x3D), r.1), r.2)
    else none

theorem length_lt_of_readLines {inside : Bool} {bs content rest : Bytes}
    (h : readLines inside bs = some (content, rest)) : rest.length < bs.length := by
  induction bs generalizing inside content with
  | nil => simp [readLines] at h
  | cons b bs ih =>
    rw [List.length_cons]
    suffices rest.length ≤ bs.length by omega
    cases inside with
    | true =>
      rw [readLines] at h
      obtain ⟨c, hc, -⟩ := prepend_eq_some.mp h
      exact (ih hc).le
    | false =>
      rw [readLines] at h
      split_ifs at h
      · exact (ih h).le
      · cases h
        rw [List.length_tail]
        omega

theorem length_le_of_readValue {bs content rest : Bytes} (h : readValue bs = some (content, rest)) :
    rest.length ≤ bs.length := by
  cases bs with
  | nil =>
    cases h
    exact le_rfl
  | cons b bs =>
    rw [readValue] at h
    rw [List.length_cons]
    split_ifs at h
    · have := length_lt_of_readLiteral h
      omega
    · have := length_lt_of_readLines h
      rw [List.length_tail] at this
      omega
    · rw [List.span_eq_takeWhile_dropWhile] at h
      cases h
      exact List.length_dropWhile_le _ (b :: bs)

theorem length_lt_of_readPair {bs rest : Bytes} {pair : Bytes × Bytes}
    (h : readPair bs = some (pair, rest)) : rest.length < bs.length := by
  cases bs with
  | nil => cases h
  | cons b bs =>
    rw [readPair] at h
    rw [List.length_cons]
    split_ifs at h
    split at h
    · cases h
    · next c behind hbehind =>
      obtain ⟨⟨content, rest'⟩, hvalue, heq⟩ := Option.map_eq_some_iff.mp h
      cases heq
      have hle := length_le_of_readValue hvalue
      have hdrop := List.length_dropWhile_le (· ≠ 0x3D) bs
      rw [hbehind, List.length_cons] at hdrop
      dsimp only
      omega

/-- Reads pairs up to the last octet. -/
def readPairs (bs : Bytes) : Option (List (Bytes × Bytes)) :=
  if bs.isEmpty then some []
  else
    match _h : readPair bs with
    | none => none
    | some (pair, rest) => (readPairs rest).map (pair :: ·)
termination_by bs.length
decreasing_by exact length_lt_of_readPair _h

theorem readPairs_of_readPair {bs rest : Bytes} {pair : Bytes × Bytes}
    (h : readPair bs = some (pair, rest)) : readPairs bs = (readPairs rest).map (pair :: ·) := by
  have hlt := length_lt_of_readPair h
  rw [readPairs, if_neg (by cases bs <;> simp at hlt ⊢)]
  split
  · next hnone => exact absurd (hnone.symm.trans h) (by simp)
  · next pair' rest' hsome =>
    cases hsome.symm.trans h
    rfl

/-- Reads a body: the message, and the pairs behind it. -/
def read : Bytes → Option (Bytes × List (Bytes × Bytes))
  | [] => none
  | b :: rest =>
    if b = 0x22 then
      (readLiteral .plain rest).bind fun r => (readPairs r.2).map fun pairs => (r.1, pairs)
    else none

/-! ### Blocks -/

theorem readLines_inside {bs : Bytes} (h : 0x0A ∉ bs) (rest : Bytes) :
    readLines true (bs ++ rest) = prepend bs (readLines true rest) := by
  induction bs with
  | nil => simp
  | cons b bs ih =>
    rw [List.mem_cons, not_or] at h
    have hinside : (b != 0x0A) = true := bne_iff_ne.mpr (Ne.symm h.1)
    rw [List.cons_append, readLines, hinside, ih h.2, prepend_prepend, List.singleton_append]

/-- Characters up to a final line feed. -/
def terminated (cs : List Char) : List Char := if cs.getLast? = some '\n' then cs else cs ++ ['\n']

theorem terminated_cons {c : Char} {cs : List Char} (h : cs = [] → c ≠ '\n') :
    terminated (c :: cs) = c :: terminated cs := by
  cases cs with
  | nil => simp [terminated, h rfl]
  | cons d cs =>
    rw [terminated, terminated, List.getLast?_cons_cons]
    split_ifs <;> rfl

/-- Inside a line of a block, the rest of the block is read up to a final line feed. -/
theorem readLines_blockFrom (cs : List Char) (rest : Bytes) :
    readLines true (encode (blockFrom cs) ++ rest) = some (encode (terminated cs), rest) := by
  induction cs using blockFrom.induct with
  | case1 => rfl
  | case2 => rfl
  | case3 cs hne ih =>
    rw [blockFrom.eq_3 cs hne, terminated_cons fun hnil => absurd hnil hne]
    change prepend [0x0A] (readLines true (encode (blockFrom cs) ++ rest)) = _
    rw [ih, prepend_some]
    rfl
  | case4 c cs _ hc ih =>
    have hfeed : 0x0A ∉ String.utf8EncodeChar c := by
      intro hmem
      have hmem : 0x0A ∈ encode [c] := by simpa using hmem
      exact hc (List.mem_singleton.mp ((mem_encode_iff (by decide)).mp hmem)).symm
    rw [blockFrom.eq_4 c cs ‹_› hc, terminated_cons fun _ => hc, encode_cons, List.append_assoc,
      readLines_inside hfeed, ih, prepend_some, encode_cons]

/-! ### Values -/

/-- A text behind an equals sign is read as it was, up to a final line feed if it has several lines. -/
theorem readValue_valueChars (cs : List Char) (rest : Bytes) :
    readValue (encode (valueChars cs) ++ rest) = some (encode (lineEnded cs), rest) := by
  by_cases hlines : '\n' ∈ cs
  · have hended : lineEnded cs = terminated cs := by
      by_cases hlast : cs.getLast? = some '\n' <;> simp [lineEnded, terminated, hlines, hlast]
    rw [valueChars, if_pos hlines, hended]
    exact readLines_blockFrom cs rest
  · rw [valueChars, if_neg hlines, lineEnded, if_neg fun h => hlines h.1]
    exact readLiteral_quotedText cs rest

/-- What follows a pair: a space, or nothing. -/
def Boundary (rest : Bytes) : Prop := ∀ b ∈ rest.head?, b = 0x20

/-- A token that is neither empty nor looks like a literal or a block is read up to the next space. -/
theorem readValue_token {cs : List Char} (hne : cs ≠ []) (hcs : ∀ c ∈ cs, c ≠ ' ' ∧ c ≠ '"' ∧ c ≠ '<')
    {rest : Bytes} (hrest : Boundary rest) :
    readValue (encode cs ++ rest) = some (encode cs, rest) := by
  have hoctet : ∀ b ∈ encode cs, b ≠ 0x20 ∧ b ≠ 0x22 ∧ b ≠ 0x3C := by
    refine fun b hb => ⟨?_, ?_, ?_⟩ <;> rintro rfl
    · exact (hcs _ ((mem_encode_iff (by decide)).mp hb)).1 rfl
    · exact (hcs _ ((mem_encode_iff (by decide)).mp hb)).2.1 rfl
    · exact (hcs _ ((mem_encode_iff (by decide)).mp hb)).2.2 rfl
  have hspan : (encode cs ++ rest).span (· ≠ 0x20) = (encode cs, rest) := by
    have hpast : ∀ b ∈ encode cs, decide (b ≠ 0x20) = true := fun b hb => decide_eq_true (hoctet b hb).1
    rw [List.span_eq_takeWhile_dropWhile, List.takeWhile_append_of_pos hpast,
      List.dropWhile_append_of_pos hpast]
    cases rest with
    | nil => simp
    | cons b rest =>
      obtain rfl : b = 0x20 := hrest b rfl
      simp
  obtain ⟨b, bs, hbs⟩ : ∃ b bs, encode cs = b :: bs := by
    refine List.exists_cons_of_ne_nil fun hnil => ?_
    obtain ⟨c, cs, rfl⟩ := List.exists_cons_of_ne_nil hne
    exact String.utf8EncodeChar_ne_nil (List.append_eq_nil_iff.mp ((encode_cons c cs).symm.trans hnil)).1
  have hfirst := hoctet b (hbs ▸ List.mem_cons_self)
  rw [hbs, List.cons_append] at hspan ⊢
  rw [readValue, if_neg hfirst.2.1, if_neg hfirst.2.2, hspan]

theorem readValue_decimal (n : Nat) {rest : Bytes} (hrest : Boundary rest) :
    readValue (encode (decimal n) ++ rest) = some (encode (decimal n), rest) := by
  refine readValue_token (List.ne_nil_of_length_pos Nat.length_toDigits_pos) (fun c hc => ?_) hrest
  have hdigit := Nat.isDigit_of_mem_toDigits (by decide) (by decide) hc
  refine ⟨?_, ?_, ?_⟩ <;> rintro rfl <;> exact absurd hdigit (by decide)

theorem readValue_signedDecimal (i : Int) {rest : Bytes} (hrest : Boundary rest) :
    readValue (encode (signedDecimal i) ++ rest) = some (encode (signedDecimal i), rest) := by
  cases i with
  | ofNat n => exact readValue_decimal n hrest
  | negSucc n =>
    refine readValue_token (List.cons_ne_nil _ _) (fun c hc => ?_) hrest
    rcases List.mem_cons.mp hc with rfl | hc
    · decide
    · have hdigit := Nat.isDigit_of_mem_toDigits (by decide) (by decide) hc
      refine ⟨?_, ?_, ?_⟩ <;> rintro rfl <;> exact absurd hdigit (by decide)

/-- A value that has a content stands behind an equals sign and is read as that content. -/
theorem readValue_valueBytes (key : Bytes) {v : Value} {content : Bytes} (hv : v.content? = some content) :
    ∃ form, ({} : Formatter).valueBytes key v = 0x3D :: form ∧
      ∀ rest, Boundary rest → readValue (form ++ rest) = some (content, rest) := by
  cases v with
  | text s =>
    cases hv
    exact ⟨encode (valueChars s.toList), rfl, fun rest _ => readValue_valueChars s.toList rest⟩
  | shown h =>
    cases hv
    exact ⟨encode (valueChars (guarded h.run).toList), rfl, fun rest _ => readValue_valueChars _ rest⟩
  | bytes bs =>
    obtain rfl : bs = content := Option.some.inj hv
    exact ⟨quotedOctets bs, rfl, fun rest _ => readLiteral_quotedOctets bs rest⟩
  | bool b =>
    cases hv
    refine ⟨utf8 (toString b), by cases b <;> rfl, fun rest hrest => ?_⟩
    cases b <;> exact readValue_token (by simp [toString]) (by simp [toString]) hrest
  | int i =>
    cases hv
    exact ⟨encode (signedDecimal i), rfl, fun rest hrest => readValue_signedDecimal i hrest⟩
  | nat n =>
    cases hv
    exact ⟨encode (decimal n), rfl, fun rest hrest => readValue_decimal n hrest⟩
  | null =>
    cases hv
    exact ⟨utf8 "null", rfl, fun rest hrest => readValue_token (by simp) (by simp) hrest⟩
  | _ => cases hv

/-! ### Pairs -/

theorem readPair_rendering {key : Bytes} (hkey : 0x3D ∉ key) {v : Value} {content : Bytes}
    (hv : v.content? = some content) {rest : Bytes} (hrest : Boundary rest) :
    readPair ((⟨key, ({} : Formatter).valueBytes key v⟩ : Rendering).bytes ++ rest) =
      some ((key, content), rest) := by
  obtain ⟨form, hform, hread⟩ := readValue_valueBytes key hv
  have hpast : ∀ b ∈ key, decide (b ≠ 0x3D) = true := fun b hb =>
    decide_eq_true fun heq => hkey (heq ▸ hb)
  have hequals : ∀ tail : Bytes, (key ++ 0x3D :: tail).takeWhile (· ≠ 0x3D) = key ∧
      (key ++ 0x3D :: tail).dropWhile (· ≠ 0x3D) = 0x3D :: tail := by
    intro tail
    rw [List.takeWhile_append_of_pos hpast, List.dropWhile_append_of_pos hpast]
    simp
  obtain ⟨htake, hdrop⟩ := hequals (form ++ rest)
  simp only [Rendering.bytes, hform, List.cons_append, List.append_assoc]
  rw [readPair, if_pos rfl, htake, hdrop]
  simp only [hread rest hrest, Option.map_some]

theorem readPairs_flatMap {rs : List Rendering} {content : Rendering → Bytes}
    (h : ∀ r ∈ rs, 0x3D ∉ r.key ∧
      ∃ v, ({} : Formatter).valueBytes r.key v = r.value ∧ v.content? = some (content r)) :
    readPairs (rs.flatMap Rendering.bytes) = some (rs.map fun r => (r.key, content r)) := by
  induction rs with
  | nil =>
    rw [readPairs]
    rfl
  | cons r rs ih =>
    obtain ⟨hkey, v, hvalue, hcontent⟩ := h r List.mem_cons_self
    have hboundary : Boundary (rs.flatMap Rendering.bytes) := by
      cases rs with
      | nil => exact fun b hb => absurd hb (by simp)
      | cons s rs => exact fun b hb => (Option.some.inj hb).symm
    have hread := readPair_rendering hkey hcontent hboundary
    rw [hvalue] at hread
    rw [List.flatMap_cons, readPairs_of_readPair hread, ih fun s hs => h s (List.mem_cons_of_mem _ hs)]
    rfl

/-- The survivors of pairs are read as one pair for each of them, with the content of the last value of
its key. -/
theorem readPairs_survivors {pairs : List (Value × Value)}
    (hkeys : ∀ pair ∈ pairs, 0x3D ∉ Formatter.keyBytes pair.1)
    (hvalues : ∀ pair ∈ pairs, pair.2.content?.isSome) :
    ∃ entries,
      readPairs ((survivors (pairs.map ({} : Formatter).rendering)).flatMap Rendering.bytes) = some entries ∧
      entries.map Prod.fst = (survivors (pairs.map ({} : Formatter).rendering)).map Rendering.key ∧
      ∀ entry ∈ entries, ∃ v, lastValue? pairs entry.1 = some v ∧ v.content? = some entry.2 := by
  let content := fun r : Rendering => ((lastValue? pairs r.key).bind Value.content?).getD []
  have hsurvivor : ∀ r ∈ survivors (pairs.map ({} : Formatter).rendering), 0x3D ∉ r.key ∧
      ∃ v, lastValue? pairs r.key = some v ∧ ({} : Formatter).valueBytes r.key v = r.value ∧
        v.content? = some (content r) := by
    intro r hr
    obtain ⟨v, hlast, hvalue⟩ := lastValue?_of_mem_survivors {} hr
    obtain ⟨before, pair, after, rfl, hkey, rfl, -⟩ := exists_of_lastValue? hlast
    have hpair : pair ∈ before ++ pair :: after := by simp
    obtain ⟨c, hc⟩ := Option.isSome_iff_exists.mp (hvalues pair hpair)
    refine ⟨hkey ▸ hkeys pair hpair, pair.2, hlast, hvalue, ?_⟩
    simp only [content, hlast, Option.bind_some, hc, Option.getD_some]
  have hread := readPairs_flatMap fun r hr =>
    ⟨(hsurvivor r hr).1, (hsurvivor r hr).2.imp fun _ h => h.2⟩
  refine ⟨_, hread, ?_, fun entry hentry => ?_⟩
  · rw [List.map_map]
    rfl
  · obtain ⟨r, hr, rfl⟩ := List.mem_map.mp hentry
    obtain ⟨-, v, hlast, -, hcontent⟩ := hsurvivor r hr
    exact ⟨v, hlast, hcontent⟩

/-- A structured body is read to its last octet: as the message, and one pair for each key that the lists
have, in the order of the survivors, each with the content of the last value of its key. -/
theorem read_writeStructured (buf : Bytes) (message : String) (lists : List (List Value))
    (hkeys : ∀ pair ∈ lists.flatMap completePairs, 0x3D ∉ Formatter.keyBytes pair.1)
    (hvalues : ∀ pair ∈ lists.flatMap completePairs, pair.2.content?.isSome) :
    ∃ body entries,
      (({} : Formatter).writeStructured buf message lists).value = buf ++ body ∧
      read body = some (utf8 message, entries) ∧
      entries.map Prod.fst =
        (survivors ((lists.flatMap completePairs).map ({} : Formatter).rendering)).map Rendering.key ∧
      (entries.map Prod.fst).Nodup ∧
      (∀ key, key ∈ entries.map Prod.fst ↔
        ∃ pair ∈ lists.flatMap completePairs, Formatter.keyBytes pair.1 = key) ∧
      ∀ entry ∈ entries, ∃ v, lastValue? (lists.flatMap completePairs) entry.1 = some v ∧
        v.content? = some entry.2 := by
  obtain ⟨entries, hread, hfst, hlast⟩ := readPairs_survivors hkeys hvalues
  refine ⟨quoted message ++ (survivors ((lists.flatMap completePairs).map
    ({} : Formatter).rendering)).flatMap Rendering.bytes, entries, ?_, ?_, hfst, ?_, ?_, hlast⟩
  · rw [Formatter.writeStructured, Formatter.value_writeLists, List.append_assoc]
  · change (readLiteral .plain (encode (message.toList.flatMap quotedChar ++ ['"']) ++ _)).bind _ = _
    rw [readLiteral_quotedText, Option.bind_some, hread]
    rfl
  · rw [hfst]
    exact nodup_keys_survivors _
  · intro key
    rw [hfst, mem_keys_survivors]
    simp only [List.mem_map, exists_exists_and_eq_and]
    rfl

/-- Lists with a block that has the end of a block and a pair in it, a key that is given a value again
that panics, octets that are no text, and a key without a value. -/
def disguised : List (List Value) :=
  [[.text "text", .text "1", .text "block", .text "a\n >\n\" k=v", .nat 7, .bytes [0x22, 0x0A, 0xFF]],
    [.text "text", .shown ⟨none, "", .panics (.message "\" x=y")⟩, .text "odd"]]

theorem read_writeStructured_disguised :
    (∀ pair ∈ disguised.flatMap completePairs, 0x3D ∉ Formatter.keyBytes pair.1) ∧
      (∀ pair ∈ disguised.flatMap completePairs, pair.2.content?.isSome) ∧
      ∃ entries, read (({} : Formatter).writeStructured [] "say \"k=v\"" disguised).value =
          some (utf8 "say \"k=v\"", entries) ∧
        entries.map Prod.fst = [utf8 "block", utf8 "7", utf8 "text", utf8 "odd"] := by
  have hkeys : ∀ pair ∈ disguised.flatMap completePairs, 0x3D ∉ Formatter.keyBytes pair.1 := by
    decide +kernel
  have hvalues : ∀ pair ∈ disguised.flatMap completePairs, pair.2.content?.isSome := by
    decide +kernel
  obtain ⟨body, entries, hbody, hread, hfst, -⟩ :=
    read_writeStructured [] "say \"k=v\"" disguised hkeys hvalues
  rw [List.nil_append] at hbody
  exact ⟨hkeys, hvalues, entries, hbody ▸ hread, hfst.trans (by decide +kernel)⟩

end Body

end Logline
