import Mathlib
import Logline.FlagTable
import Logline.Proofs.Literal

/-!
# Documents and their texts

A JSON document can be written in many ways: with blanks or without, and its strings character by character
as they are or by escapes. A `Source` is what is left if all this is taken away. It keeps the members of an
object in the order of the text, repeated names included, and the digits of a number.

`Source.WrittenAs` says what the texts of a source are, without reading them from their front. The readers
of strings and numbers follow it: a spelled string is read as the text that it spells
(`readString_spells`), and a number is read as a natural number exactly if it is written as one
(`readNumber_spec`).
-/

namespace Logline.Json

open Text

/-! ### Strings -/

/-- Nothing but blanks. -/
def Blanks (cs : List Char) : Prop := ∀ c ∈ cs, isBlank c = true

/-- What is between blanks, if there are some. -/
def Padded (inner : List Char → Prop) (cs : List Char) : Prop :=
  ∃ before middle after, cs = before ++ (middle ++ after) ∧ Blanks before ∧ inner middle ∧ Blanks after

/-- The letters of the short escapes, with the characters that they stand for. -/
def letterEscapes : List (Char × Char) :=
  [('"', '"'), ('\\', '\\'), ('/', '/'), ('b', '\x08'), ('f', '\x0c'), ('n', '\n'), ('r', '\r'), ('t', '\t')]

/-- A text, and what may be written for it between quotes. -/
inductive Spells : List Char → List Char → Prop where
  | nil : Spells [] []
  | plain {c : Char} {cs ds : List Char} (hcontrol : ' ' ≤ c) (hquote : c ≠ '"') (hbackslash : c ≠ '\\')
    (h : Spells cs ds) : Spells (c :: cs) (c :: ds)
  | letter {letter c : Char} {cs ds : List Char} (hletter : (letter, c) ∈ letterEscapes)
    (h : Spells cs ds) : Spells (c :: cs) ('\\' :: letter :: ds)
  /-- The number of the character in four hexadecimal digits. -/
  | unit {c : Char} {digits cs ds : List Char} (hlength : digits.length = 4)
    (hdigits : hexNumber? digits = some c.toNat) (h : Spells cs ds) :
    Spells (c :: cs) ('\\' :: 'u' :: (digits ++ ds))
  /-- The halves of the number of a character beyond the basic plane. -/
  | pair {c : Char} {high low cs ds : List Char} (hbeyond : 0x10000 ≤ c.toNat)
    (hhigh : high.length = 4) (hlow : low.length = 4)
    (hfirst : hexNumber? high = some (0xD800 + (c.toNat - 0x10000) / 0x400))
    (hsecond : hexNumber? low = some (0xDC00 + (c.toNat - 0x10000) % 0x400)) (h : Spells cs ds) :
    Spells (c :: cs) ('\\' :: 'u' :: (high ++ '\\' :: 'u' :: (low ++ ds)))

/-- A text between quotes. -/
def Quotes (s : String) (cs : List Char) : Prop :=
  ∃ body, cs = '"' :: (body ++ ['"']) ∧ Spells s.toList body

/-! ### Numbers -/

/-- One digit or more. -/
def IsDigits (cs : List Char) : Prop := cs ≠ [] ∧ ∀ c ∈ cs, c.isDigit = true

/-- The number that digits denote. -/
def digitsValue (cs : List Char) : Nat := Nat.ofDigits 10 (cs.reverse.map fun c => c.toNat - '0'.toNat)

/-- A number as it is written. -/
structure NumberText where
  negative : Bool := false
  whole : List Char
  /-- With the point, if there is one. -/
  fraction : List Char := []
  /-- With its letter, if there is one. -/
  exponent : List Char := []
  isDigits_whole : IsDigits whole
  no_leading_zero : whole.head? = some '0' → whole = ['0']
  fraction_form : fraction = [] ∨ ∃ ds, fraction = '.' :: ds ∧ IsDigits ds
  exponent_form : exponent = [] ∨ ∃ letter ∈ ['e', 'E'], ∃ sign ∈ [[], ['+'], ['-']], ∃ ds,
    exponent = letter :: (sign ++ ds) ∧ IsDigits ds

namespace NumberText

/-- A number without its sign. -/
def magnitude (n : NumberText) : List Char := n.whole ++ (n.fraction ++ n.exponent)

def chars (n : NumberText) : List Char := if n.negative then '-' :: n.magnitude else n.magnitude

/-- The value of a number that is written with nothing but digits. -/
def natural? (n : NumberText) : Option Nat :=
  if n.negative = false ∧ n.fraction = [] ∧ n.exponent = [] then some (digitsValue n.whole) else none

end NumberText

/-! ### Documents -/

/-- A document as it is written, but for blanks and the spelling of strings. -/
inductive Source where
  | null
  | bool (b : Bool)
  | number (n : NumberText)
  | string (s : String)
  | array (items : List Source)
  | object (members : List (String × Source))

namespace Source

mutual

/-- The texts of a source. -/
def WrittenAs : Source → List Char → Prop
  | .null, cs => cs = ['n', 'u', 'l', 'l']
  | .bool b, cs => cs = if b then ['t', 'r', 'u', 'e'] else ['f', 'a', 'l', 's', 'e']
  | .number n, cs => cs = n.chars
  | .string s, cs => Quotes s cs
  | .array items, cs => ∃ body, cs = '[' :: (body ++ [']']) ∧ ItemsWrittenAs items body
  | .object members, cs => ∃ body, cs = '\x7b' :: (body ++ ['\x7d']) ∧ MembersWrittenAs members body

/-- The texts of the items of an array. -/
def ItemsWrittenAs : List Source → List Char → Prop
  | [], cs => Blanks cs
  | [v], cs => Padded (fun cs => v.WrittenAs cs) cs
  | v :: w :: rest, cs => ∃ item after, cs = item ++ ',' :: after ∧ Padded (fun cs => v.WrittenAs cs) item ∧
      ItemsWrittenAs (w :: rest) after

/-- The texts of the members of an object. -/
def MembersWrittenAs : List (String × Source) → List Char → Prop
  | [], cs => Blanks cs
  | [(name, v)], cs => ∃ key value, cs = key ++ ':' :: value ∧ Padded (Quotes name) key ∧
      Padded (fun cs => v.WrittenAs cs) value
  | (name, v) :: m :: rest, cs => ∃ key value after, cs = key ++ ':' :: (value ++ ',' :: after) ∧
      Padded (Quotes name) key ∧ Padded (fun cs => v.WrittenAs cs) value ∧ MembersWrittenAs (m :: rest) after

end

/-- A text that is a document, with blanks around it or without. -/
def IsText (v : Source) (text : String) : Prop := Padded v.WrittenAs text.toList

end Source

/-! ### Reading blanks and literals -/

theorem dropWhile_of_head? {p : Char → Bool} {cs : List Char} (h : ∀ c ∈ cs.head?, p c = false) :
    cs.dropWhile p = cs := by
  cases cs with
  | nil => rfl
  | cons c cs => exact List.dropWhile_cons_of_neg (by simp [h c rfl])

theorem skipBlanks_append {blanks : List Char} (h : Blanks blanks) (cs : List Char) :
    skipBlanks (blanks ++ cs) = skipBlanks cs :=
  List.dropWhile_append_of_pos h

theorem skipBlanks_eq_nil {blanks : List Char} (h : Blanks blanks) : skipBlanks blanks = [] := by
  rw [← List.append_nil blanks, skipBlanks_append h]
  rfl

theorem skipBlanks_cons {c : Char} (h : isBlank c = false) (cs : List Char) :
    skipBlanks (c :: cs) = c :: cs :=
  dropWhile_of_head? fun _ hc => Option.some.inj hc ▸ h

/-! ### Reading strings -/

theorem readUnit_append {digits : List Char} (hlength : digits.length = 4) {n : Nat}
    (hdigits : hexNumber? digits = some n) (rest : List Char) :
    ∃ left, readUnit (digits ++ rest) = .ok (n, left) ∧ left.1 = rest := by
  match digits, hlength with
  | [a, b, c, d], _ =>
    simp only [List.cons_append, List.nil_append, readUnit]
    rw [hdigits]
    exact ⟨_, rfl, rfl⟩

/-- No character has the number of a half of another one. -/
theorem toNat_valid (c : Char) : c.toNat < 0xD800 ∨ (0xDFFF < c.toNat ∧ c.toNat < 0x110000) := c.valid

theorem readEscape_letter {letter c : Char} (h : (letter, c) ∈ letterEscapes) (rest : List Char) :
    ∃ left, readEscape (letter :: rest) = .ok (c, left) ∧ left.1 = rest := by
  simp only [letterEscapes, List.mem_cons, Prod.mk.injEq, List.not_mem_nil, or_false] at h
  rcases h with ⟨rfl, rfl⟩ | ⟨rfl, rfl⟩ | ⟨rfl, rfl⟩ | ⟨rfl, rfl⟩ | ⟨rfl, rfl⟩ | ⟨rfl, rfl⟩ |
    ⟨rfl, rfl⟩ | ⟨rfl, rfl⟩ <;> exact ⟨_, rfl, rfl⟩

theorem readEscape_unit {digits : List Char} (hlength : digits.length = 4) {c : Char}
    (hdigits : hexNumber? digits = some c.toNat) (rest : List Char) :
    ∃ left, readEscape ('u' :: (digits ++ rest)) = .ok (c, left) ∧ left.1 = rest := by
  obtain ⟨left, hread, hleft⟩ := readUnit_append hlength hdigits rest
  have hvalid := toNat_valid c
  rw [readEscape, hread]
  dsimp only
  rw [if_neg (by omega), if_neg (by omega), Char.ofNat_toNat]
  exact ⟨_, rfl, hleft⟩

theorem readEscape_pair {high low : List Char} (hhigh : high.length = 4) (hlow : low.length = 4) {c : Char}
    (hbeyond : 0x10000 ≤ c.toNat) (hfirst : hexNumber? high = some (0xD800 + (c.toNat - 0x10000) / 0x400))
    (hsecond : hexNumber? low = some (0xDC00 + (c.toNat - 0x10000) % 0x400)) (rest : List Char) :
    ∃ left, readEscape ('u' :: (high ++ '\\' :: 'u' :: (low ++ rest))) = .ok (c, left) ∧ left.1 = rest := by
  obtain ⟨behind, hread, hbehind⟩ := readUnit_append hhigh hfirst ('\\' :: 'u' :: (low ++ rest))
  obtain ⟨left, hread', hleft⟩ := readUnit_append hlow hsecond rest
  have hvalid := toNat_valid c
  have hsum : (0xD800 + (c.toNat - 0x10000) / 0x400 - 0xD800) * 0x400 +
      (0xDC00 + (c.toNat - 0x10000) % 0x400 - 0xDC00) + 0x10000 = c.toNat := by omega
  have hpair : ∃ final, readLowUnit (0xD800 + (c.toNat - 0x10000) / 0x400) behind.1 = .ok (c, final) ∧
      final.1 = rest := by
    rw [hbehind, readLowUnit, hread']
    dsimp only
    rw [if_pos (by omega), hsum, Char.ofNat_toNat]
    exact ⟨_, rfl, hleft⟩
  obtain ⟨final, hfinal, hrest⟩ := hpair
  rw [readEscape, hread]
  dsimp only
  rw [if_neg (by omega), if_pos (by omega), hfinal]
  exact ⟨_, rfl, hrest⟩

/-- A spelled string is read as what it spells, up to its closing quote. -/
theorem readString_spells {text body : List Char} (h : Spells text body) (rest : List Char) :
    readString (body ++ '"' :: rest) = .ok (text, rest) := by
  induction h with
  | nil => rw [List.nil_append, readString]
  | @plain c cs ds hcontrol hquote hbackslash h ih =>
    rw [List.cons_append, readString, ih]
    · simp [Char.not_lt.mpr hcontrol]
    · exact hquote
    · exact hbackslash
  | @letter letter c cs ds hletter h ih =>
    obtain ⟨left, hread, hleft⟩ := readEscape_letter hletter (ds ++ '"' :: rest)
    rw [List.cons_append, List.cons_append, readString, hread]
    simp only [hleft, ih]
  | @unit c digits cs ds hlength hdigits h ih =>
    obtain ⟨left, hread, hleft⟩ := readEscape_unit hlength hdigits (ds ++ '"' :: rest)
    rw [List.cons_append, List.cons_append, List.append_assoc, readString, hread]
    simp only [hleft, ih]
  | @pair c high low cs ds hbeyond hhigh hlow hfirst hsecond h ih =>
    obtain ⟨left, hread, hleft⟩ := readEscape_pair hhigh hlow hbeyond hfirst hsecond (ds ++ '"' :: rest)
    simp only [List.cons_append, List.append_assoc] at hread ⊢
    rw [readString, hread]
    simp only [hleft, ih]

/-! ### Reading numbers -/

/-- What may follow a number: it does not go on there. -/
def Stops (cs : List Char) : Prop :=
  ∀ c ∈ cs.head?, c.isDigit = false ∧ c ≠ '.' ∧ c ≠ 'e' ∧ c ≠ 'E'

/-- What is read is a floating point number, if it is a number at all. -/
def IsFloat (result : Except ReadError (Number × List Char)) : Prop :=
  ∀ n rest, result = .ok (n, rest) → ∃ x, n = .float x

theorem IsFloat.ne_natural {result : Except ReadError (Number × List Char)} (h : IsFloat result) (k : Nat)
    (left : List Char) : result ≠ .ok (.natural k, left) := by
  intro heq
  obtain ⟨x, hx⟩ := h _ _ heq
  cases hx

theorem finishFloat_def : finishFloat = fun negative significand exponent rest =>
    match scaled significand exponent with
    | some x => .ok (.float (if negative then x.negated else x), rest)
    | none => .error .malformed := by
  delta finishFloat
  rfl

theorem isFloat_finishFloat (negative : Bool) (significand : Nat) (exponent : Int) (cs : List Char) :
    IsFloat (finishFloat negative significand exponent cs) := by
  rw [finishFloat_def]
  beta_reduce
  generalize scaled significand exponent = x?
  cases x? with
  | none => exact nofun
  | some x =>
    intro n rest h
    cases h
    exact ⟨_, rfl⟩

theorem isFloat_readExponentDigits (negative : Bool) (significand : Nat) (exponent : Int) (downward : Bool)
    (cs : List Char) : IsFloat (readExponentDigits negative significand exponent downward cs) := by
  rw [readExponentDigits]
  split
  · exact nofun
  · exact nofun
  · exact isFloat_finishFloat _ _ _ _

theorem isFloat_readExponent (negative : Bool) (significand : Nat) (exponent : Int) (cs : List Char) :
    IsFloat (readExponent negative significand exponent cs) := by
  rw [readExponent.eq_def]
  split <;> exact isFloat_readExponentDigits _ _ _ _ _

theorem isFloat_readFloatEnd (negative : Bool) (significand : Nat) (exponent : Int) (cs : List Char) :
    IsFloat (readFloatEnd negative significand exponent cs) := by
  rw [readFloatEnd.eq_def]
  split
  · exact isFloat_readExponent _ _ _ _
  · exact isFloat_readExponent _ _ _ _
  · exact isFloat_finishFloat _ _ _ _

theorem isFloat_readFraction (negative : Bool) (significand : Nat) (exponent : Int) (cs : List Char) :
    IsFloat (readFraction negative significand exponent cs) := by
  rw [readFraction]
  split
  · exact nofun
  · exact nofun
  · exact isFloat_readFloatEnd _ _ _ _

theorem digits_append {ds : List Char} (hds : ∀ c ∈ ds, c.isDigit = true) {rest : List Char}
    (hrest : ∀ c ∈ rest.head?, c.isDigit = false) :
    digits (ds ++ rest) = (ds.map fun c => c.toNat - '0'.toNat, rest) := by
  have htake : rest.takeWhile Char.isDigit = [] := by
    cases rest with
    | nil => rfl
    | cons c rest => exact List.takeWhile_cons_of_neg (by simp [hrest c rfl])
  rw [digits, List.takeWhile_append_of_pos hds, List.dropWhile_append_of_pos hds, htake,
    dropWhile_of_head? hrest, List.append_nil]

theorem digitsValue_eq (cs : List Char) :
    digitsValue cs = (cs.map fun c => c.toNat - '0'.toNat).foldl (fun n d => n * 10 + d) 0 := by
  rw [digitsValue, Nat.ofDigits_eq_foldr, List.map_reverse, List.foldr_reverse]
  simp only [Nat.cast_id, Nat.mul_comm, Nat.add_comm]

/-- Digits are taken in as long as the number fits into 64 bits, so all of them are if all of it fits. -/
theorem absorb_spec (s : Nat) (ds : List Nat) :
    absorb s ds = (ds.foldl (fun n d => n * 10 + d) s, []) ∨
      ((absorb s ds).2 ≠ [] ∧ UInt64.size ≤ ds.foldl (fun n d => n * 10 + d) s) := by
  have hgrows : ∀ (ds : List Nat) (s : Nat), s ≤ ds.foldl (fun n d => n * 10 + d) s := by
    intro ds
    induction ds with
    | nil => exact fun s => le_rfl
    | cons d ds ih => exact fun s => le_trans (by omega) (ih (s * 10 + d))
  induction ds generalizing s with
  | nil => exact .inl rfl
  | cons d ds ih =>
    rw [absorb]
    split
    · exact ih (s * 10 + d)
    · next hlarge => exact .inr ⟨List.cons_ne_nil d ds, (Nat.not_lt.mp hlarge).trans (hgrows ds _)⟩

theorem integerNumber_true (n k : Nat) : integerNumber true n ≠ .natural k := by
  rw [integerNumber, if_neg (by decide)]
  split <;> nofun

theorem readAfterInteger_stops {rest : List Char} (h : Stops rest) (negative : Bool)
    (significand dropped : Nat) :
    readAfterInteger negative significand dropped rest =
      if dropped = 0 then .ok (integerNumber negative significand, rest)
      else finishFloat negative significand dropped rest := by
  cases rest with
  | nil => rfl
  | cons c rest =>
    obtain ⟨-, hpoint, hlower, hupper⟩ := h c rfl
    rw [readAfterInteger.eq_def]
    split
    · next heq => cases heq; exact (hpoint rfl).elim
    · split
      · next heq => cases heq; exact (hlower rfl).elim
      · next heq => cases heq; exact (hupper rfl).elim
      · rfl

theorem isFloat_readAfterInteger {c : Char} (h : c ∈ ['.', 'e', 'E']) (negative : Bool)
    (significand dropped : Nat) (cs : List Char) :
    IsFloat (readAfterInteger negative significand dropped (c :: cs)) := by
  simp only [List.mem_cons, List.not_mem_nil, or_false] at h
  rcases h with rfl | rfl | rfl
  · exact isFloat_readFraction _ _ _ _
  · exact isFloat_readExponent _ _ _ _
  · exact isFloat_readExponent _ _ _ _

theorem toNat_sub_eq_zero_iff {c : Char} (h : c.isDigit = true) : c.toNat - '0'.toNat = 0 ↔ c = '0' := by
  have hlow : '0'.toNat ≤ c.toNat := by
    simp only [Char.isDigit, Bool.and_eq_true, decide_eq_true_eq] at h
    exact h.1
  rw [Nat.sub_eq_zero_iff_le, ← Char.toNat_inj]
  omega

theorem readNumber_whole (n : NumberText) {tail : List Char} (htail : ∀ c ∈ tail.head?, c.isDigit = false)
    (negative : Bool) :
    readNumber negative (n.whole ++ tail) =
      let taken := absorb 0 (n.whole.map fun c => c.toNat - '0'.toNat)
      readAfterInteger negative taken.1 taken.2.length tail := by
  obtain ⟨hne, hdigits⟩ := n.isDigits_whole
  have hzero := n.no_leading_zero
  rw [readNumber, digits_append hdigits htail]
  cases hwhole : n.whole with
  | nil => exact (hne hwhole).elim
  | cons c more =>
    rw [hwhole] at hzero hdigits
    have hfirst := toNat_sub_eq_zero_iff (hdigits c List.mem_cons_self)
    by_cases hc : c = '0'
    · -- a zero is the only digit then
      have hmore : c :: more = ['0'] := hzero (congrArg some hc)
      rw [hmore]
      rfl
    · rw [List.map_cons]
      generalize hd : c.toNat - '0'.toNat = d
      rw [hd] at hfirst
      cases d with
      | zero => exact (hc (hfirst.mp rfl)).elim
      | succ d => rfl

/-- A fraction starts with a point and an exponent with a letter. -/
theorem NumberText.tail_cons (n : NumberText) (h : ¬ (n.fraction = [] ∧ n.exponent = [])) :
    ∃ c ∈ ['.', 'e', 'E'], ∃ cs, n.fraction ++ n.exponent = c :: cs := by
  rcases n.fraction_form with hnone | ⟨ds, hfraction, -⟩
  · rcases n.exponent_form with hnone' | ⟨letter, hletter, sign, -, ds, hexponent, -⟩
    · exact (h ⟨hnone, hnone'⟩).elim
    · exact ⟨letter, List.mem_cons_of_mem _ hletter, _, by rw [hnone, hexponent]; rfl⟩
  · exact ⟨'.', List.mem_cons_self, _, by rw [hfraction]; rfl⟩

/-- A fraction or an exponent makes a number a floating point number, a whole one too. -/
theorem readNumber_tailed (n : NumberText) (h : ¬ (n.fraction = [] ∧ n.exponent = [])) (rest : List Char) :
    n.natural? = none ∧ IsFloat (readNumber n.negative (n.magnitude ++ rest)) := by
  obtain ⟨c, hc, cs, htail⟩ := n.tail_cons h
  have hdigit : ∀ d ∈ (c :: (cs ++ rest)).head?, d.isDigit = false := by
    rintro d hd
    cases hd
    simp only [List.mem_cons, List.not_mem_nil, or_false] at hc
    rcases hc with rfl | rfl | rfl <;> rfl
  constructor
  · rw [NumberText.natural?, if_neg fun hall => h hall.2]
  · rw [NumberText.magnitude, htail, List.append_assoc, List.cons_append,
      readNumber_whole n hdigit n.negative]
    exact isFloat_readAfterInteger hc _ _ _ _

/-- A number is read as a natural number if it is written as one that fits into 64 bits, and otherwise as
another number, or not at all. -/
theorem readNumber_spec (n : NumberText) {rest : List Char} (hrest : Stops rest) :
    (∃ k, n.natural? = some k ∧
        readNumber n.negative (n.magnitude ++ rest) = .ok (.natural k, rest)) ∨
      ((∀ k, n.natural? = some k → UInt64.size ≤ k) ∧
        ∀ k left, readNumber n.negative (n.magnitude ++ rest) ≠ .ok (.natural k, left)) := by
  by_cases hplain : n.fraction = [] ∧ n.exponent = []
  · have hmagnitude : n.magnitude = n.whole := by
      rw [NumberText.magnitude, hplain.1, hplain.2, List.append_nil, List.append_nil]
    have hread := readNumber_whole n (fun c hc => (hrest c hc).1) n.negative
    rw [readAfterInteger_stops hrest] at hread
    rw [hmagnitude, hread]
    rcases absorb_spec 0 (n.whole.map fun c => c.toNat - '0'.toNat) with hall | ⟨hleft, hlarge⟩
    · rw [hall]
      cases hsign : n.negative with
      | false =>
        refine .inl ⟨digitsValue n.whole, ?_, ?_⟩
        · rw [NumberText.natural?, if_pos ⟨hsign, hplain⟩]
        · rw [digitsValue_eq]
          rfl
      | true =>
        refine .inr ⟨?_, fun k left heq => ?_⟩
        · rw [NumberText.natural?, if_neg (by simp [hsign])]
          nofun
        · exact integerNumber_true _ k (Prod.mk.inj (Except.ok.inj heq)).1
    · have hlength : (absorb 0 (n.whole.map fun c => c.toNat - '0'.toNat)).2.length ≠ 0 := by
        rwa [Ne, List.length_eq_zero_iff]
      refine .inr ⟨fun k hk => ?_, ?_⟩
      · rw [NumberText.natural?, Option.ite_none_right_eq_some, Option.some.injEq] at hk
        rwa [← hk.2, digitsValue_eq]
      · simp only [if_neg hlength]
        exact (isFloat_finishFloat _ _ _ _).ne_natural
  · obtain ⟨hnatural, hfloat⟩ := readNumber_tailed n hplain rest
    refine .inr ⟨?_, hfloat.ne_natural⟩
    rw [hnatural]
    nofun

/-! ### Where a text begins -/

/-- The characters that the texts of a source may start with. -/
def Source.Starts : Source → Char → Prop
  | .null, c => c = 'n'
  | .bool _, c => c = 't' ∨ c = 'f'
  | .number _, c => c = '-' ∨ c.isDigit = true
  | .string _, c => c = '"'
  | .array _, c => c = '['
  | .object _, c => c = '\x7b'

theorem NumberText.magnitude_cons (n : NumberText) :
    ∃ c cs, n.magnitude = c :: cs ∧ c.isDigit = true := by
  obtain ⟨hne, hdigits⟩ := n.isDigits_whole
  obtain ⟨c, cs, hwhole⟩ := List.exists_cons_of_ne_nil hne
  refine ⟨c, cs ++ (n.fraction ++ n.exponent), ?_, hdigits c (hwhole ▸ List.mem_cons_self)⟩
  rw [NumberText.magnitude, hwhole, List.cons_append]

theorem Source.starts {v : Source} {cs : List Char} (h : v.WrittenAs cs) :
    ∃ c rest, cs = c :: rest ∧ v.Starts c := by
  cases v with
  | null => exact ⟨'n', _, h, rfl⟩
  | bool b =>
    cases b with
    | true => exact ⟨'t', _, h, .inl rfl⟩
    | false => exact ⟨'f', _, h, .inr rfl⟩
  | number n =>
    have htext : cs = n.chars := h
    obtain ⟨c, rest, hmagnitude, hdigit⟩ := n.magnitude_cons
    rw [NumberText.chars, hmagnitude] at htext
    cases hsign : n.negative with
    | true => exact ⟨'-', c :: rest, by rw [htext, if_pos hsign], .inl rfl⟩
    | false => exact ⟨c, rest, by rw [htext, if_neg (by simp [hsign])], .inr hdigit⟩
  | string s =>
    obtain ⟨body, htext, -⟩ := h
    exact ⟨'"', _, htext, rfl⟩
  | array items =>
    obtain ⟨body, htext, -⟩ := h
    exact ⟨'[', _, htext, rfl⟩
  | object members =>
    obtain ⟨body, htext, -⟩ := h
    exact ⟨'\x7b', _, htext, rfl⟩

theorem Source.Starts.not_blank {v : Source} {c : Char} (h : v.Starts c) : isBlank c = false := by
  have hdigit : c.isDigit = true → isBlank c = false := by
    intro hdigit
    by_contra hblank
    rw [Bool.not_eq_false, isBlank] at hblank
    simp only [Bool.or_eq_true, beq_iff_eq] at hblank
    rcases hblank with ((rfl | rfl) | rfl) | rfl <;> cases hdigit
  cases v with
  | bool b => rcases h with rfl | rfl <;> rfl
  | number n =>
    rcases h with rfl | h
    · rfl
    · exact hdigit h
  | _ =>
    obtain rfl := h
    rfl

/-- A reader that begins behind blanks is at the first character of a source. -/
theorem skipBlanks_source {v : Source} {before cs : List Char} (hbefore : Blanks before)
    (h : v.WrittenAs cs) (rest : List Char) :
    ∃ c more, cs = c :: more ∧ v.Starts c ∧
      skipBlanks (before ++ (cs ++ rest)) = c :: (more ++ rest) := by
  obtain ⟨c, more, hcs, hstarts⟩ := Source.starts h
  refine ⟨c, more, hcs, hstarts, ?_⟩
  rw [skipBlanks_append hbefore, hcs, List.cons_append, skipBlanks_cons hstarts.not_blank]

/-! ### Reading values of a wanted kind -/

section wanted

variable {v : Source} {before cs : List Char} (hbefore : Blanks before)

include hbefore

theorem readBool_bool {b : Bool} (h : (Source.bool b).WrittenAs cs) (rest : List Char) :
    readBool (before ++ (cs ++ rest)) = .ok (b, rest) := by
  have htext : cs = if b then ['t', 'r', 'u', 'e'] else ['f', 'a', 'l', 's', 'e'] := h
  rw [readBool, skipBlanks_append hbefore, htext]
  cases b <;> rfl

theorem readBool_mismatch (h : v.WrittenAs cs) (hv : ∀ b, v ≠ .bool b) (rest : List Char) :
    ∃ e, readBool (before ++ (cs ++ rest)) = .error e := by
  obtain ⟨c, more, -, hstarts, hskip⟩ := skipBlanks_source hbefore h rest
  have hc : c ≠ 't' ∧ c ≠ 'f' := by
    cases v with
    | bool b => exact (hv b rfl).elim
    | number n =>
      rcases hstarts with rfl | hdigit
      · decide
      · constructor <;> (rintro rfl; cases hdigit)
    | _ => obtain rfl := hstarts; decide
  rw [readBool, hskip]
  split
  · next heq => cases heq
  · next heq => cases heq; exact (hc.1 rfl).elim
  · next heq => cases heq; exact (hc.2 rfl).elim
  · exact ⟨_, rfl⟩

theorem readText_string {s : String} (h : (Source.string s).WrittenAs cs) (rest : List Char) :
    readText (before ++ (cs ++ rest)) = .ok (s, rest) := by
  obtain ⟨body, rfl, hspells⟩ := h
  have hread := readString_spells hspells rest
  have hquote : isBlank '"' = false := rfl
  rw [readText, skipBlanks_append hbefore, List.cons_append, skipBlanks_cons hquote, List.append_assoc,
    List.singleton_append]
  show (readString (body ++ '"' :: rest)).map (fun r => (String.ofList r.1, r.2)) = _
  rw [hread, Except.map, String.ofList_toList]

theorem readText_mismatch (h : v.WrittenAs cs) (hv : ∀ s, v ≠ .string s) (rest : List Char) :
    ∃ e, readText (before ++ (cs ++ rest)) = .error e := by
  obtain ⟨c, more, -, hstarts, hskip⟩ := skipBlanks_source hbefore h rest
  have hc : c ≠ '"' := by
    cases v with
    | bool b => rcases hstarts with rfl | rfl <;> decide
    | number n =>
      rcases hstarts with rfl | hdigit
      · decide
      · rintro rfl
        cases hdigit
    | string s => exact (hv s rfl).elim
    | _ => obtain rfl := hstarts; decide
  rw [readText, hskip]
  split
  · next heq => cases heq
  · next heq => cases heq; exact (hc rfl).elim
  · exact ⟨_, rfl⟩

/-- The sign and the digits are read first, the bound is checked afterwards. -/
theorem readUInt32_eq {n : NumberText} (h : (Source.number n).WrittenAs cs) (rest : List Char) :
    readUInt32 (before ++ (cs ++ rest)) =
      (readNumber n.negative (n.magnitude ++ rest)).bind fun r => r.1.toUInt32.map fun k => (k, r.2) := by
  have htext : cs = n.chars := h
  obtain ⟨c, more, hmagnitude, hdigit⟩ := n.magnitude_cons
  rw [readUInt32, skipBlanks_append hbefore, htext, NumberText.chars]
  generalize hresult : readNumber n.negative (n.magnitude ++ rest) = result
  cases hsign : n.negative with
  | true =>
    rw [hsign] at hresult
    rw [if_pos rfl, List.cons_append, skipBlanks_cons (by decide)]
    split
    · next heq => cases heq
    · next heq =>
      cases heq
      simp only [hresult]
      rcases result with e | ⟨m, left⟩ <;> rfl
    · next hsigned heq =>
      cases heq
      exact (hsigned rfl).elim
  | false =>
    have hblank : isBlank c = false := Source.Starts.not_blank (v := .number n) (.inr hdigit)
    rw [hsign, hmagnitude, List.cons_append] at hresult
    rw [if_neg (by decide), hmagnitude, List.cons_append, skipBlanks_cons hblank]
    split
    · next heq => cases heq
    · next heq => cases heq; cases hdigit
    · next heq =>
      cases heq
      simp only [if_pos hdigit, hresult]
      rcases result with e | ⟨m, left⟩ <;> rfl

/-- A number that is too large, or negative, or not an integer, is refused. -/
theorem readUInt32_number {n : NumberText} (h : (Source.number n).WrittenAs cs) {rest : List Char}
    (hrest : Stops rest) :
    (∃ k : UInt32, n.natural? = some k.toNat ∧ readUInt32 (before ++ (cs ++ rest)) = .ok (k, rest)) ∨
      ((∀ k : UInt32, n.natural? ≠ some k.toNat) ∧ ∃ e, readUInt32 (before ++ (cs ++ rest)) = .error e) := by
  rw [readUInt32_eq hbefore h]
  rcases readNumber_spec n hrest with ⟨k, hnatural, hk⟩ | ⟨hlarge, hother⟩
  · rw [hk]
    dsimp only [Except.bind, Number.toUInt32]
    split
    · next hlt =>
      refine .inl ⟨.ofNat k, ?_, rfl⟩
      rw [hnatural, UInt32.toNat_ofNat_of_lt' hlt]
    · next hge =>
      refine .inr ⟨fun m hm => hge ?_, _, rfl⟩
      rw [Option.some.inj (hnatural.symm.trans hm)]
      exact m.toNat_lt
  · have hnone : ∀ k : UInt32, n.natural? ≠ some k.toNat := fun k hk => by
      have hsmall : k.toNat < UInt64.size := lt_trans k.toNat_lt (by decide)
      exact absurd (hlarge k.toNat hk) (Nat.not_le.mpr hsmall)
    refine .inr ⟨hnone, ?_⟩
    generalize readNumber n.negative (n.magnitude ++ rest) = result at hother
    rcases result with e | ⟨number, left⟩
    · exact ⟨e, rfl⟩
    · cases number with
      | natural k => exact (hother k left rfl).elim
      | negative i => exact ⟨_, rfl⟩
      | float x => exact ⟨_, rfl⟩

theorem readUInt32_mismatch (h : v.WrittenAs cs) (hv : ∀ n, v ≠ .number n) (rest : List Char) :
    ∃ e, readUInt32 (before ++ (cs ++ rest)) = .error e := by
  obtain ⟨c, more, -, hstarts, hskip⟩ := skipBlanks_source hbefore h rest
  have hc : c ≠ '-' ∧ ¬ c.isDigit = true := by
    cases v with
    | bool b => rcases hstarts with rfl | rfl <;> decide
    | number n => exact (hv n rfl).elim
    | _ => obtain rfl := hstarts; decide
  rw [readUInt32, hskip]
  split
  · next heq => cases heq
  · next heq => cases heq; exact (hc.1 rfl).elim
  · next heq =>
    cases heq
    rw [if_neg hc.2]
    exact ⟨_, rfl⟩

end wanted

/-! ### Compact texts -/

theorem Spells.stringChar {cs ds : List Char} (h : Spells cs ds) (c : Char) :
    Spells (c :: cs) (stringChar c ++ ds) := by
  have hletter : ∀ letter, (letter, c) ∈ letterEscapes → Spells (c :: cs) (['\\', letter] ++ ds) :=
    fun letter hmem => .letter hmem h
  rw [Json.stringChar]
  simp only [beq_iff_eq]
  split_ifs with hquote hbackslash hbackspace hfeed hline hreturn htab hcontrol
  · exact hletter _ (by simp [letterEscapes, hquote])
  · exact hletter _ (by simp [letterEscapes, hbackslash])
  · exact hletter _ (by simp [letterEscapes, hbackspace])
  · exact hletter _ (by simp [letterEscapes, hfeed])
  · exact hletter _ (by simp [letterEscapes, hline])
  · exact hletter _ (by simp [letterEscapes, hreturn])
  · exact hletter _ (by simp [letterEscapes, htab])
  · have hsmall : c.toNat < 16 ^ 4 := lt_trans (show c.toNat < 32 from hcontrol) (by decide)
    exact .unit (length_hexadecimal (by decide) hsmall) (hexNumber?_hexadecimal 4 c.toNat) h
  · exact .plain (Char.not_lt.mp hcontrol) hquote hbackslash h

theorem spells_flatMap_stringChar (cs : List Char) : Spells cs (cs.flatMap stringChar) := by
  induction cs with
  | nil => exact .nil
  | cons c cs ih => exact ih.stringChar c

theorem quotes_stringChars (s : String) : Quotes s (stringChars s) :=
  ⟨_, rfl, spells_flatMap_stringChar s.toList⟩

theorem digitsValue_concat (cs : List Char) (c : Char) :
    digitsValue (cs ++ [c]) = 10 * digitsValue cs + (c.toNat - '0'.toNat) := by
  rw [digitsValue, List.reverse_concat, List.map_cons, Nat.ofDigits_cons, digitsValue, Nat.add_comm]

theorem digitsValue_decimal (n : Nat) : digitsValue (decimal n) = n := by
  have hdigit : ∀ d < 10, d.digitChar.toNat - '0'.toNat = d := by decide
  rw [decimal]
  induction n using Nat.strong_induction_on with
  | _ n ih =>
    rw [Nat.toDigits_eq_if (by decide)]
    split
    · next hlt =>
      have hsingle := digitsValue_concat [] n.digitChar
      rw [hdigit n hlt] at hsingle
      exact hsingle.trans (Nat.zero_add n)
    · next hge =>
      rw [digitsValue_concat, ih (n / 10) (by omega), hdigit _ (Nat.mod_lt n (by decide))]
      omega

theorem isDigits_decimal (n : Nat) : IsDigits (decimal n) :=
  ⟨List.ne_nil_of_length_pos Nat.length_toDigits_pos, fun _ hc =>
    Nat.isDigit_of_mem_toDigits (by decide) (by decide) hc⟩

theorem decimal_leading_zero (n : Nat) (h : (decimal n).head? = some '0') : decimal n = ['0'] := by
  rw [decimal] at h ⊢
  induction n using Nat.strong_induction_on with
  | _ n ih =>
    rw [Nat.toDigits_eq_if (by decide)] at h ⊢
    split at h
    · next hlt =>
      rw [if_pos hlt]
      exact congrArg (· :: []) (Option.some.inj h)
    · next hge =>
      -- the digits before the last one are those of a number that is not zero
      have hfront : (Nat.toDigits 10 (n / 10)).head? = some '0' := by
        have hne : Nat.toDigits 10 (n / 10) ≠ [] := (isDigits_decimal (n / 10)).1
        rwa [List.head?_append_of_ne_nil _ hne] at h
      have hzero := digitsValue_decimal (n / 10)
      rw [decimal, ih (n / 10) (by omega) hfront] at hzero
      have hvalue : digitsValue ['0'] = 0 := rfl
      omega

/-- A natural number, written with its digits. -/
def NumberText.ofNat (n : Nat) : NumberText where
  whole := decimal n
  isDigits_whole := isDigits_decimal n
  no_leading_zero := decimal_leading_zero n
  fraction_form := .inl rfl
  exponent_form := .inl rfl

theorem NumberText.natural?_ofNat (n : Nat) : (NumberText.ofNat n).natural? = some n :=
  congrArg some (digitsValue_decimal n)

theorem NumberText.chars_ofNat (n : Nat) : (NumberText.ofNat n).chars = decimal n :=
  (congrArg (decimal n ++ ·) (List.append_nil [])).trans (List.append_nil _)

theorem Padded.of_bare {inner : List Char → Prop} {cs : List Char} (h : inner cs) : Padded inner cs :=
  ⟨[], cs, [], (List.append_nil cs).symm, nofun, h, nofun⟩

/-- Members are written between commas, if their values are. -/
theorem membersWrittenAs_memberChars {sources : List (String × Source)} {members : List (String × Json)}
    (h : List.Forall₂ (fun s m => s.1 = m.1 ∧ s.2.WrittenAs (chars m.2)) sources members) :
    Source.MembersWrittenAs sources (memberChars members) := by
  induction h with
  | nil => exact nofun
  | @cons source member sources members hfirst hrest ih =>
    obtain ⟨name, v⟩ := source
    obtain ⟨name', v'⟩ := member
    obtain ⟨rfl, hvalue⟩ := hfirst
    cases hrest with
    | nil => exact ⟨_, _, rfl, .of_bare (quotes_stringChars name), .of_bare hvalue⟩
    | cons hnext hrest =>
      refine ⟨_, _, _, ?_, .of_bare (quotes_stringChars name), .of_bare hvalue, ih⟩
      simp only [memberChars, List.append_assoc, List.cons_append]

end Logline.Json
