import Mathlib
import Logline.Line
import Logline.Proofs.JsonTexts
import Logline.Proofs.TextValues

/-!
# Headers are read back

`Header.read` takes a header apart. The fields up to the process have a fixed place: numbers of a fixed
number of digits with marks between them. The process is a number with blanks before it, and may be wider
than its field. The name of the file comes behind one more blank and may hold any character, a blank, a
colon or a bracket among them; so the call site is read from its end.

Each part is read back whatever follows it, and the site whatever its name begins with.

Main statement: `header_readable`. It also says what the name in a header is of the path of the file, and
where in the header it stands.
-/

namespace Logline

open Text
open Json (IsDigits digitsValue isDigits_decimal digitsValue_decimal)

/-- A time of day on a day of the year, as a clock shows it. Nanoseconds beyond the second are those of a
leap second, and follow the last second of a minute. -/
structure Stamp.Valid (t : Stamp) : Prop where
  month : 1 ≤ t.month ∧ t.month ≤ 12
  day : 1 ≤ t.day ∧ t.day ≤ 31
  hour : t.hour < 24
  minute : t.minute < 60
  second : t.second < 60
  nano : t.nano < 1000000000 ∨ t.second = 59 ∧ t.nano < 2000000000

namespace Stamp.Valid

variable {t : Stamp}

/-- The second that is shown: that of the clock, or the sixtieth for a leap second. -/
theorem shown_second (h : t.Valid) :
    t.second + t.nano / 1000000000 = if t.nano < 1000000000 then t.second else 60 := by
  have hnano := h.nano
  split <;> omega

/-- Two digits are enough for each field. -/
theorem fields_lt (h : t.Valid) :
    t.month < 10 ^ 2 ∧ t.day < 10 ^ 2 ∧ t.hour < 10 ^ 2 ∧ t.minute < 10 ^ 2 ∧
      t.second + t.nano / 1000000000 < 10 ^ 2 := by
  obtain ⟨hmonth, hday, hhour, hminute, hsecond, hnano⟩ := h
  omega

end Stamp.Valid

namespace Header

/-! ### The reader -/

/-- What a header says of its time. -/
structure Clock where
  month : Nat
  day : Nat
  hour : Nat
  minute : Nat
  second : Nat
  microsecond : Nat
  deriving DecidableEq, Repr

/-- What a header says. -/
structure Fields where
  severity : Severity
  clock : Clock
  pid : Nat
  basename : String
  line : Nat
  deriving DecidableEq, Repr

/-- Takes a number of `width` digits off the front. -/
def takeField? (width : Nat) (cs : List Char) : Option (Nat × List Char) :=
  if (cs.take width).length = width ∧ (cs.take width).all Char.isDigit then
    some (digitsValue (cs.take width), cs.drop width)
  else none

/-- Takes a character off the front. -/
def takeMark? (mark : Char) : List Char → Option (List Char)
  | [] => none
  | c :: rest => if c = mark then some rest else none

/-- Takes digits off the front, at least one. -/
def takeDigits? (cs : List Char) : Option (List Char × List Char) :=
  if cs.takeWhile Char.isDigit = [] then none
  else some (cs.takeWhile Char.isDigit, cs.dropWhile Char.isDigit)

/-- Takes a time off the front. -/
def takeClock? (cs : List Char) : Option (Clock × List Char) := do
  let (month, cs) ← takeField? 2 cs
  let (day, cs) ← takeField? 2 cs
  let cs ← takeMark? ' ' cs
  let (hour, cs) ← takeField? 2 cs
  let cs ← takeMark? ':' cs
  let (minute, cs) ← takeField? 2 cs
  let cs ← takeMark? ':' cs
  let (second, cs) ← takeField? 2 cs
  let cs ← takeMark? '.' cs
  let (microsecond, cs) ← takeField? 6 cs
  pure ({ month, day, hour, minute, second, microsecond }, cs)

/-- Takes a number with blanks before it off the front. -/
def takePadded? (cs : List Char) : Option (Nat × List Char) :=
  (takeDigits? (cs.dropWhile (· == ' '))).map fun taken => (digitsValue taken.1, taken.2)

/-- Reads a call site and the end of a header, from the back. -/
def readSite (cs : List Char) : Option (String × Nat) := do
  let back ← takeMark? ' ' cs.reverse
  let back ← takeMark? ']' back
  let (digits, back) ← takeDigits? back
  let back ← takeMark? ':' back
  pure (String.ofList back.reverse, digitsValue digits.reverse)

/-- Reads the characters of a header. -/
def readChars : List Char → Option Fields
  | [] => none
  | letter :: cs => do
    let severity ← Severity.all.find? fun s => s.letter == letter
    let (clock, cs) ← takeClock? cs
    let cs ← takeMark? ' ' cs
    let (pid, cs) ← takePadded? cs
    let cs ← takeMark? ' ' cs
    let (basename, line) ← readSite cs
    pure { severity, clock, pid, basename, line }

/-- Reads a header. -/
def read (bs : Bytes) : Option Fields := (String.fromUTF8? bs.toByteArray).bind (readChars ·.toList)

/-! ### Parts of a header -/

theorem digitsValue_padded (width : Nat) (cs : List Char) :
    digitsValue (padded width '0' cs) = digitsValue cs := by
  have hzeros : ∀ n, digitsValue (List.replicate n '0' ++ cs) = digitsValue cs := by
    intro n
    induction n with
    | zero => rfl
    | succ n ih =>
      rw [List.replicate_succ, List.cons_append, Json.digitsValue_eq, List.map_cons, List.foldl_cons]
      exact (Json.digitsValue_eq _).symm.trans ih
  exact hzeros _

theorem isDigit_of_mem_padded {width n : Nat} {c : Char} (h : c ∈ padded width '0' (decimal n)) :
    c.isDigit = true := by
  unfold padded List.leftpad at h
  rcases List.mem_append.mp h with hzero | hdigit
  · rw [List.eq_of_mem_replicate hzero]
    rfl
  · exact (isDigits_decimal n).2 c hdigit

theorem length_field {width n : Nat} (hwidth : 0 < width) (hn : n < 10 ^ width) :
    (padded width '0' (decimal n)).length = width := by
  have hlength := (Nat.length_toDigits_le_iff (by decide) hwidth).mpr hn
  rw [length_padded, decimal]
  omega

theorem takeField?_padded {width n : Nat} (hwidth : 0 < width) (hn : n < 10 ^ width) (rest : List Char) :
    takeField? width (padded width '0' (decimal n) ++ rest) = some (n, rest) := by
  have hlength := length_field hwidth hn
  have hdigits : (padded width '0' (decimal n)).all Char.isDigit = true :=
    List.all_eq_true.mpr fun c hc => isDigit_of_mem_padded hc
  rw [takeField?, List.take_left' hlength, List.drop_left' hlength, if_pos ⟨hlength, hdigits⟩,
    digitsValue_padded, digitsValue_decimal]

theorem takeField?_twoDigits {n : Nat} (hn : n < 10 ^ 2) (rest : List Char) :
    takeField? 2 (Stamp.twoDigits n ++ rest) = some (n, rest) :=
  takeField?_padded (by decide) hn rest

@[simp] theorem takeMark?_cons (mark : Char) (rest : List Char) :
    takeMark? mark (mark :: rest) = some rest := if_pos rfl

theorem takeDigits?_append {ds : List Char} (hds : IsDigits ds) {mark : Char}
    (hmark : mark.isDigit = false) (rest : List Char) :
    takeDigits? (ds ++ mark :: rest) = some (ds, mark :: rest) := by
  have htake : (ds ++ mark :: rest).takeWhile Char.isDigit = ds := by
    rw [List.takeWhile_append_of_pos hds.2, List.takeWhile_cons_of_neg (by simp [hmark]), List.append_nil]
  have hdrop : (ds ++ mark :: rest).dropWhile Char.isDigit = mark :: rest := by
    rw [List.dropWhile_append_of_pos hds.2, List.dropWhile_cons_of_neg (by simp [hmark])]
  rw [takeDigits?, htake, hdrop, if_neg hds.1]

/-- A number is read whether or not its digits fill its field. -/
theorem takePadded?_padded (width n : Nat) {mark : Char} (hmark : mark.isDigit = false) (rest : List Char) :
    takePadded? (padded width ' ' (decimal n) ++ mark :: rest) = some (n, mark :: rest) := by
  have hblank : ∀ c ∈ List.replicate (width - (decimal n).length) ' ', (c == ' ') = true := by
    intro c hc
    rw [List.eq_of_mem_replicate hc]
    rfl
  have hdigit : ∀ c ∈ (decimal n ++ mark :: rest).head?, (c == ' ') = false := by
    intro c hc
    rw [List.head?_append_of_ne_nil _ (isDigits_decimal n).1] at hc
    have hc := (isDigits_decimal n).2 c (List.mem_of_mem_head? hc)
    refine beq_false_of_ne ?_
    rintro rfl
    exact absurd hc (by decide)
  rw [takePadded?, padded, List.leftpad, List.append_assoc, List.dropWhile_append_of_pos hblank,
    Json.dropWhile_of_head? hdigit, takeDigits?_append (isDigits_decimal n) hmark, Option.map_some,
    digitsValue_decimal]

theorem toList_text (site : CallSite) :
    site.text.toList = site.basename.toList ++ ':' :: decimal site.line := by
  simp [CallSite.text, decimal]

/-- Digits and their colon cannot be mistaken for a part of the name in front of them. -/
theorem readSite_text (site : CallSite) :
    readSite (site.text.toList ++ [']', ' ']) = some (site.basename, site.line) := by
  have hdigits : IsDigits (decimal site.line).reverse :=
    ⟨List.reverse_ne_nil_iff.mpr (isDigits_decimal site.line).1,
      fun c hc => (isDigits_decimal site.line).2 c (List.mem_reverse.mp hc)⟩
  have hreverse : (site.text.toList ++ [']', ' ']).reverse =
      ' ' :: ']' :: ((decimal site.line).reverse ++ ':' :: site.basename.toList.reverse) := by
    simp [toList_text]
  simp only [readSite, hreverse, takeMark?_cons, Option.bind_eq_bind, Option.bind_some,
    takeDigits?_append hdigits (by decide : ':'.isDigit = false), List.reverse_reverse,
    digitsValue_decimal, String.ofList_toList, Option.pure_def]

theorem find?_letter (severity : Severity) :
    (Severity.all.find? fun s => s.letter == severity.letter) = some severity := by
  cases severity <;> decide

variable {stamp : Stamp}

theorem takeClock?_chars (h : stamp.Valid) (rest : List Char) :
    takeClock? (stamp.chars ++ rest) =
      some
        ({ month := stamp.month
           day := stamp.day
           hour := stamp.hour
           minute := stamp.minute
           second := if stamp.nano < 1000000000 then stamp.second else 60
           microsecond := stamp.nano % 1000000000 / 1000 }, rest) := by
  obtain ⟨hmonth, hday, hhour, hminute, hsecond⟩ := h.fields_lt
  have hmicro : stamp.nano % 1000000000 / 1000 < 10 ^ 6 := by omega
  rw [← h.shown_second]
  simp only [takeClock?, Stamp.chars, List.append_assoc, List.cons_append,
    takeField?_twoDigits hmonth, takeField?_twoDigits hday, takeField?_twoDigits hhour,
    takeField?_twoDigits hminute, takeField?_twoDigits hsecond,
    takeField?_padded (show 0 < 6 by decide) hmicro, takeMark?_cons,
    Option.bind_eq_bind, Option.bind_some, Option.pure_def]

/-- A header is read back as what it was written from, the time to the microsecond it is in. -/
theorem readChars_headerChars (severity : Severity) (h : stamp.Valid) (pid : Nat) (site : CallSite) :
    readChars (headerChars severity stamp pid site) =
      some
        { severity
          clock :=
            { month := stamp.month
              day := stamp.day
              hour := stamp.hour
              minute := stamp.minute
              second := if stamp.nano < 1000000000 then stamp.second else 60
              microsecond := stamp.nano % 1000000000 / 1000 }
          pid
          basename := site.basename
          line := site.line } := by
  have hblank : ' '.isDigit = false := by decide
  simp only [readChars, headerChars, find?_letter, takeClock?_chars h, takeMark?_cons,
    takePadded?_padded 7 pid hblank, readSite_text, Option.bind_eq_bind, Option.bind_some, Option.pure_def]

/-! ### Where the name stands -/

/-- The characters of a header before the name of the file. -/
def frontChars (severity : Severity) (stamp : Stamp) (pid : Nat) : List Char :=
  severity.letter :: (stamp.chars ++ ' ' :: (padded 7 ' ' (decimal pid) ++ [' ']))

theorem headerChars_eq (severity : Severity) (stamp : Stamp) (pid : Nat) (site : CallSite) :
    headerChars severity stamp pid site =
      frontChars severity stamp pid ++ (site.basename.toList ++ ':' :: (decimal site.line ++ [']', ' '])) := by
  simp only [headerChars, frontChars, toList_text, List.append_assoc, List.cons_append, List.nil_append]

theorem toNat_lt_of_isDigit {c : Char} (h : c.isDigit = true) : c.toNat < 0x80 := by
  have hle : c.toNat ≤ '9'.toNat := by
    simp only [Char.isDigit, Bool.and_eq_true, decide_eq_true_eq] at h
    exact h.2
  exact hle.trans_lt (by decide)

/-- A number fills its field with ASCII characters. -/
theorem ascii_padded (width n : Nat) {fill : Char} (hfill : fill.toNat < 0x80) :
    ∀ c ∈ padded width fill (decimal n), c.toNat < 0x80 := by
  intro c hc
  unfold padded List.leftpad at hc
  rcases List.mem_append.mp hc with hc | hc
  · rwa [List.eq_of_mem_replicate hc]
  · exact toNat_lt_of_isDigit ((isDigits_decimal n).2 c hc)

theorem ascii_frontChars (severity : Severity) (stamp : Stamp) (pid : Nat) :
    ∀ c ∈ frontChars severity stamp pid, c.toNat < 0x80 := by
  have hletter : severity.letter.toNat < 0x80 := by cases severity <;> decide
  have hfield := fun width n => ascii_padded width n (show '0'.toNat < 0x80 by decide)
  have hpid := ascii_padded 7 pid (show ' '.toNat < 0x80 by decide)
  have hmark : ' '.toNat < 0x80 ∧ ':'.toNat < 0x80 ∧ '.'.toNat < 0x80 := by decide
  simp only [frontChars, Stamp.chars, Stamp.twoDigits, List.append_assoc, List.cons_append,
    List.forall_mem_cons, List.forall_mem_append, List.not_mem_nil, false_imp_iff, forall_const, hletter,
    hmark, and_true, true_and]
  exact ⟨hfield 2 _, hfield 2 _, hfield 2 _, hfield 2 _, hfield 2 _, hfield 6 _, hpid⟩

theorem length_chars (h : stamp.Valid) : stamp.chars.length = 20 := by
  obtain ⟨hmonth, hday, hhour, hminute, hsecond⟩ := h.fields_lt
  have hmicro : stamp.nano % 1000000000 / 1000 < 10 ^ 6 := by omega
  simp only [Stamp.chars, Stamp.twoDigits, List.length_append, List.length_cons,
    length_field (show 0 < 2 by decide) hmonth, length_field (show 0 < 2 by decide) hday,
    length_field (show 0 < 2 by decide) hhour, length_field (show 0 < 2 by decide) hminute,
    length_field (show 0 < 2 by decide) hsecond, length_field (show 0 < 6 by decide) hmicro]

/-- A number takes seven places, and one more for each digit beyond the seventh. -/
theorem length_padded_decimal (n : Nat) :
    (padded 7 ' ' (decimal n)).length = 7 + ((Nat.digits 10 n).length - 7) := by
  have hiff : ∀ k, 0 < k → ((decimal n).length ≤ k ↔ (Nat.digits 10 n).length ≤ k) := fun k hk =>
    (Nat.length_toDigits_le_iff (by decide) hk).trans (Nat.digits_length_le_iff (by decide) n).symm
  have hdecimal := hiff (max 7 (Nat.digits 10 n).length) (by omega)
  have hdigits := hiff (max 7 (decimal n).length) (by omega)
  rw [length_padded]
  omega

end Header

/-! ### Names of files -/

/-- The longest end of a path without a separator of directories. -/
structure CallSite.IsBasename (name path : List Char) : Prop where
  isSuffix : name <:+ path
  plain : ∀ c ∈ name, c ≠ '/' ∧ c ≠ '\\'
  longest : ∀ other, other <:+ path → (∀ c ∈ other, c ≠ '/' ∧ c ≠ '\\') → other.length ≤ name.length

theorem CallSite.isBasename_afterSeparators (path : List Char) :
    IsBasename (afterSeparators path) path where
  isSuffix := by
    rw [afterSeparators, ← List.reverse_prefix, List.reverse_reverse]
    exact List.takeWhile_prefix _
  plain c hc := by
    have hplain := List.mem_takeWhile_imp (List.mem_reverse.mp hc)
    simpa using hplain
  longest other hother hplain := by
    obtain ⟨front, rfl⟩ := hother
    have htake : ∀ c ∈ other.reverse, (c != '/' && c != '\\') = true := fun c hc => by
      simpa using hplain c (List.mem_reverse.mp hc)
    rw [afterSeparators, List.reverse_append, List.takeWhile_append_of_pos htake, List.length_reverse,
      List.length_append, List.length_reverse]
    exact Nat.le_add_right _ _

/-! ### The result -/

/-- A header is read back: the severity, the time to the microsecond that it is in, with 60 for the second
of a leap second, the process, and the call site by its line and the name of its file without directories.
The name has 30 octets before it, and one more for each digit of the process beyond the seventh. -/
theorem header_readable (severity : Severity) {stamp : Stamp} (h : stamp.Valid) (pid : Nat)
    (site : CallSite) :
    Header.read (header severity stamp pid site) =
        some
          { severity
            clock :=
              { month := stamp.month
                day := stamp.day
                hour := stamp.hour
                minute := stamp.minute
                second := if stamp.nano < 1000000000 then stamp.second else 60
                microsecond := stamp.nano % 1000000000 / 1000 }
            pid
            basename := site.basename
            line := site.line } ∧
      CallSite.IsBasename site.basename.toList site.file.toList ∧
      ∃ front, header severity stamp pid site =
          front ++ (utf8 site.basename ++ encode (':' :: (decimal site.line ++ [']', ' ']))) ∧
        front.length = 30 + ((Nat.digits 10 pid).length - 7) ∧ (pid < 10 ^ 7 → front.length = 30) := by
  have hlength : (encode (Header.frontChars severity stamp pid)).length =
      30 + ((Nat.digits 10 pid).length - 7) := by
    rw [(encode_of_ascii (Header.ascii_frontChars severity stamp pid)).1, Header.frontChars]
    simp only [List.length_cons, List.length_append, List.length_nil, Header.length_chars h,
      Header.length_padded_decimal]
    omega
  refine ⟨?_, ?_, encode (Header.frontChars severity stamp pid), ?_, hlength, fun hpid => ?_⟩
  · rw [header, Header.read, fromUTF8?_encode, Option.bind_some, String.toList_ofList,
      Header.readChars_headerChars severity h]
  · rw [CallSite.basename, String.toList_ofList]
    exact CallSite.isBasename_afterSeparators _
  · rw [header, Header.headerChars_eq, encode_append, encode_append]
    rfl
  · have hdigits := (Nat.digits_length_le_iff (by decide) pid).mpr hpid
    omega

/-- A leap second, a process with more digits than its field, and a name that looks like the end of a
header. With seven digits the name stands in its usual place. -/
theorem header_readable_leap :
    (⟨12, 31, 23, 59, 59, 1999999999⟩ : Stamp).Valid ∧
      Header.read (header .warning ⟨12, 31, 23, 59, 59, 1999999999⟩ 4294967295 ⟨"src/a\\b:1] c.rs", 42⟩) =
        some
          { severity := .warning
            clock := ⟨12, 31, 23, 59, 60, 999999⟩
            pid := 4294967295
            basename := "b:1] c.rs"
            line := 42 } ∧
      (1234567 < 10 ^ 7 ∧
        ∃ front, header .warning ⟨12, 31, 23, 59, 59, 1999999999⟩ 1234567 ⟨"src/a\\b:1] c.rs", 42⟩ =
            front ++ utf8 "b:1] c.rs:42] " ∧ front.length = 30) := by
  have hvalid : (⟨12, 31, 23, 59, 59, 1999999999⟩ : Stamp).Valid := by
    constructor <;> decide
  have hbasename : (⟨"src/a\\b:1] c.rs", 42⟩ : CallSite).basename = "b:1] c.rs" := by decide +kernel
  have hsite : utf8 "b:1] c.rs" ++ encode (':' :: (decimal 42 ++ [']', ' '])) = utf8 "b:1] c.rs:42] " := by
    decide +kernel
  have hseven : 1234567 < 10 ^ 7 := by decide
  obtain ⟨hread, -, -⟩ := header_readable .warning hvalid 4294967295 ⟨"src/a\\b:1] c.rs", 42⟩
  obtain ⟨-, -, front, hfront, -, hlength⟩ :=
    header_readable .warning hvalid 1234567 ⟨"src/a\\b:1] c.rs", 42⟩
  rw [hbasename] at hread
  rw [hbasename, hsite] at hfront
  exact ⟨hvalid, hread, hseven, front, hfront, hlength hseven⟩

end Logline
