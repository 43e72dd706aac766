import Mathlib
import Logline.Proofs.ReadBack
import Logline.Proofs.Unquoting

/-!
# What a text value tells of its text

`readTextValue` reads a text behind a key, from the equals sign on: quoted, or as a block. Both forms say
themselves where they end, so it does not matter what follows. It gives the text back with a final line
feed if it has several lines (`finished`), and this is all that is lost.

Main statement: `textValue_kernel`. Two texts are written the same if and only if they are the same but for
a final line feed that one of them lacks.
-/

namespace Logline.Text

/-- A text as a reader gets it back: with a final line feed if it has several lines. -/
def finished (s : String) : String := String.ofList (lineEnded s.toList)

/-- The text `v` has several lines and lacks the final line feed, and `w` is `v` with it. -/
def Finishes (w v : String) : Prop :=
  ('\n' ∈ v.toList ∧ v.toList.getLast? ≠ some '\n') ∧ w.toList = v.toList ++ ['\n']

/-- Reads a text behind its key, and what follows it. -/
def readTextValue : Bytes → Option (String × Bytes)
  | [] => none
  | b :: rest =>
    if b = 0x3D then
      if rest.take 2 = [0x3C, 0x0A] then
        (Body.readLines false (rest.drop 2)).bind fun r =>
          (String.fromUTF8? r.1.toByteArray).map (·, r.2)
      else unquote rest
    else none

/-! ### Reading -/

theorem fromUTF8?_encode (cs : List Char) :
    String.fromUTF8? (encode cs).toByteArray = some (String.ofList cs) := by
  have hvalid : (encode cs).toByteArray.IsValidUTF8 := .intro cs rfl
  unfold String.fromUTF8?
  rw [dif_pos hvalid, Option.some.injEq, ← String.toByteArray_inj, String.toByteArray_ofList]
  rfl

theorem lineEnded_of_lines {cs : List Char} (h : '\n' ∈ cs) : lineEnded cs = Body.terminated cs := by
  unfold lineEnded Body.terminated
  by_cases hlast : cs.getLast? = some '\n' <;> simp [h, hlast]

/-- A text is read back behind its key, whatever follows it. -/
theorem readTextValue_textValue (v : String) (rest : Bytes) :
    readTextValue (textValue v ++ rest) = some (finished v, rest) := by
  unfold textValue valueChars finished
  split_ifs with hlines
  · -- behind the equals sign and the start of the block stands the first line
    change (Body.readLines true (encode (blockFrom v.toList) ++ rest)).bind _ = _
    rw [Body.readLines_blockFrom, Option.bind_some, fromUTF8?_encode, Option.map_some,
      lineEnded_of_lines hlines]
  · have hsame : lineEnded v.toList = v.toList := if_neg fun h => hlines h.1
    change unquote (quoted v ++ rest) = _
    rw [unquote_quotedText, hsame, String.ofList_toList]

/-! ### Writing -/

/-- A block does not show whether its text ends with a line feed. -/
theorem blockFrom_terminated (cs : List Char) : blockFrom (Body.terminated cs) = blockFrom cs := by
  induction cs using blockFrom.induct with
  | case1 => rfl
  | case2 => rfl
  | case3 cs hne ih =>
    have hterminated : Body.terminated cs = [] → False := by
      unfold Body.terminated
      split_ifs <;> simp_all
    rw [Body.terminated_cons fun hnil => absurd hnil hne, blockFrom.eq_3 _ hterminated, ih,
      blockFrom.eq_3 cs hne]
  | case4 c cs hfeed hc ih =>
    rw [Body.terminated_cons fun _ => hc, blockFrom.eq_4 _ _ (fun h => absurd h hc) hc, ih,
      blockFrom.eq_4 c cs hfeed hc]

theorem textValue_finished (v : String) : textValue (finished v) = textValue v := by
  unfold textValue finished
  rw [String.toList_ofList]
  by_cases hlines : '\n' ∈ v.toList
  · have hkept : '\n' ∈ Body.terminated v.toList := by
      unfold Body.terminated
      split_ifs <;> simp [hlines]
    rw [lineEnded_of_lines hlines, valueChars, if_pos hkept, blockFrom_terminated, valueChars, if_pos hlines]
  · have hsame : lineEnded v.toList = v.toList := if_neg fun h => hlines h.1
    rw [hsame]

theorem Finishes.ends {w v : String} (h : Finishes w v) : w.toList.getLast? = some '\n' := by
  rw [h.2, List.getLast?_concat]

theorem finished_eq_iff {v w : String} : finished v = finished w ↔ v = w ∨ Finishes v w ∨ Finishes w v := by
  have hlists : finished v = finished w ↔ lineEnded v.toList = lineEnded w.toList := by
    unfold finished
    rw [← String.toList_inj, String.toList_ofList, String.toList_ofList]
  rw [hlists]
  constructor
  · intro heq
    unfold lineEnded at heq
    split_ifs at heq with hv hw hw
    · exact .inl (String.toList_inj.mp (List.append_cancel_right heq))
    · exact .inr (.inr ⟨hv, heq.symm⟩)
    · exact .inr (.inl ⟨hw, heq⟩)
    · exact .inl (String.toList_inj.mp heq)
  · -- a text that has its final line feed stays as it is
    have hfinishes : ∀ {x y : String}, Finishes x y → lineEnded x.toList = lineEnded y.toList := by
      intro x y h
      unfold lineEnded
      rw [if_pos h.1, if_neg fun hlacks => hlacks.2 h.ends, h.2]
    rintro (rfl | h | h)
    · rfl
    · exact hfinishes h
    · exact (hfinishes h).symm

/-- Two texts are written the same if and only if they are read back the same: if they are the same but for
a final line feed that one of them lacks, and which the reader adds. So lines that begin like the end of a
block or with a tab, empty lines and carriage returns are all kept apart. -/
theorem textValue_kernel (v w : String) :
    (∀ rest, readTextValue (textValue v ++ rest) = some (finished v, rest)) ∧
      (textValue v = textValue w ↔ finished v = finished w) ∧
      (textValue v = textValue w ↔ v = w ∨ Finishes v w ∨ Finishes w v) := by
  have hkernel : textValue v = textValue w ↔ finished v = finished w := by
    constructor
    · intro hsame
      have hread := readTextValue_textValue v []
      rw [hsame, readTextValue_textValue w []] at hread
      exact (Prod.mk.inj (Option.some.inj hread)).1.symm
    · intro hsame
      rw [← textValue_finished v, hsame, textValue_finished]
  exact ⟨readTextValue_textValue v, hkernel, hkernel.trans finished_eq_iff⟩

end Logline.Text
