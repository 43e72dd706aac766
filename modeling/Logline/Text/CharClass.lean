/-!
# Character classes

The classes that quoting and parsing ask about: control characters, white space, and the printable
characters that a quoted text shows as they are.

Main statement: `isPrintable_of_ascii` (among the ASCII characters, exactly those from the space to the
tilde are printable).
-/

namespace Logline.Text

/-- Whether `n` lies in one of the closed ranges. -/
def inRanges (ranges : List (Nat × Nat)) (n : Nat) : Bool :=
  ranges.any fun r => r.1 ≤ n && n ≤ r.2

/-- The control characters: C0, delete and C1. -/
def isControl (c : Char) : Bool := inRanges [(0x00, 0x1F), (0x7F, 0x9F)] c.toNat

/-- The characters with the Unicode property `White_Space`. -/
def isWhiteSpace (c : Char) : Bool :=
  inRanges [(0x09, 0x0D), (0x20, 0x20), (0x85, 0x85), (0xA0, 0xA0), (0x1680, 0x1680),
    (0x2000, 0x200A), (0x2028, 0x2029), (0x202F, 0x202F), (0x205F, 0x205F), (0x3000, 0x3000)] c.toNat

/-- Characters without a shape of their own: soft hyphens, joiners, marks of direction, invisible
operators, byte order marks, annotation marks, and the private use area of the basic plane. -/
def isShapeless (c : Char) : Bool :=
  inRanges [(0xAD, 0xAD), (0x61C, 0x61C), (0x180E, 0x180E), (0x200B, 0x200F), (0x202A, 0x202E),
    (0x2060, 0x2064), (0x2066, 0x206F), (0xE000, 0xF8FF), (0xFEFF, 0xFEFF), (0xFFF9, 0xFFFB)] c.toNat

/-- Characters that a quoted text shows as they are: the space, and every character that is no control
character, no other white space and has a shape. Combining marks are among them. -/
def isPrintable (c : Char) : Bool :=
  c == ' ' || !(isControl c || isWhiteSpace c || isShapeless c)

theorem isPrintable_of_ascii (c : Char) (h : c.toNat < 0x80) :
    isPrintable c = (0x20 ≤ c.toNat && c.toNat < 0x7F) := by
  have hc : (c == ' ') = (c.toNat == 0x20) := by
    rw [Bool.eq_iff_iff, beq_iff_eq, beq_iff_eq, ← Char.toNat_inj]; rfl
  rw [Bool.eq_iff_iff]
  simp only [isPrintable, hc, isControl, isWhiteSpace, isShapeless, inRanges, List.any_cons,
    List.any_nil, Bool.or_eq_true, Bool.and_eq_true, Bool.not_eq_true', Bool.or_eq_false_iff,
    Bool.and_eq_false_iff, decide_eq_true_eq, decide_eq_false_iff_not, beq_iff_eq, Bool.or_false]
  omega

/-- A text without the white space at its two ends. -/
def trimmed (cs : List Char) : List Char :=
  ((cs.dropWhile isWhiteSpace).reverse.dropWhile isWhiteSpace).reverse

end Logline.Text
