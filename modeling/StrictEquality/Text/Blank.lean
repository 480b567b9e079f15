/-!
# Blank characters

The characters that count as white space in suppression comments, and the
operations that cut them away. The set is that of the Unicode property
White_Space together with the four separators U+001C to U+001F.

## Main definitions

- `isBlank` — the class of blank characters
- `skipBlanks`, `trim` — drop the blanks in front, or on both sides
-/

namespace StrictEquality

namespace Text

/-- The characters that count as white space. -/
def isBlank (c : Char) : Bool :=
  let n := c.toNat
  (0x09 ≤ n && n ≤ 0x0D) || (0x1C ≤ n && n ≤ 0x20) || n == 0x85 || n == 0xA0 || n == 0x1680 ||
    (0x2000 ≤ n && n ≤ 0x200A) || n == 0x2028 || n == 0x2029 || n == 0x202F || n == 0x205F ||
    n == 0x3000

/-- The text after its leading blanks. -/
def skipBlanks (cs : List Char) : List Char :=
  cs.dropWhile isBlank

/-- The text without the blanks at either end. -/
def trim (cs : List Char) : List Char :=
  (skipBlanks (skipBlanks cs).reverse).reverse

/-- What remains after skipping does not start with a blank. -/
theorem isBlank_of_skipBlanks_eq_cons {cs r : List Char} {c : Char}
    (h : skipBlanks cs = c :: r) : isBlank c = false := by
  induction cs with
  | nil => simp [skipBlanks] at h
  | cons d ds ih =>
    rw [skipBlanks, List.dropWhile_cons] at h
    split at h
    · exact ih h
    · next hd =>
      obtain ⟨rfl, _⟩ := List.cons.inj h
      simpa using hd

end Text

end StrictEquality
