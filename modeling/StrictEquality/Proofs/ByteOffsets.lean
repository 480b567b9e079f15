import Mathlib.Order.Bounds.Basic
import StrictEquality.Proofs.JoinedText

/-!
# Lines of byte offsets

A byte offset is on the last line that starts at or before it. Lines start behind the
lines before them, each of which takes its bytes and one more for the newline. Counting
newlines among the bytes in front of an offset gives the same line, also where the offset
falls into a character of several bytes, since no byte of such a character is a newline.

## Main definitions

- `Text.lineStart` — the byte offset at which a line starts
- `Text.utf8` — the bytes of a text

Main statement: `Text.isGreatest_lineAt`.
-/

namespace StrictEquality

namespace Text

/-- The byte offset at which a line starts: how many bytes the lines before it have, each
with its newline. Lines are counted from 1. -/
def lineStart (cs : List Char) (line : Nat) : Nat :=
  byteLength (((lines cs).take (line - 1)).flatMap (fun l => l ++ ['\n']))

/-- The bytes of the UTF-8 encoding. -/
def utf8 (cs : List Char) : List UInt8 :=
  (String.ofList cs).toUTF8.data.toList

theorem utf8_eq_flatMap (cs : List Char) : utf8 cs = cs.flatMap String.utf8EncodeChar := by
  rw [utf8, String.toUTF8, String.toByteArray_ofList, List.utf8Encode, List.data_toByteArray]

/-- A byte with its high bit set is not a newline. -/
theorem newline_ne_ofNat {n : Nat} (h : 128 ≤ n) (hbyte : n < 256) :
    (10 : UInt8) ≠ UInt8.ofNat n := by
  intro heq
  have hnat := congrArg UInt8.toNat heq
  rw [UInt8.toNat_ofNat_of_lt' hbyte] at hnat
  have hten : (10 : UInt8).toNat = 10 := rfl
  omega

/-- No byte of a character is a newline, unless the character is one. -/
theorem newline_not_mem_utf8EncodeChar {c : Char} (h : c ≠ '\n') :
    (10 : UInt8) ∉ String.utf8EncodeChar c := by
  have hne : c.val.toNat ≠ 10 := fun hcode => h (Char.ext (UInt32.toNat_inj.mp hcode))
  rw [String.utf8EncodeChar]
  intro hmem
  split at hmem
  · -- a character of one byte is its byte
    have heq := congrArg UInt8.toNat (List.mem_singleton.mp hmem)
    rw [UInt8.toNat_ofNat_of_lt' (by show _ < 256; omega)] at heq
    exact hne heq.symm
  · split at hmem
    · simp only [List.mem_cons, List.not_mem_nil, or_false] at hmem
      rcases hmem with heq | heq <;>
        exact newline_ne_ofNat (by omega) (by omega) heq
    · split at hmem
      · simp only [List.mem_cons, List.not_mem_nil, or_false] at hmem
        rcases hmem with heq | heq | heq <;>
          exact newline_ne_ofNat (by omega) (by omega) heq
      · simp only [List.mem_cons, List.not_mem_nil, or_false] at hmem
        rcases hmem with heq | heq | heq | heq <;>
          exact newline_ne_ofNat (by omega) (by omega) heq

/-- Of the bytes of one character, cut off anywhere behind the first, as many are newlines
as the character is. -/
theorem count_newline_take_utf8EncodeChar (c : Char) (n : Nat) :
    ((String.utf8EncodeChar c).take (n + 1)).count 10 = if c = '\n' then 1 else 0 := by
  by_cases hc : c = '\n'
  · subst hc
    simp [String.utf8EncodeChar]
  · rw [if_neg hc, List.count_eq_zero]
    exact fun hmem => newline_not_mem_utf8EncodeChar hc (List.mem_of_mem_take hmem)

/-- The newlines before an offset are those among the bytes before it. -/
theorem newlinesBefore_eq_count (n : Nat) (cs : List Char) :
    newlinesBefore n cs = ((utf8 cs).take n).count 10 := by
  rw [utf8_eq_flatMap]
  induction cs generalizing n with
  | nil => simp [newlinesBefore]
  | cons c cs ih =>
    cases n with
    | zero => simp
    | succ n =>
      rw [newlinesBefore, ih, List.flatMap_cons, List.take_append, List.count_append,
        count_newline_take_utf8EncodeChar, String.length_utf8EncodeChar]

theorem lineStart_one (cs : List Char) : lineStart cs 1 = 0 := rfl

/-- Behind a first line the lines start as many bytes later as it has, and one more for
its newline. -/
theorem lineStart_append {l : List Char} (hl : '\n' ∉ l) (cs : List Char) (line : Nat) :
    lineStart (l ++ '\n' :: cs) (line + 2) = byteLength l + 1 + lineStart cs (line + 1) := by
  have hnewline : Char.utf8Size '\n' = 1 := rfl
  rw [lineStart, lines_append, lines_of_not_mem hl]
  simp [lineStart, byteLength_append, byteLength, hnewline, Nat.add_assoc]

/-- A text of several lines is its first line, a newline and the rest. -/
theorem exists_eq_append_of_lines {cs : List Char} (h : 1 < (lines cs).length) :
    ∃ l rest, cs = l ++ '\n' :: rest ∧ '\n' ∉ l := by
  have hnewline : '\n' ∈ cs := by
    by_contra hnone
    rw [lines_of_not_mem hnone] at h
    exact absurd h (Nat.lt_irrefl 1)
  exact List.eq_append_cons_of_mem hnewline

/-- A line is at or before that of an offset when it starts at or before the offset. -/
theorem le_lineAt_iff {cs : List Char} {offset : Int} (hoffset : 0 ≤ offset) {line : Nat}
    (hpos : 1 ≤ line) (hline : line ≤ (lines cs).length) :
    line ≤ lineAt cs offset ↔ (lineStart cs line : Int) ≤ offset := by
  obtain ⟨n, rfl⟩ : ∃ n, line = n + 1 := ⟨line - 1, by omega⟩
  clear hpos
  induction n generalizing cs offset with
  | zero =>
    rw [Nat.zero_add, lineStart_one]
    exact iff_of_true (lineAt_pos cs offset) hoffset
  | succ n ih =>
    obtain ⟨l, rest, rfl, hl⟩ := exists_eq_append_of_lines (by omega : 1 < (lines cs).length)
    have hone : (lines l).length = 1 := by rw [lines_of_not_mem hl, List.length_singleton]
    rw [lines_append, List.length_append, hone] at hline
    rw [lineStart_append hl]
    by_cases hfirst : offset ≤ byteLength l
    · -- the offset is on the first line, and the others start behind it
      have hlast := lineAt_le_length_lines l offset
      rw [lineAt_append_of_le rest hfirst]
      omega
    · have hrest : n + 1 ≤ lineAt rest (offset - byteLength l - 1) ↔
          (lineStart rest (n + 1) : Int) ≤ offset - byteLength l - 1 :=
        ih (by omega) (by omega)
      rw [lineAt_append_of_lt rest (Int.not_le.mp hfirst), hone]
      omega

/-- **Byte offsets land on the right line.** The line of an offset is the last one that
starts at or before it: the first line for an offset before the text, the last one for an
offset at or past the end. It is a line of the text, does not go back as the offset grows,
and is found by counting the newlines among the bytes before the offset. -/
theorem isGreatest_lineAt (cs : List Char) :
    (∀ offset : Int, 0 ≤ offset →
      IsGreatest {line | (1 ≤ line ∧ line ≤ (lines cs).length) ∧ (lineStart cs line : Int) ≤ offset}
        (lineAt cs offset)) ∧
    (∀ offset : Int, offset < 0 → lineAt cs offset = 1) ∧
    (∀ offset : Int, byteLength cs ≤ offset → lineAt cs offset = (lines cs).length) ∧
    (∀ first second : Int, first ≤ second → lineAt cs first ≤ lineAt cs second) ∧
    (∀ offset : Int, 1 ≤ lineAt cs offset ∧ lineAt cs offset ≤ (lines cs).length) ∧
    ∀ n : Nat, lineAt cs n = ((utf8 cs).take n).count 10 + 1 := by
  have hvalid (offset : Int) : 1 ≤ lineAt cs offset ∧ lineAt cs offset ≤ (lines cs).length :=
    ⟨lineAt_pos cs offset, lineAt_le_length_lines cs offset⟩
  refine ⟨?_, fun offset => lineAt_of_neg cs, ?_, ?_, hvalid, ?_⟩
  · intro offset hoffset
    constructor
    · have hstart := (le_lineAt_iff hoffset (hvalid offset).1 (hvalid offset).2).mp (Nat.le_refl _)
      exact ⟨hvalid offset, hstart⟩
    · rintro line ⟨⟨hpos, hline⟩, hstart⟩
      exact (le_lineAt_iff hoffset hpos hline).mpr hstart
  · intro offset hend
    obtain ⟨n, rfl⟩ := Int.eq_ofNat_of_zero_le ((Int.natCast_nonneg _).trans hend)
    rw [lineAt_natCast, newlinesBefore_of_le (Int.ofNat_le.mp hend)]
  · intro first second hle
    by_cases hneg : first < 0
    · rw [lineAt_of_neg cs hneg]
      exact (hvalid second).1
    · -- the line of the first offset starts before the second one, too
      have hfirst : 0 ≤ first := Int.not_lt.mp hneg
      have hstart := (le_lineAt_iff hfirst (hvalid first).1 (hvalid first).2).mp (Nat.le_refl _)
      exact (le_lineAt_iff (hfirst.trans hle) (hvalid first).1 (hvalid first).2).mpr
        (hstart.trans hle)
  · intro n
    rw [lineAt_natCast, newlinesBefore_eq_count]

/-- An offset inside of a character of three bytes, behind an empty line; one before the
text, and one past its end. -/
theorem isGreatest_lineAt_multibyte :
    let cs := "é\n\n€".toList
    IsGreatest {line | (1 ≤ line ∧ line ≤ (lines cs).length) ∧ (lineStart cs line : Int) ≤ 5} 3 ∧
      lineAt cs (-1) = 1 ∧ lineAt cs 7 = 3 ∧ ((utf8 cs).take 5).count 10 = 2 := by
  intro cs
  obtain ⟨hgreatest, hbefore, hend, -, -, hcount⟩ := isGreatest_lineAt cs
  have hline : lineAt cs 5 = 3 := by decide
  have hbytes : lineAt cs 5 = ((utf8 cs).take 5).count 10 + 1 := hcount 5
  refine ⟨hline ▸ hgreatest 5 (by decide), hbefore (-1) (by decide), ?_, by omega⟩
  exact (hend 7 (by decide)).trans (by decide)

end Text

end StrictEquality
