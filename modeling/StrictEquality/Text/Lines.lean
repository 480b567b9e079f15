/-!
# Lines and byte offsets

A text is split into lines at its newlines, and the bytes of its UTF-8 encoding
are counted line by line.

## Main definitions

- `lines` — the pieces between newlines, of which there is always at least one
- `byteLength` — the length of the UTF-8 encoding
- `lineAt` — the number, from 1, of the line that holds a byte offset
- `unifyLineEnds` — write every line end as a newline
-/

namespace StrictEquality

namespace Text

/-- The pieces of a text between the characters equal to `mark`. -/
def splitAt (mark : Char) : List Char → List (List Char)
  | [] => [[]]
  | c :: cs =>
    if c = mark then [] :: splitAt mark cs
    else
      match splitAt mark cs with
      | piece :: pieces => (c :: piece) :: pieces
      | [] => [[c]]

/-- The lines of a text. -/
def lines (cs : List Char) : List (List Char) :=
  splitAt '\n' cs

/-- The number of bytes of the UTF-8 encoding. -/
def byteLength : List Char → Nat
  | [] => 0
  | c :: cs => c.utf8Size + byteLength cs

/-- The number of newlines whose byte comes before the given offset. -/
def newlinesBefore : Nat → List Char → Nat
  | _, [] => 0
  | 0, _ :: _ => 0
  | offset + 1, c :: cs =>
    (if c = '\n' then 1 else 0) + newlinesBefore (offset + 1 - c.utf8Size) cs

/-- The line, counted from 1, of a byte offset. An offset before the text counts
to the first line and one at or past the end to the last line. -/
def lineAt (cs : List Char) (offset : Int) : Nat :=
  if offset < 0 then 1
  else if (byteLength cs : Int) ≤ offset then (lines cs).length
  else newlinesBefore offset.toNat cs + 1

/-- A text has at least one piece. -/
theorem splitAt_ne_nil (mark : Char) (cs : List Char) : splitAt mark cs ≠ [] := by
  cases cs with
  | nil => simp [splitAt]
  | cons c cs =>
    rw [splitAt]
    split
    · simp
    · split <;> simp

/-- Joining the pieces with the mark gives the text back. -/
theorem intercalate_splitAt (mark : Char) (cs : List Char) :
    [mark].intercalate (splitAt mark cs) = cs := by
  induction cs with
  | nil => simp [splitAt, List.intercalate]
  | cons c cs ih =>
    rw [splitAt]
    split
    · next h =>
      subst h
      obtain ⟨p, ps, hp⟩ := List.exists_cons_of_ne_nil (splitAt_ne_nil c cs)
      rw [hp] at ih ⊢
      simpa [List.intercalate, List.intersperse] using ih
    · split
      · next p ps hp =>
        rw [hp] at ih
        cases ps <;> simpa [List.intercalate, List.intersperse] using ih
      · next hp => exact absurd hp (splitAt_ne_nil mark cs)

/-- Write each line end, `\r\n`, `\r` or `\n`, as a newline. -/
def unifyLineEnds : List Char → List Char
  | [] => []
  | '\r' :: '\n' :: rest => '\n' :: unifyLineEnds rest
  | '\r' :: rest => '\n' :: unifyLineEnds rest
  | c :: rest => c :: unifyLineEnds rest

/-- Unified text holds no carriage return. -/
theorem carriageReturn_not_mem_unifyLineEnds (cs : List Char) : '\r' ∉ unifyLineEnds cs := by
  fun_induction unifyLineEnds cs with
  | case1 => simp
  | case2 rest ih => simpa using ih
  | case3 rest _ ih => simpa using ih
  | case4 c rest _ h ih =>
    simp only [List.mem_cons, not_or]
    exact ⟨fun hc => h hc.symm, ih⟩

/-- A text without carriage returns has no other line ends than newlines. -/
theorem unifyLineEnds_of_not_mem {cs : List Char} (h : '\r' ∉ cs) : unifyLineEnds cs = cs := by
  fun_induction unifyLineEnds cs with
  | case1 => rfl
  | case2 => simp at h
  | case3 => simp at h
  | case4 c rest _ _ ih => rw [ih (List.not_mem_of_not_mem_cons h)]

end Text

end StrictEquality
