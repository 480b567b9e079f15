import StrictEquality.Yaml.Character

/-!
# Reading positions

A position in a text: what remains to be read, and where that is. The column
decides how blocks nest, and the line and the index limit how far a key may be
from its colon.

## Main definitions

- `Cursor` — a position
- `Cursor.step`, `Cursor.skip` — pass one character, or several
- `Cursor.spaces`, `Cursor.comment`, `Cursor.lineBreak` — pass what separates tokens
-/

namespace StrictEquality

namespace Yaml

/-- A position in a text. -/
structure Cursor where
  /-- What remains to be read. -/
  rest : List Char
  /-- How many characters have been passed. -/
  index : Nat := 0
  /-- How many line breaks have been passed. -/
  line : Nat := 0
  /-- How many characters of the line have been passed. A byte order mark has no
  width. -/
  column : Nat := 0

namespace Cursor

/-- Pass one character. -/
def step (c : Cursor) : Cursor :=
  match c.rest with
  | [] => c
  | ch :: rest =>
    if isBreak ch then
      { rest, index := c.index + 1, line := c.line + 1, column := 0 }
    else
      { rest, index := c.index + 1, line := c.line
        column := if ch == '\uFEFF' then c.column else c.column + 1 }

/-- Pass a number of characters. -/
def skip (c : Cursor) : Nat → Cursor
  | 0 => c
  | n + 1 => c.step.skip n

/-- Go to the position where a given text remains to be read. -/
def goTo (c : Cursor) (rest : List Char) : Cursor :=
  c.skip (c.rest.length - rest.length)

/-- Pass the characters of a class. -/
def skipWhile (c : Cursor) (p : Char → Bool) : Cursor :=
  c.skip (c.rest.takeWhile p).length

/-- Pass spaces. Tabulators do not separate tokens. -/
def spaces (c : Cursor) : Cursor :=
  c.skipWhile (· == ' ')

/-- Pass a comment up to the end of its line, if there is one. -/
def comment (c : Cursor) : Cursor :=
  match c.rest with
  | '#' :: _ => c.skipWhile (fun ch => !isBreak ch)
  | _ => c

/-- Pass a line break, none if there is none. -/
def lineBreak? (c : Cursor) : Option (Char × Cursor) :=
  match c.rest with
  | ch :: _ => if isBreak ch then some (breakContent ch, c.step) else none
  | [] => none

/-- Pass a line break, if there is one. -/
def lineBreak (c : Cursor) : Cursor :=
  match c.lineBreak? with
  | some (_, next) => next
  | none => c

/-- Passing a character leaves what follows it. -/
theorem rest_step (c : Cursor) : c.step.rest = c.rest.tail := by
  rw [step]
  split
  · next h => simp [h]
  · next h => split <;> simp [h]

/-- Passing characters drops them. -/
theorem rest_skip (c : Cursor) (n : Nat) : (c.skip n).rest = c.rest.drop n := by
  induction n generalizing c with
  | zero => rfl
  | succ n ih => rw [skip, ih, rest_step, List.drop_tail]

/-- Going to a later position leads there. -/
theorem rest_goTo (c : Cursor) {rest : List Char} (h : rest <:+ c.rest) :
    (c.goTo rest).rest = rest := by
  rw [goTo, rest_skip]
  obtain ⟨front, hfront⟩ := h
  rw [← hfront]
  simp

end Cursor

end Yaml

end StrictEquality
