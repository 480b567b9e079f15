import StrictEquality.Text.Lines

/-!
# Absolute paths

Paths that are written from the root of the file system on. They are joined, shortened
and cleared of dots by their text alone.

## Main definitions

- `Path` — the names on the way from the root
- `AbsolutePath` — a text that starts with a slash
- `AbsolutePath.join`, `AbsolutePath.parent` — the way down and the way up
- `AbsolutePath.split` — a written path before its last piece, and that piece
- `AbsolutePath.names` — the names on the way from the root
- `AbsolutePath.normal` — the path over these names
- `AbsolutePath.resolve` — what a written path means in a directory

## Design notes

The root is written with one slash or with two; more are as good as one. Where two
slashes lead is the same root, but they are kept.
-/

namespace StrictEquality

/-- The names on the way from the root. -/
abbrev Path := List String

namespace Path

/-- The pieces of a text between its slashes. -/
def pieces (text : String) : List String :=
  (Text.splitAt '/' text.toList).map String.ofList

/-- A path as it is written. -/
def text (p : Path) : String :=
  "/".intercalate p

end Path

/-- A path that is written from the root of the file system on. -/
@[ext]
structure AbsolutePath where
  chars : List Char
  head?_chars : chars.head? = some '/'
  deriving DecidableEq, Repr

namespace AbsolutePath

def text (p : AbsolutePath) : String :=
  String.ofList p.chars

/-- A written path below another one. One that is absolute itself stays as it is. -/
def join (p : AbsolutePath) (path : String) : AbsolutePath :=
  if h : path.toList.head? = some '/' then ⟨path.toList, h⟩
  else if p.chars.getLast? = some '/' then ⟨p.chars ++ path.toList, by simp [p.head?_chars]⟩
  else ⟨p.chars ++ '/' :: path.toList, by simp [p.head?_chars]⟩

theorem chars_join (p : AbsolutePath) (path : String) :
    (p.join path).chars =
      if path.toList.head? = some '/' then path.toList
      else if p.chars.getLast? = some '/' then p.chars ++ path.toList
      else p.chars ++ '/' :: path.toList := by
  rw [join]
  split
  · rfl
  · split <;> rfl

/-- A text without the characters at its end that have a property. -/
def dropEnd (drops : Char → Bool) (cs : List Char) : List Char :=
  (cs.reverse.dropWhile drops).reverse

/-- What stands before the last slash of a text, without the slashes in front of that one.
Where nothing but slashes would be cut off, they stay. -/
def parentChars (cs : List Char) : List Char :=
  let upToSlash := dropEnd (· != '/') cs
  if upToSlash.all (· == '/') then upToSlash else dropEnd (· == '/') upToSlash

theorem isPrefix_dropEnd (drops : Char → Bool) (cs : List Char) : dropEnd drops cs <+: cs := by
  rw [dropEnd, ← List.reverse_suffix, List.reverse_reverse]
  exact List.dropWhile_suffix drops

/-- A text keeps its first character as long as one of its characters is not dropped. -/
theorem head?_dropEnd {drops : Char → Bool} {cs : List Char} (h : cs.all drops = false) :
    (dropEnd drops cs).head? = cs.head? := by
  obtain ⟨rest, hrest⟩ := isPrefix_dropEnd drops cs
  cases hkept : dropEnd drops cs with
  | nil =>
    have hnone : cs.reverse.dropWhile drops = [] := List.reverse_eq_nil_iff.mp hkept
    have hsplit := List.takeWhile_append_dropWhile (p := drops) (l := cs.reverse)
    rw [hnone, List.append_nil] at hsplit
    have hall : (cs.reverse.takeWhile drops).all drops = true := List.all_takeWhile
    rw [hsplit, List.all_reverse, h] at hall
    exact absurd hall Bool.false_ne_true
  | cons c kept =>
    rw [← hrest, hkept]
    rfl

theorem isPrefix_parentChars (cs : List Char) : parentChars cs <+: cs := by
  have hup := isPrefix_dropEnd (· != '/') cs
  rw [parentChars]
  split
  · exact hup
  · exact (isPrefix_dropEnd _ _).trans hup

theorem head?_parentChars {cs : List Char} (h : cs.head? = some '/') :
    (parentChars cs).head? = some '/' := by
  have hslash : cs.all (· != '/') = false := by
    rw [List.all_eq_false]
    exact ⟨'/', List.mem_of_head? h, by simp⟩
  have hup : (dropEnd (· != '/') cs).head? = some '/' := (head?_dropEnd hslash).trans h
  rw [parentChars]
  split
  · exact hup
  · next hother => exact (head?_dropEnd (Bool.eq_false_iff.mpr hother)).trans hup

/-- What follows the last slash of a text. -/
def lastPiece (cs : List Char) : List Char :=
  (cs.reverse.takeWhile (· != '/')).reverse

theorem dropEnd_append_lastPiece (cs : List Char) :
    dropEnd (· != '/') cs ++ lastPiece cs = cs := by
  rw [dropEnd, lastPiece, ← List.reverse_append, List.takeWhile_append_dropWhile,
    List.reverse_reverse]

/-- A written path before its last piece, and that piece. A slash at the end is passed
over. -/
def split (cs : List Char) : List Char × List Char :=
  let cs := if (lastPiece cs).isEmpty then parentChars cs else cs
  (parentChars cs, lastPiece cs)

theorem length_parentChars_lt {cs : List Char} (h : lastPiece cs ≠ []) :
    (parentChars cs).length < cs.length := by
  have hparts := congrArg List.length (dropEnd_append_lastPiece cs)
  have hlast : 0 < (lastPiece cs).length := List.length_pos_iff.mpr h
  have hup : (parentChars cs).length ≤ (dropEnd (· != '/') cs).length := by
    rw [parentChars]
    split
    · exact Nat.le_refl _
    · exact (isPrefix_dropEnd _ _).length_le
  rw [List.length_append] at hparts
  omega

/-- What stands before a piece is shorter. -/
theorem length_split_lt {cs : List Char} (h : (split cs).2 ≠ []) :
    (split cs).1.length < cs.length := by
  have hfirst := length_parentChars_lt h
  refine Nat.lt_of_lt_of_le hfirst ?_
  split
  · exact (isPrefix_parentChars cs).length_le
  · exact Nat.le_refl _

/-- The directory that a path is in. That of the root is the root. -/
def parent (p : AbsolutePath) : AbsolutePath :=
  ⟨parentChars p.chars, head?_parentChars p.head?_chars⟩

@[simp]
theorem chars_parent (p : AbsolutePath) : p.parent.chars = parentChars p.chars :=
  rfl

/-- The way up makes a path shorter until it stays where it is. -/
theorem length_parent_lt {p : AbsolutePath} (h : p.parent ≠ p) :
    p.parent.chars.length < p.chars.length := by
  have hpart : p.parent.chars <+: p.chars := isPrefix_parentChars p.chars
  refine Nat.lt_of_le_of_ne hpart.length_le ?_
  intro hlength
  exact h (AbsolutePath.ext (hpart.eq_of_length hlength))

/-- Follow one step of a path. The way up from the root leads to the root. -/
def follow (p : Path) (step : String) : Path :=
  match step with
  | "" | "." => p
  | ".." => p.dropLast
  | name => p ++ [name]

/-- The names on the way from the root to where a path leads. -/
def names (p : AbsolutePath) : Path :=
  (Path.pieces p.text).foldl follow []

/-- The steps of a path, without those of slashes at its end. -/
def steps (p : AbsolutePath) : List String :=
  Path.pieces (String.ofList (dropEnd (· == '/') p.chars))

/-- Whether a text starts with two slashes and no more. -/
def startsDoubled (cs : List Char) : Bool :=
  cs.takeWhile (· == '/') == ['/', '/']

/-- Whether the root of a path is written with two slashes. -/
def isDoubled (p : AbsolutePath) : Bool :=
  startsDoubled p.chars

/-- The root, as it is written. -/
def root (doubled : Bool) : List Char :=
  if doubled then ['/', '/'] else ['/']

/-- The path over some names. -/
def ofNames (doubled : Bool) (names : Path) : AbsolutePath :=
  ⟨root doubled ++ ['/'].intercalate (names.map String.toList), by cases doubled <;> rfl⟩

@[simp]
theorem chars_ofNames (doubled : Bool) (names : Path) :
    (ofNames doubled names).chars = root doubled ++ ['/'].intercalate (names.map String.toList) :=
  rfl

/-- A path without dots and needless slashes. -/
def normal (p : AbsolutePath) : AbsolutePath :=
  ofNames p.isDoubled p.names

/-- What a written path means in a directory, without dots and needless slashes. -/
def resolve (directory : AbsolutePath) (path : String) : AbsolutePath :=
  (directory.join path).normal

end AbsolutePath

end StrictEquality
