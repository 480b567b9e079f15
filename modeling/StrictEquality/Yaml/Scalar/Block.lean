import StrictEquality.Yaml.Cursor
import StrictEquality.Fault

/-!
# Block scalars

Scalars of whole lines, all indented by the same number of columns. Literal ones
keep their line breaks. In folded ones a single line break between two lines of
text stands for a space.

## Main definitions

- `Chomping` — what becomes of the line breaks at the end
- `BlockHeader` — what the first line says
- `blockScalar` — the whole scalar
-/

namespace StrictEquality

namespace Yaml

/-- What becomes of the line breaks at the end of a scalar. -/
inductive Chomping
  /-- They are dropped. -/
  | strip
  /-- The first of them is kept. -/
  | clip
  /-- They are kept. -/
  | keep
  deriving DecidableEq, Repr

/-- What the first line of a block scalar says. -/
structure BlockHeader where
  chomping : Chomping := .clip
  /-- By how many columns the scalar is indented, if that is said. -/
  increment : Option Nat := none
  deriving DecidableEq, Repr

/-- The chomping that a character asks for. -/
def Chomping.ofChar? (c : Char) : Option Chomping :=
  match c with
  | '+' => some .keep
  | '-' => some .strip
  | _ => none

/-- The chomping at the start of a text, and what follows. -/
def readChomping (cs : List Char) : Chomping × List Char :=
  match cs with
  | c :: rest =>
    match Chomping.ofChar? c with
    | some chomping => (chomping, rest)
    | none => (.clip, cs)
  | [] => (.clip, [])

/-- The increment at the start of a text, and what follows. Zero is refused. -/
def readIncrement (cs : List Char) : Except Fault (Option Nat × List Char) :=
  match cs with
  | c :: rest =>
    if c == '0' then .error .malformed
    else if c.isDigit then .ok (some (c.toNat - 48), rest)
    else .ok (none, cs)
  | [] => .ok (none, [])

/-- The header of a block scalar: chomping and increment in either order. -/
def readHeader (cs : List Char) : Except Fault (BlockHeader × List Char) := do
  match cs.head?.bind Chomping.ofChar? with
  | some chomping =>
    let (increment, rest) ← readIncrement cs.tail
    return ({ chomping, increment }, rest)
  | none =>
    match ← readIncrement cs with
    | (none, rest) => return ({}, rest)
    | (increment, rest) =>
      let (chomping, rest) := readChomping rest
      return ({ chomping, increment }, rest)

namespace Cursor

/-- Pass spaces up to a column. -/
def indentTo (c : Cursor) (column : Nat) : Cursor :=
  c.skip (min (column - c.column) (c.rest.takeWhile (· == ' ')).length)

/-- Pass empty lines, with the spaces up to a column in each. -/
def emptyLines (column : Nat) : Nat → Cursor → List Char × Cursor
  | 0, c => ([], c)
  | fuel + 1, c =>
    let c := c.indentTo column
    match c.lineBreak? with
    | none => ([], c)
    | some (b, next) =>
      let (breaks, last) := emptyLines column fuel next
      (b :: breaks, last)

/-- Pass spaces and line breaks, and find how far the spaces reach. -/
def measure : Nat → Cursor → List Char × Nat × Cursor
  | 0, c => ([], c.column, c)
  | fuel + 1, c =>
    let c := c.spaces
    match c.lineBreak? with
    | none => ([], c.column, c)
    | some (b, next) =>
      let (breaks, column, last) := measure fuel next
      (b :: breaks, max c.column column, last)

end Cursor

/-- The lines of a block scalar: their content, the last line break, the empty lines
after it, and the position after them. -/
structure BlockLines where
  content : List Char
  lastBreak : List Char
  trailing : List Char
  cursor : Cursor

/-- Whether a line of text is folded together with its neighbour: it does not start
with a blank. -/
def isTextLine (cs : List Char) : Bool :=
  !endsOr isSpace cs

/-- Read lines that start at the given column. -/
def blockLines (folded : Bool) (column : Nat) : Nat → List Char → Cursor → BlockLines
  | 0, breaks, c => { content := [], lastBreak := [], trailing := breaks, cursor := c }
  | fuel + 1, breaks, c =>
    if c.column != column || c.rest.isEmpty then
      { content := [], lastBreak := [], trailing := breaks, cursor := c }
    else
      let line := c.rest.takeWhile (fun ch => !isBreak ch)
      let ended := c.skip line.length
      let (lastBreak, next) := match ended.lineBreak? with
        | some (b, next) => ([b], next)
        | none => ([], ended)
      let (later, next) := next.emptyLines column (next.rest.length + 1)
      if next.column != column || next.rest.isEmpty then
        { content := breaks ++ line, lastBreak, trailing := later, cursor := next }
      else
        let joint :=
          if folded && lastBreak == ['\n'] && isTextLine c.rest && isTextLine next.rest then
            if later.isEmpty then [' '] else []
          else lastBreak
        let more := blockLines folded column fuel later next
        { more with content := breaks ++ line ++ joint ++ more.content }

/-- The block scalar after its indicator. `margin` is the column that lines outside of
the enclosing block may not pass. -/
def blockScalar (folded : Bool) (margin : Nat) (c : Cursor) :
    Except Fault (List Char × Cursor) := do
  let (header, rest) ← readHeader c.rest
  unless endsLineOrSpace rest do
    .error .malformed
  let c := (c.goTo rest).spaces.comment
  unless endsLine c.rest do
    .error .malformed
  let c := c.lineBreak
  let least := max margin 1
  let (breaks, column, c) := match header.increment with
    | some n =>
      let column := least + n - 1
      let (breaks, c) := c.emptyLines column (c.rest.length + 1)
      (breaks, column, c)
    | none =>
      let (breaks, column, c) := c.measure (c.rest.length + 1)
      (breaks, max least column, c)
  let lines := blockLines folded column (c.rest.length + 1) breaks c
  let ending := match header.chomping with
    | .strip => []
    | .clip => lines.lastBreak
    | .keep => lines.lastBreak ++ lines.trailing
  return (lines.content ++ ending, lines.cursor)

end Yaml

end StrictEquality
