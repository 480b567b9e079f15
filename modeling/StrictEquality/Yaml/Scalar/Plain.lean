import StrictEquality.Yaml.Cursor
import StrictEquality.Yaml.Scalar.Quoted

/-!
# Plain scalars

Scalars without quotes: words up to a character that means something else. They
go on over line ends as long as the next line is indented far enough.

## Main definitions

- `startsPlain` — whether a plain scalar may start
- `plainWord` — the characters up to a blank or an indicator
- `plainGap` — what lies between two words
- `plain` — the whole scalar
-/

namespace StrictEquality

namespace Yaml

/-- The characters that end a word inside a flow collection. -/
def isFlowMark (c : Char) : Bool :=
  c == ',' || c == '?' || c == '[' || c == ']' || c == '\x7b' || c == '\x7d'

/-- The characters that have a meaning of their own at the start of a token. -/
def isIndicator (c : Char) : Bool :=
  "-?:,[]\x7b\x7d#&*!|>'\"%@`".toList.contains c

/-- Whether a plain scalar may start: with a character that is no indicator, or
with a dash, and outside of flow collections with a question mark or a colon, if
a word goes on after it. -/
def startsPlain (inFlow : Bool) : List Char → Bool
  | [] => false
  | c :: cs =>
    if isGap c then false
    else if isIndicator c then
      !endsWord cs && (c == '-' || (!inFlow && (c == '?' || c == ':')))
    else true

/-- Whether a colon ends the word before it. -/
def colonEnds (inFlow : Bool) (cs : List Char) : Bool :=
  endsOr (fun c => isGap c || (inFlow && c != '?' && isFlowMark c)) cs

/-- The characters up to a blank or an indicator, and what follows. -/
def plainWord (inFlow : Bool) : List Char → List Char × List Char
  | [] => ([], [])
  | c :: cs =>
    if isGap c || (c == ':' && colonEnds inFlow cs) || (inFlow && isFlowMark c) then ([], c :: cs)
    else
      let (word, rest) := plainWord inFlow cs
      (c :: word, rest)

/-- The line breaks after the first one, with the spaces around them. None if a line
starts with a document marker. -/
def plainBreaks : List Char → Option (List Char) × List Char
  | [] => (some [], [])
  | c :: cs =>
    if c == ' ' then plainBreaks cs
    else if isBreak c then
      if startsAnyMarker cs then (none, cs)
      else
        let (breaks, rest) := plainBreaks cs
        (breaks.map (breakContent c :: ·), rest)
    else (some [], c :: cs)

/-- What lies between two words of a plain scalar. -/
structure PlainGap where
  /-- What it stands for. It is empty where the scalar ends. -/
  content : List Char
  /-- The position after it. -/
  cursor : Cursor
  /-- Whether a line ends in it. -/
  broke : Bool

/-- What lies at a position between words. -/
def plainGap (c : Cursor) : PlainGap :=
  let blanks := c.rest.takeWhile (· == ' ')
  let after := c.spaces
  match after.lineBreak? with
  | none => { content := blanks, cursor := after, broke := false }
  | some (first, next) =>
    if startsAnyMarker next.rest then { content := [], cursor := next, broke := true }
    else
      let (breaks, rest) := plainBreaks next.rest
      { content := (breaks.map (foldContent first)).getD []
        cursor := next.goTo rest
        broke := true }

/-- A plain scalar: its content, the position after it and whether a line ended
since its last word. -/
structure PlainScalar where
  content : List Char
  cursor : Cursor
  broke : Bool

/-- The words of a plain scalar. Each takes a character at least. -/
def plainWords (inFlow : Bool) (margin : Nat) (broke : Bool) : Nat → Cursor → PlainScalar
  | 0, c => { content := [], cursor := c, broke }
  | fuel + 1, c =>
    let (word, rest) := plainWord inFlow c.rest
    if word.isEmpty || c.rest.head? == some '#' then { content := [], cursor := c, broke }
    else
      let gap := plainGap (c.goTo rest)
      if gap.content.isEmpty || gap.cursor.rest.head? == some '#' ||
          (!inFlow && gap.cursor.column < margin) then
        { content := word, cursor := gap.cursor, broke := gap.broke }
      else
        let more := plainWords inFlow margin gap.broke fuel gap.cursor
        if more.content.isEmpty then { more with content := word }
        else { more with content := word ++ gap.content ++ more.content }

/-- The plain scalar at a position. Outside of flow collections its lines start at
the column `margin` or to the right of it. -/
def plain (inFlow : Bool) (margin : Nat) (c : Cursor) : PlainScalar :=
  plainWords inFlow margin false (c.rest.length + 1) c

/-- A word and what follows it make up the text. -/
theorem plainWord_append (inFlow : Bool) (cs : List Char) :
    (plainWord inFlow cs).1 ++ (plainWord inFlow cs).2 = cs := by
  induction cs with
  | nil => rfl
  | cons c cs ih =>
    rw [plainWord]
    split
    · rfl
    · simpa using ih

end Yaml

end StrictEquality
