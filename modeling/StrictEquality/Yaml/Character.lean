/-!
# Character classes of YAML

## Main definitions

- `isPermitted` — the characters a YAML text may hold
- `isBreak`, `isGap`, `isWordChar` — line breaks, what separates words, and the
  characters of names
- `endsWord`, `endsLine` — the same for the next character of a text, where the end
  of the text counts as a line break
- `startsMarker` — whether a line starts with a document marker
-/

namespace StrictEquality

namespace Yaml

/-- The characters a YAML text may hold. -/
def isPermitted (c : Char) : Bool :=
  let n := c.toNat
  n == 0x09 || n == 0x0A || n == 0x0D || (0x20 ≤ n && n ≤ 0x7E) || n == 0x85 ||
    (0xA0 ≤ n && n ≤ 0xD7FF) || (0xE000 ≤ n && n ≤ 0xFFFD) || 0x10000 ≤ n

/-- The characters that end a line, in a text whose line ends are unified. -/
def isBreak (c : Char) : Bool :=
  c == '\n' || c == '\u0085' || c == '\u2028' || c == '\u2029'

/-- Blanks within a line. -/
def isSpace (c : Char) : Bool :=
  c == ' ' || c == '\t'

/-- The characters that separate words. -/
def isGap (c : Char) : Bool :=
  isSpace c || isBreak c

/-- The characters of names. -/
def isWordChar (c : Char) : Bool :=
  c.isAlphanum || c == '-' || c == '_'

/-- What a line break stands for in a scalar: next line is the same as newline. -/
def breakContent (c : Char) : Char :=
  if c == '\u0085' then '\n' else c

/-- Whether a text ends, or goes on with a character of a class. -/
def endsOr (p : Char → Bool) : List Char → Bool
  | [] => true
  | c :: _ => p c

/-- Whether a word ends before a text. -/
def endsWord (cs : List Char) : Bool :=
  endsOr isGap cs

/-- Whether a line ends before a text. -/
def endsLine (cs : List Char) : Bool :=
  endsOr isBreak cs

/-- Whether a line ends before a text, or a space follows. -/
def endsLineOrSpace (cs : List Char) : Bool :=
  endsOr (fun c => c == ' ' || isBreak c) cs

/-- Whether a line starts with the three characters of a document marker, which is
a word of its own. -/
def startsMarker (mark : Char) : List Char → Bool
  | a :: b :: c :: rest => a == mark && b == mark && c == mark && endsWord rest
  | _ => false

/-- Whether a line starts with a document marker, of a start or an end. -/
def startsAnyMarker (cs : List Char) : Bool :=
  startsMarker '-' cs || startsMarker '.' cs

/-- The value of a hexadecimal digit. -/
def hexDigit? (c : Char) : Option Nat :=
  if c.isDigit then some (c.toNat - 48)
  else if 'a' ≤ c && c ≤ 'f' then some (c.toNat - 87)
  else if 'A' ≤ c && c ≤ 'F' then some (c.toNat - 55)
  else none

/-- The number that hexadecimal digits stand for. -/
def hexNumber? (cs : List Char) : Option Nat :=
  cs.foldlM (fun n c => (hexDigit? c).map (16 * n + ·)) 0

end Yaml

end StrictEquality
