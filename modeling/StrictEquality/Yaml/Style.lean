import StrictEquality.Number.Decimal
import StrictEquality.Yaml.Character
import StrictEquality.Yaml.Tag

/-!
# Written scalars

How a scalar is written so that it reads back. A text is plain where that is
possible, else between single quotes, and between double quotes with escapes if it
holds characters that cannot stand for themselves.

## Main definitions

- `isPlainText` — whether a text may be written without quotes
- `singleQuoted`, `doubleQuoted` — the two quoted forms
- `writtenText` — the form that is chosen
- `writtenNumber` — the form of a floating-point number
-/

namespace StrictEquality

namespace Yaml

/-- The characters that mean something else at the start of a plain scalar. -/
def isLeadingMark (c : Char) : Bool :=
  "#,[]\x7b\x7d&*!|>'\"%@\x60".toList.contains c

/-- Whether a character and what follows it could be taken for something else inside
a plain scalar, given whether a blank comes before it. -/
def isMarkWithin (afterBlank : Bool) (c : Char) (rest : List Char) : Bool :=
  (c == ':' && endsWord rest) || (c == '#' && afterBlank)

/-- Whether no character after the first could be taken for something else. -/
def isPlainTail (afterBlank : Bool) : List Char → Bool
  | [] => true
  | c :: rest => !isMarkWithin afterBlank c rest && isPlainTail (isGap c) rest

/-- Whether a text starts like a plain scalar does. -/
def isPlainStart : List Char → Bool
  | [] => true
  | c :: rest =>
    !isLeadingMark c && !((c == '?' || c == ':' || c == '-') && endsWord rest) &&
      !"---".toList.isPrefixOf (c :: rest) && !"...".toList.isPrefixOf (c :: rest)

/-- The characters that can stand for themselves. -/
def isSimple (c : Char) : Bool :=
  c == '\n' || (' ' ≤ c && c ≤ '~')

/-- Whether a space stands at one end of a text. -/
def hasOuterSpace (cs : List Char) : Bool :=
  cs.head? == some ' ' || cs.getLast? == some ' '

/-- Whether a text may be written without quotes. It has to read back as a text. -/
def isPlainText (text : String) : Bool :=
  let cs := text.toList
  Tag.ofPlain text == .str && cs.all isSimple && !cs.contains '\n' && !hasOuterSpace cs &&
    isPlainStart cs && isPlainTail (cs.head?.any isGap) cs.tail

/-- Whether a space stands next to a line break. -/
def hasSpaceAtBreak : List Char → Bool
  | a :: b :: rest =>
    (a == ' ' && b == '\n') || (a == '\n' && b == ' ') || hasSpaceAtBreak (b :: rest)
  | _ => false

/-- Whether a text may be written between single quotes. -/
def isSingleText (text : String) : Bool :=
  text.toList.all isSimple && !hasSpaceAtBreak text.toList

def spaces (n : Nat) : List Char :=
  List.replicate n ' '

/-- The characters between single quotes. A quote is written twice. One more line
break than there are is written, and then the next line is indented. -/
def singleChars (indent : Nat) (inBreaks : Bool) : List Char → List Char
  | [] => if inBreaks then spaces indent else []
  | c :: rest =>
    if c == '\n' then
      (if inBreaks then ['\n'] else ['\n', '\n']) ++ singleChars indent true rest
    else
      (if inBreaks then spaces indent else []) ++ (if c == '\'' then ['\'', '\''] else [c]) ++
        singleChars indent false rest

/-- A text between single quotes. Its further lines are indented. -/
def singleQuoted (indent : Nat) (text : String) : String :=
  String.ofList ('\'' :: (singleChars indent false text.toList ++ ['\'']))

/-- The letter for a character after a backslash. -/
def escapeLetter? (c : Char) : Option Char :=
  match c with
  | '\x00' => some '0'
  | '\x07' => some 'a'
  | '\x08' => some 'b'
  | '\t' => some 't'
  | '\n' => some 'n'
  | '\x0b' => some 'v'
  | '\x0c' => some 'f'
  | '\r' => some 'r'
  | '\x1b' => some 'e'
  | '"' => some '"'
  | '\\' => some '\\'
  | '\u0085' => some 'N'
  | '\u00a0' => some '_'
  | '\u2028' => some 'L'
  | '\u2029' => some 'P'
  | _ => none

/-- A number in upper-case hexadecimal digits, filled up with zeros. -/
def upperHex (width n : Nat) : List Char :=
  let digits := (Nat.toDigits 16 n).map Char.toUpper
  List.replicate (width - digits.length) '0' ++ digits

/-- A character between double quotes. -/
def doubleChar (c : Char) : List Char :=
  match escapeLetter? c with
  | some letter => ['\\', letter]
  | none =>
    if ' ' ≤ c && c ≤ '~' then [c]
    else if c.toNat ≤ 0xFF then '\\' :: 'x' :: upperHex 2 c.toNat
    else if c.toNat ≤ 0xFFFF then '\\' :: 'u' :: upperHex 4 c.toNat
    else '\\' :: 'U' :: upperHex 8 c.toNat

/-- A text between double quotes. -/
def doubleQuoted (text : String) : String :=
  String.ofList ('"' :: (text.toList.flatMap doubleChar ++ ['"']))

/-- A text in the form that is chosen for it. Its further lines are indented. -/
def writtenText (indent : Nat) (text : String) : String :=
  if isPlainText text then text
  else if isSingleText text then singleQuoted indent text
  else doubleQuoted text

/-- Put a fraction into a numeral in scientific notation that has none. -/
def withFraction (cs : List Char) : List Char :=
  if cs.contains 'e' && !cs.contains '.' then
    cs.takeWhile (· != 'e') ++ ".0".toList ++ cs.dropWhile (· != 'e')
  else cs

def writtenNumber : Binary64 → String
  | .nan => ".nan"
  | .infinity negative => if negative then "-.inf" else ".inf"
  | x => String.ofList (withFraction x.text.toList)

example : writtenText 2 "yes" = "'yes'" := by decide +kernel
example : writtenText 2 "a: b" = "'a: b'" := by decide +kernel
example : writtenText 2 "a\nb" = "'a\n\n  b'" := by decide +kernel
example : writtenText 2 "lang.x" = "lang.x" := by decide +kernel

end Yaml

end StrictEquality
