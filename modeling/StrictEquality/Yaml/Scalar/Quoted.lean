import StrictEquality.Yaml.Character
import StrictEquality.Fault

/-!
# Quoted scalars

Scalars between single or double quotes. Single line breaks inside the quotes are
folded into a space, further ones are kept. Between double quotes a backslash
starts an escape.

## Main definitions

- `foldedBreaks` — the line breaks after the first one of a fold
- `escape` — what follows a backslash
- `quoted` — the rest of a scalar after its opening quote
-/

namespace StrictEquality

namespace Yaml

/-- The line breaks after the first one of a fold, with the blanks around them. No
line may start with a document marker. -/
def foldedBreaks (lineStart : Bool) : List Char → Except Fault (List Char × List Char)
  | [] => .ok ([], [])
  | c :: cs =>
    if lineStart && startsAnyMarker (c :: cs) then .error .malformed
    else if isSpace c then foldedBreaks false cs
    else if isBreak c then do
      let (breaks, rest) ← foldedBreaks true cs
      return (breakContent c :: breaks, rest)
    else .ok ([], c :: cs)

/-- What the line breaks of a fold stand for: a lone newline is a space, and of
several breaks a newline in front is dropped. -/
def foldContent (first : Char) (later : List Char) : List Char :=
  if first != '\n' then first :: later
  else if later.isEmpty then [' ']
  else later

/-- The character that a letter stands for after a backslash. -/
def namedEscape? (c : Char) : Option Char :=
  match c with
  | '0' => some '\x00'
  | 'a' => some '\x07'
  | 'b' => some '\x08'
  | 't' | '\t' => some '\t'
  | 'n' => some '\n'
  | 'v' => some '\x0b'
  | 'f' => some '\x0c'
  | 'r' => some '\r'
  | 'e' => some '\x1b'
  | ' ' => some ' '
  | '"' => some '"'
  | '\\' => some '\\'
  | '/' => some '/'
  | 'N' => some '\u0085'
  | '_' => some '\u00a0'
  | 'L' => some '\u2028'
  | 'P' => some '\u2029'
  | _ => none

/-- How many hexadecimal digits follow a letter after a backslash. -/
def escapeWidth? (c : Char) : Option Nat :=
  match c with
  | 'x' => some 2
  | 'u' => some 4
  | 'U' => some 8
  | _ => none

/-- The number written in the next `width` characters. -/
def hexField? (width : Nat) (cs : List Char) : Option (Nat × List Char) :=
  if cs.length < width then none
  else (hexNumber? (cs.take width)).map (fun n => (n, cs.drop width))

/-- The second half of a pair of surrogates, written as an escape of its own. -/
def lowSurrogate? : List Char → Option (Nat × List Char)
  | '\\' :: c :: cs => do
    let (n, rest) ← hexField? (← escapeWidth? c) cs
    if 0xDC00 ≤ n && n ≤ 0xDFFF then some (n, rest) else none
  | _ => none

/-- The character with a number. Two surrogates make one character, and a lone one
is shown as the replacement character. -/
def codeEscape (n : Nat) (rest : List Char) : Except Fault (Char × List Char) :=
  if 0x10FFFF < n then .error (.wrongValue "the number of a character")
  else if 0xD800 ≤ n && n ≤ 0xDBFF then
    match lowSurrogate? rest with
    | some (m, rest) =>
      .ok (Char.ofNat (0x10000 + (n - 0xD800) * 0x400 + (m - 0xDC00)), rest)
    | none => .ok ('\uFFFD', rest)
  else if 0xDC00 ≤ n && n ≤ 0xDFFF then .ok ('\uFFFD', rest)
  else .ok (Char.ofNat n, rest)

/-- What follows a backslash: a letter for a character, the number of a character,
or a line break that is not part of the scalar. -/
def escape : List Char → Except Fault (List Char × List Char)
  | [] => .error .malformed
  | c :: cs =>
    match namedEscape? c, escapeWidth? c with
    | some d, _ => .ok ([d], cs)
    | none, some width =>
      match hexField? width cs with
      | some (n, rest) => do
        let (d, rest) ← codeEscape n rest
        return ([d], rest)
      | none => .error .malformed
    | none, none => if isBreak c then foldedBreaks true cs else .error .malformed

/-- Blanks inside a scalar: kept within a line, folded around line breaks. -/
def quotedBlanks (cs : List Char) : Except Fault (List Char × List Char) :=
  match cs.dropWhile isSpace with
  | [] => .error .malformed
  | c :: rest =>
    if isBreak c then do
      let (later, rest) ← foldedBreaks true rest
      return (foldContent (breakContent c) later, rest)
    else .ok (cs.takeWhile isSpace, c :: rest)

/-- The next piece of a scalar, none for the closing quote. -/
def quotedPiece (double : Bool) : List Char → Except Fault (Option (List Char) × List Char)
  | [] => .error .malformed
  | c :: cs =>
    if isGap c then do
      let (content, rest) ← quotedBlanks (c :: cs)
      return (some content, rest)
    else if double && c == '\\' then do
      let (content, rest) ← escape cs
      return (some content, rest)
    else if double && c == '"' then .ok (none, cs)
    else if !double && c == '\'' then
      match cs with
      | '\'' :: rest => .ok (some ['\''], rest)
      | rest => .ok (none, rest)
    else .ok (some [c], cs)

/-- The pieces of a scalar up to its closing quote. Each takes a character at least,
so as many steps as there are characters are enough. -/
def quotedPieces (double : Bool) : Nat → List Char → Except Fault (List Char × List Char)
  | 0, _ => .error .malformed
  | fuel + 1, cs => do
    match ← quotedPiece double cs with
    | (none, rest) => return ([], rest)
    | (some content, rest) =>
      let (more, rest) ← quotedPieces double fuel rest
      return (content ++ more, rest)

/-- The rest of a scalar after its opening quote, and what follows it. -/
def quoted (double : Bool) (cs : List Char) : Except Fault (List Char × List Char) :=
  quotedPieces double (cs.length + 1) cs

example : (quoted true "a\\tb\" c".toList).toOption = some ("a\tb".toList, " c".toList) := by
  decide +kernel
example : (quoted false "it''s\n  a\n\n b'".toList).toOption = some ("it's a\nb".toList, []) := by
  decide +kernel

end Yaml

end StrictEquality
