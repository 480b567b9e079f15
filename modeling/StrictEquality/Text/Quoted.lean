import StrictEquality.Text.Printable

/-!
# Quoted text

The form in which messages show a piece of text: between quotes, with the
characters that cannot be shown written as escapes.

## Main definitions

- `quote` — the quoted form of a text
- `quoteBytes` — the quoted form of bytes
- `hexDigits` — a number in lower-case hexadecimal digits of a given width

## Design notes

Single quotes are used unless the text holds a single quote and no double quote;
so an escaped quote is needed only where both kinds occur.
-/

namespace StrictEquality

namespace Text

/-- A number in hexadecimal, filled up with zeros to the given width. -/
def hexDigits (width n : Nat) : List Char :=
  let digits := Nat.toDigits 16 n
  List.replicate (width - digits.length) '0' ++ digits

/-- One character of a quoted text. -/
def quoteChar (mark c : Char) : List Char :=
  if c = mark ∨ c = '\\' then ['\\', c]
  else if c = '\t' then ['\\', 't']
  else if c = '\n' then ['\\', 'n']
  else if c = '\r' then ['\\', 'r']
  else if isPrintable c then [c]
  else if c.toNat ≤ 0xFF then '\\' :: 'x' :: hexDigits 2 c.toNat
  else if c.toNat ≤ 0xFFFF then '\\' :: 'u' :: hexDigits 4 c.toNat
  else '\\' :: 'U' :: hexDigits 8 c.toNat

/-- The quotation mark for a text. -/
def quotationMark (cs : List Char) : Char :=
  if '\'' ∈ cs ∧ '"' ∉ cs then '"' else '\''

/-- The quoted form of a text. -/
def quote (s : String) : String :=
  let cs := s.toList
  let mark := quotationMark cs
  String.ofList (mark :: (cs.flatMap (quoteChar mark) ++ [mark]))

/-- One byte of quoted bytes. Bytes outside ASCII are always escaped. -/
def quoteByte (mark c : Char) : List Char :=
  if c.toNat < 0x80 then quoteChar mark c else '\\' :: 'x' :: hexDigits 2 c.toNat

/-- The quoted form of bytes. -/
def quoteBytes (bytes : List UInt8) : String :=
  let cs := bytes.map (fun b => Char.ofNat b.toNat)
  let mark := quotationMark cs
  String.ofList ('b' :: mark :: (cs.flatMap (quoteByte mark) ++ [mark]))

example : quote "it's" = "\"it's\"" := by decide +kernel
example : quote "a\tb\\" = "'a\\tb\\\\'" := by decide +kernel
example : quote "\x07é" = "'\\x07é'" := by decide +kernel
example : quoteBytes [0x61, 0x27, 0xE9] = "b\"a'\\xe9\"" := by decide +kernel

end Text

end StrictEquality
