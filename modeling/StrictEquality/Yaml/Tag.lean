import StrictEquality.Text.Lines

/-!
# Tags

What a node is: a tag may be written, and otherwise follows from the form of the
node. A plain scalar is a number, a flag or null if it looks like one.

## Main definitions

- `Tag` — the tags that have a meaning
- `Tag.ofName` — the tag with a full name
- `Tag.ofPlain` — the tag of a plain scalar
-/

namespace StrictEquality

namespace Yaml

/-- The tags that have a meaning. -/
inductive Tag
  | str
  | int
  | float
  | bool
  | null
  | seq
  | map
  | set
  /-- The key under which other mappings are merged in. -/
  | merge
  /-- The key whose value stands for the whole mapping. -/
  | defaultValue
  | unknown
  deriving DecidableEq, Repr

namespace Tag

/-- What the full names of the standard tags start with. -/
def standardStem : String := "tag:yaml.org,2002:"

def named : List (String × Tag) :=
  [("str", str), ("int", int), ("float", float), ("bool", bool), ("null", null), ("seq", seq),
    ("map", map), ("set", set), ("merge", merge), ("value", defaultValue)]

/-- The tag with a full name. -/
def ofName (name : String) : Tag :=
  ((named.find? (fun e => standardStem ++ e.1 == name)).map Prod.snd).getD unknown

/-- The text after a sign, if there is one. -/
def afterSign (cs : List Char) : List Char :=
  match cs with
  | '-' :: rest => rest
  | '+' :: rest => rest
  | rest => rest

/-- A decimal digit, or an underscore to group digits. -/
def isDigitOrGroup (c : Char) : Bool :=
  c.isDigit || c == '_'

/-- A digit, then digits and underscores. -/
def isDigits : List Char → Bool
  | [] => false
  | c :: cs => c.isDigit && cs.all isDigitOrGroup

/-- A digit other than zero, then digits and underscores. -/
def isPositive : List Char → Bool
  | [] => false
  | c :: cs => c.isDigit && c != '0' && cs.all isDigitOrGroup

/-- Nothing, or an exponent with a sign. -/
def isExponent : List Char → Bool
  | [] => true
  | e :: s :: ds =>
    (e == 'e' || e == 'E') && (s == '-' || s == '+') && !ds.isEmpty && ds.all Char.isDigit
  | _ => false

/-- Digits and underscores, then perhaps an exponent. -/
def isFraction (cs : List Char) : Bool :=
  isExponent (cs.dropWhile isDigitOrGroup)

/-- One or two digits below sixty. -/
def isSixtieth : List Char → Bool
  | [d] => d.isDigit
  | [t, d] => '0' ≤ t && t ≤ '5' && d.isDigit
  | _ => false

/-- Digits of base sixty between colons, the first of which satisfies a condition. -/
def isSexagesimal (leading : List Char → Bool) (cs : List Char) : Bool :=
  match Text.splitAt ':' cs with
  | first :: second :: rest => leading first && (second :: rest).all isSixtieth
  | _ => false

/-- Whether a plain scalar is a floating-point number. -/
def looksFloat (cs : List Char) : Bool :=
  let number := afterSign cs
  let whole := number.takeWhile (· != '.')
  match number.dropWhile (· != '.') with
  | '.' :: fraction =>
    (isDigits whole && isFraction fraction) ||
      (whole.isEmpty && number == cs && fraction.head?.any Char.isDigit && isFraction fraction) ||
      (isSexagesimal isDigits whole && fraction.all isDigitOrGroup) ||
      (whole.isEmpty && ["inf".toList, "Inf".toList, "INF".toList].contains fraction) ||
      (whole.isEmpty && number == cs &&
        ["nan".toList, "NaN".toList, "NAN".toList].contains fraction)
  | _ => false

/-- Characters of a class, at least one. -/
def isRun (p : Char → Bool) (cs : List Char) : Bool :=
  !cs.isEmpty && cs.all p

/-- Whether a plain scalar is an integer. -/
def looksInt (cs : List Char) : Bool :=
  let number := afterSign cs
  match number with
  | ['0'] => true
  | '0' :: 'b' :: digits => isRun (fun c => c == '0' || c == '1' || c == '_') digits
  | '0' :: 'x' :: digits =>
    isRun (fun c => isDigitOrGroup c || ('a' ≤ c && c ≤ 'f') || ('A' ≤ c && c ≤ 'F')) digits
  | '0' :: digits => isRun (fun c => ('0' ≤ c && c ≤ '7') || c == '_') digits
  | number => isPositive number || isSexagesimal isPositive number

def flags : List String :=
  ["yes", "Yes", "YES", "no", "No", "NO", "true", "True", "TRUE", "false", "False", "FALSE",
    "on", "On", "ON", "off", "Off", "OFF"]

def nulls : List String :=
  ["", "~", "null", "Null", "NULL"]

/-- The tag of a plain scalar. -/
def ofPlain (text : String) : Tag :=
  let cs := text.toList
  if flags.contains text then bool
  else if looksFloat cs then float
  else if looksInt cs then int
  else if text == "<<" then merge
  else if nulls.contains text then null
  else if text == "=" then defaultValue
  else str

example : ofPlain "1_000" = int := by decide +kernel
example : ofPlain "1e5" = str := by decide +kernel
example : ofPlain "1.5e+5" = float := by decide +kernel
example : ofPlain "190:20:30" = int := by decide +kernel
example : ofPlain "-.inf" = float := by decide +kernel
example : ofPlain "0o7" = str := by decide +kernel

end Tag

end Yaml

end StrictEquality
