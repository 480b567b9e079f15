import StrictEquality.Fault
import StrictEquality.Number.Decimal
import StrictEquality.Text.Blank
import StrictEquality.Text.Lines

/-!
# Numbers in scalars

The numbers that scalars stand for. Underscores group digits and mean nothing. An
integer may be written in base 2, 8, 10, 16 or 60, a floating-point number in base
10 or 60. Where the tag is written the text may be any, and is refused here if it
is no number.

## Main definitions

- `integer` — the integer that a text stands for
- `real` — the floating-point number that a text stands for
-/

namespace StrictEquality

namespace Yaml

/-- How many decimal digits an integer may have. -/
def maxIntegerDigits : Nat := 4300

/-- The value of a digit in a base up to 16. -/
def digitIn? (base : Nat) (c : Char) : Option Nat :=
  let value :=
    if c.isDigit then some (c.toNat - 48)
    else if 'a' ≤ c && c ≤ 'f' then some (c.toNat - 87)
    else if 'A' ≤ c && c ≤ 'F' then some (c.toNat - 55)
    else none
  value.filter (· < base)

/-- The number that digits of a base stand for. There has to be one digit at least,
and in base 10 there is a limit to their number. -/
def naturalIn? (base : Nat) (cs : List Char) : Option Nat :=
  if cs.isEmpty || (base == 10 && maxIntegerDigits < cs.length) then none
  else cs.foldlM (fun n c => (digitIn? base c).map (base * n + ·)) 0

/-- The letter that marks a base after a zero. -/
def baseLetter? (base : Nat) : Option Char :=
  match base with
  | 2 => some 'b'
  | 8 => some 'o'
  | 16 => some 'x'
  | _ => none

/-- The text without the mark of a base. -/
def dropBaseMark (base : Nat) (cs : List Char) : List Char :=
  match cs with
  | '0' :: c :: rest => if baseLetter? base == some c.toLower then rest else cs
  | _ => cs

/-- A sign and the text after it. -/
def splitSign (cs : List Char) : Bool × List Char :=
  match cs with
  | '-' :: rest => (true, rest)
  | '+' :: rest => (false, rest)
  | rest => (false, rest)

/-- The integer that a text stands for in a base: between blanks a sign, a mark of the
base and digits. -/
def integerIn (base : Nat) (cs : List Char) : Except Fault Int :=
  let (negative, digits) := splitSign (Text.trim cs)
  match naturalIn? base (dropBaseMark base digits) with
  | some n => .ok (if negative then -(n : Int) else n)
  | none => .error (.wrongValue "an integer")

def ungroup (cs : List Char) : List Char :=
  cs.filter (· != '_')

/-- The sign at the start of a numeral, and the text after it. The numeral may not be
empty. -/
def numeral (cs : List Char) : Except Fault (Bool × List Char) :=
  if cs.isEmpty then .error .outOfRange else .ok (splitSign cs)

/-- The integer that an unsigned numeral stands for. -/
def magnitude (cs : List Char) : Except Fault Int :=
  match cs with
  | [] => .error .outOfRange
  | ['0'] => .ok 0
  | '0' :: 'b' :: digits => integerIn 2 digits
  | '0' :: 'x' :: digits => integerIn 16 digits
  | '0' :: _ => integerIn 8 cs
  | _ =>
    if cs.contains ':' then do
      let parts ← (Text.splitAt ':' cs).mapM (integerIn 10)
      return parts.foldl (fun n part => 60 * n + part) 0
    else integerIn 10 cs

def integer (text : String) : Except Fault Int := do
  let (negative, digits) ← numeral (ungroup text.toList)
  let n ← magnitude digits
  return if negative then -n else n

/-- Nothing, or an exponent. -/
def exponentOf? (cs : List Char) : Option Int :=
  match cs with
  | [] => some 0
  | e :: rest =>
    if e == 'e' then
      let (negative, digits) := splitSign rest
      if digits.isEmpty || !digits.all Char.isDigit then none
      else
        let n : Nat := digits.foldl (fun n c => 10 * n + (c.toNat - 48)) 0
        some (if negative then -(n : Int) else n)
    else none

/-- The number that a decimal fraction stands for: digits with a point among them or
not, and perhaps an exponent. -/
def decimal? (negative : Bool) (cs : List Char) : Option Binary64 :=
  let whole := cs.takeWhile Char.isDigit
  let rest := cs.dropWhile Char.isDigit
  let (fraction, rest) := match rest with
    | '.' :: more => (more.takeWhile Char.isDigit, more.dropWhile Char.isDigit)
    | more => ([], more)
  let digits := whole ++ fraction
  if digits.isEmpty then none
  else
    (exponentOf? rest).map (fun e =>
      Decimal.toBinary64
        { negative
          digits := digits.foldl (fun n c => 10 * n + (c.toNat - 48)) 0
          exponent := e - fraction.length })

/-- The number that a text in lower case stands for, between blanks and with a sign
or not. -/
def realOf (cs : List Char) : Except Fault Binary64 :=
  let (negative, number) := splitSign (Text.trim cs)
  let named := String.ofList number
  if named == "inf" || named == "infinity" then .ok (.infinity negative)
  else if named == "nan" then .ok .nan
  else
    match decimal? negative number with
    | some x => .ok x
    | none => .error (.wrongValue "a number")

/-- The sum of numbers, the last of them in units, and each one before in sixties of
those of the next. -/
def sexagesimal (parts : List Binary64) : Binary64 :=
  (parts.reverse.foldl
    (fun (acc : Binary64 × Nat) part =>
      (acc.1.add (part.mul (Binary64.ofInt acc.2)), 60 * acc.2))
    (Binary64.zero, 1)).1

/-- The floating-point number that a text stands for. -/
def real (text : String) : Except Fault Binary64 := do
  let (negative, number) ← numeral ((ungroup text.toList).map Char.toLower)
  let x ←
    if number == ".inf".toList then pure (.infinity false)
    else if number == ".nan".toList then pure .nan
    else if number.contains ':' then
      sexagesimal <$> (Text.splitAt ':' number).mapM realOf
    else realOf number
  return if negative then x.neg else x

example : (integer "-0x1F").toOption = some (-31) := by decide +kernel
example : (integer "190:20:30").toOption = some 685230 := by decide +kernel
example : (integer "017").toOption = some 15 := by decide +kernel

end Yaml

end StrictEquality
