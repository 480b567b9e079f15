import StrictEquality.Number.Binary64

/-!
# Decimal text of floating-point numbers

Reading a decimal numeral gives the nearest number; writing a number gives the
fewest digits that read back as the same number, the nearest of those.

## Main definitions

- `Decimal` — a numeral `± digits * 10 ^ exponent`
- `Decimal.toBinary64` — the number it stands for, rounded
- `Decimal.shortest?` — the numeral with the fewest digits that rounds to a number
- `Binary64.text` — the written form of a number

## Design notes

A grid of `10 ^ g` has a point in the interval of reals that round to a number
only if one of the two neighbours of the number on that grid lies in it. So it
is enough to try those two for each grid, from the widest to the narrowest.
-/

namespace StrictEquality

/-- A decimal numeral `± digits * 10 ^ exponent`. -/
structure Decimal where
  negative : Bool
  digits : Nat
  exponent : Int
  deriving DecidableEq, Repr

namespace Decimal

def tenTo (n : Nat) : Nat :=
  Nat.pow 10 n

/-- How many decimal digits a number has; zero has one. -/
def digitCount (n : Nat) : Nat :=
  (Nat.toDigits 10 n).length

/-- The nearest floating-point number. Exponents far out of range are settled
without computing the power. -/
def toBinary64 (d : Decimal) : Binary64 :=
  if d.digits = 0 then .finite d.negative 0 Binary64.minExponent
  else
    let magnitude := d.exponent + digitCount d.digits
    if 400 < magnitude then .infinity d.negative
    else if magnitude < -400 then .finite d.negative 0 Binary64.minExponent
    else .ofRatio d.negative (d.digits * tenTo d.exponent.toNat) (tenTo (-d.exponent).toNat)

/-- The reals that round to `mantissa * 2 ^ exponent`, as numerators over a
common denominator: lower end, the number itself, upper end, denominator. -/
def interval (mantissa : Nat) (exponent : Int) : Nat × Nat × Nat × Nat :=
  let up := Binary64.twoTo exponent.toNat
  let den := 4 * Binary64.twoTo (-exponent).toNat
  let below :=
    if mantissa = Binary64.twoTo 52 && Binary64.minExponent < exponent then 1 else 2
  ((4 * mantissa - below) * up, 4 * mantissa * up, (4 * mantissa + 2) * up, den)

/-- The least `k` from `start` on with `num * 10 ^ k` at least `den`. -/
def leadingZeros (num den : Nat) : Nat → Nat → Nat
  | 0, k => k
  | fuel + 1, k => if den ≤ num * tenTo k then k else leadingZeros num den fuel (k + 1)

/-- The exponent of the leading decimal digit of a positive fraction. -/
def leadingExponent (num den : Nat) : Int :=
  if den ≤ num then (digitCount (num / den) : Int) - 1
  else -(leadingZeros num den 400 1 : Int)

/-- The point of the grid of `10 ^ g` that lies in the interval and is nearest to
the number, as a multiple of the grid width. -/
def gridPoint? (mantissa : Nat) (exponent : Int) (g : Int) : Option Nat :=
  let (low, mid, high, den) := interval mantissa exponent
  let up := tenTo (-g).toNat
  let unit := den * tenTo g.toNat
  let inside (k : Nat) : Bool :=
    let x := k * unit
    if mantissa % 2 = 0 then low * up ≤ x && x ≤ high * up else low * up < x && x < high * up
  let below := mid * up / unit
  let rest := mid * up % unit
  match inside below, inside (below + 1) with
  | true, true =>
    if 2 * rest < unit then some below
    else if unit < 2 * rest then some (below + 1)
    else some (below + below % 2)
  | true, false => some below
  | false, true => some (below + 1)
  | false, false => none

/-- The first grid with a point in the interval, from the widest on. -/
def firstGrid (mantissa : Nat) (exponent : Int) : Nat → Int → Option (Nat × Int)
  | 0, _ => none
  | fuel + 1, g =>
    match gridPoint? mantissa exponent g with
    | some k => if k = 0 then firstGrid mantissa exponent fuel (g - 1) else some (k, g)
    | none => firstGrid mantissa exponent fuel (g - 1)

/-- Move trailing zero digits into the exponent. -/
def normalize : Nat → Nat × Int → Nat × Int
  | 0, d => d
  | fuel + 1, (k, g) => if k % 10 = 0 && k != 0 then normalize fuel (k / 10, g + 1) else (k, g)

/-- The digits and exponent of the shortest numeral for a positive finite number. -/
def shortest (mantissa : Nat) (exponent : Int) : Nat × Int :=
  let (_, mid, _, den) := interval mantissa exponent
  match firstGrid mantissa exponent 20 (leadingExponent mid den + 1) with
  | some d => normalize 20 d
  | none => (0, 0)

end Decimal

namespace Binary64

/-- Zeros to fill up a numeral. -/
def zeros (n : Nat) : String :=
  String.ofList (List.replicate n '0')

/-- The written form of a positive number with the given digits, whose first digit
has the given exponent. Exponents from -4 to 15 are written positionally, always
with a fraction; any other in scientific notation, with a sign and at least two
digits in the exponent. -/
def layout (digits : String) (lead : Int) : String :=
  let n := digits.length
  if -4 ≤ lead ∧ lead < 16 then
    if lead < 0 then "0." ++ zeros (-lead - 1).toNat ++ digits
    else
      let whole := lead.toNat + 1
      if n ≤ whole then digits ++ zeros (whole - n) ++ ".0"
      else String.ofList (digits.toList.take whole) ++ "." ++
        String.ofList (digits.toList.drop whole)
  else
    let fraction := String.ofList (digits.toList.drop 1)
    let power := toString lead.natAbs
    String.ofList (digits.toList.take 1) ++ (if fraction = "" then "" else "." ++ fraction) ++
      (if lead < 0 then "e-" else "e+") ++ (if power.length < 2 then "0" ++ power else power)

/-- The written form of a number. -/
def text : Binary64 → String
  | nan => "nan"
  | infinity s => if s then "-inf" else "inf"
  | finite s m e =>
    let sign := if s then "-" else ""
    if m = 0 then sign ++ "0.0"
    else
      let (k, g) := Decimal.shortest m e
      let digits := toString k
      sign ++ layout digits (g + digits.length - 1)

end Binary64

end StrictEquality
