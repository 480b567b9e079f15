/-!
# Binary floating-point numbers of 64 bits

A number is kept as the exact value it stands for, an integer mantissa times a
power of two, so that comparing, rounding and printing need integers only.

## Main definitions

- `Binary64` — not a number, an infinity, or `± mantissa * 2 ^ exponent`
- `Binary64.ofRatio` — the number nearest to a fraction, a tie going to the even
  mantissa
- `Binary64.add`, `Binary64.mul` — rounded sum and product
- `Binary64.compareInt?`, `Binary64.compare?` — order against an integer or another
  number

## Design notes

A finite number is normal: its mantissa has 53 bits, or the exponent is the
least one, -1074. `ofRatio` produces normal numbers only, so equality of finite
numbers other than the two zeros is equality of the three fields.
-/

namespace StrictEquality

/-- A floating-point number of 64 bits. -/
inductive Binary64
  | nan
  | infinity (negative : Bool)
  | finite (negative : Bool) (mantissa : Nat) (exponent : Int)
  deriving DecidableEq, Repr

namespace Binary64

/-- The least exponent of a finite number. -/
def minExponent : Int := -1074

/-- The greatest exponent of a finite number. -/
def maxExponent : Int := 971

def zero : Binary64 := finite false 0 minExponent

/-- The quotient of two naturals rounded to a natural, a tie going to the even
neighbour. -/
def roundDiv (num den : Nat) : Nat :=
  let q := num / den
  let r := num % den
  if 2 * r < den then q
  else if den < 2 * r then q + 1
  else q + q % 2

def twoTo (n : Nat) : Nat :=
  Nat.pow 2 n

/-- The fraction `num / den` divided by `2 ^ e`, as a fraction again. -/
def scale (num den : Nat) (e : Int) : Nat × Nat :=
  (num * twoTo (-e).toNat, den * twoTo e.toNat)

/-- The number nearest to `num / den` with the given sign. -/
def ofRatio (negative : Bool) (num den : Nat) : Binary64 :=
  if num = 0 then finite negative 0 minExponent
  else
    let guess : Int := (Nat.log2 num : Int) - (Nat.log2 den : Int) - 53
    let (n, d) := scale num den guess
    let fitted := if n / d < twoTo 53 then guess else guess + 1
    let e := max fitted minExponent
    let (n, d) := scale num den e
    let m := roundDiv n d
    let (m, e) := if m = twoTo 53 then (twoTo 52, e + 1) else (m, e)
    if maxExponent < e then infinity negative else finite negative m e

/-- The number nearest to an integer. -/
def ofInt (i : Int) : Binary64 :=
  ofRatio (i < 0) i.natAbs 1

def neg : Binary64 → Binary64
  | nan => nan
  | infinity s => infinity (!s)
  | finite s m e => finite (!s) m e

/-- The signed mantissa of a finite number. -/
def signed (negative : Bool) (mantissa : Nat) : Int :=
  if negative then -mantissa else mantissa

/-- An integer times a power of two, rounded. -/
def ofScaled (i : Int) (e : Int) : Binary64 :=
  ofRatio (i < 0) (i.natAbs * twoTo e.toNat) (twoTo (-e).toNat)

/-- The rounded sum. The sum of opposite numbers is positive zero. -/
def add : Binary64 → Binary64 → Binary64
  | nan, _ => nan
  | _, nan => nan
  | infinity s, infinity t => if s = t then infinity s else nan
  | infinity s, _ => infinity s
  | _, infinity s => infinity s
  | finite s m e, finite t n f =>
    if s && t && m = 0 && n = 0 then finite true 0 minExponent
    else
      let low := min e f
      ofScaled (signed s m * twoTo (e - low).toNat + signed t n * twoTo (f - low).toNat) low

def mul : Binary64 → Binary64 → Binary64
  | nan, _ => nan
  | _, nan => nan
  | infinity s, infinity t => infinity (s != t)
  | infinity s, finite t n _ => if n = 0 then nan else infinity (s != t)
  | finite s m _, infinity t => if m = 0 then nan else infinity (s != t)
  | finite s m e, finite t n f =>
    ofRatio (s != t) (m * n * twoTo (e + f).toNat) (twoTo (-(e + f)).toNat)

/-- Neither zero. A number that is not a number differs from zero too. -/
def isNonzero : Binary64 → Bool
  | finite _ m _ => m != 0
  | _ => true

/-- The order of a number relative to an integer, none if it has no order. -/
def compareInt? (x : Binary64) (i : Int) : Option Ordering :=
  match x with
  | nan => none
  | infinity s => some (if s then .lt else .gt)
  | finite s m e => some (compare (signed s m * twoTo e.toNat) (i * twoTo (-e).toNat))

/-- The order of two numbers, none if one of them is not a number. -/
def compare? : Binary64 → Binary64 → Option Ordering
  | nan, _ => none
  | _, nan => none
  | infinity s, infinity t => some (compare t.toNat s.toNat)
  | infinity s, finite _ _ _ => some (if s then .lt else .gt)
  | finite _ _ _, infinity t => some (if t then .gt else .lt)
  | finite s m e, finite t n f =>
    let low := min e f
    some (compare (signed s m * twoTo (e - low).toNat) (signed t n * twoTo (f - low).toNat))

/-- Equality of the values: the two zeros are equal, and nothing equals `nan`. -/
def sameValue : Binary64 → Binary64 → Bool
  | finite s m e, finite t n f => (m == 0 && n == 0) || (s == t && m == n && e == f)
  | infinity s, infinity t => s == t
  | _, _ => false

example : ofRatio false 1 10 = finite false 7205759403792794 (-56) := by decide
example : ofRatio false 9007199254740993 1 = finite false 4503599627370496 1 := by decide
example : ofInt (-3) = finite true 6755399441055744 (-51) := by decide
example : (ofInt 1).add (ofInt (-1)) = zero := by decide

end Binary64

end StrictEquality
