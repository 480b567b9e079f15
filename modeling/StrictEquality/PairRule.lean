import StrictEquality.Atomic
import StrictEquality.Polarity

/-!
# Pairwise compatibility

Rules for comparing two operands of one member each. A rule looks at an ordered
pair and finds it safe, unsafe, or has no opinion; in a table of rules the first
opinion decides.

## Main definitions

- `PairRule` — a named rule
- `scalarRules`, `latticeRules`, `conservativeRules` — the built-in tables
- `compatibleOrdered` — the verdict of a table on one order of the operands
- `compatible` — whether a table accepts either order

## Design notes

A rule comes to an answer on every pair, of which one is to have no opinion. One that
fails on some pairs is not represented.
-/

namespace StrictEquality

/-- A rule that may have an opinion on an ordered pair: safe, unsafe or none. -/
structure PairRule where
  name : String
  opinion : Atomic → Atomic → Option Bool

namespace PairRule

/-- An opinion that is either "safe" or missing. -/
def safeWhen (holds : Bool) : Option Bool :=
  if holds then some true else none

/-- Two strings: numeric strings are converted on both sides alike. -/
def sameString : PairRule where
  name := "same_string"
  opinion a b := safeWhen (a.isStringLike && b.isStringLike)

/-- Two scalars of one kind. -/
def sameScalar (name : String) (kind : Kind) : PairRule where
  name := name
  opinion a b := safeWhen (a.kind == kind && b.kind == kind)

def sameInt : PairRule := sameScalar "same_int" .int

def sameFloat : PairRule := sameScalar "same_float" .float

def sameBool : PairRule := sameScalar "same_bool" .bool

/-- Array-like operands of which one is a special case of the other. -/
def structuralLattice : PairRule where
  name := "structural_lattice"
  opinion a b :=
    safeWhen (a.kind.isStructural && b.kind.isStructural && (a.isA b || b.isA a))

/-- An object of any class and an object, or two objects of named classes. -/
def objectLattice : PairRule where
  name := "object_lattice"
  opinion a b :=
    safeWhen ((a.kind == .object && (b.kind == .object || b.kind == .namedObject)) ||
      (a.kind == .namedObject && b.kind == .namedObject))

/-- Arrays and objects are trusted against strings only. -/
def tooComplicatedGuard : PairRule where
  name := "too_complicated_guard"
  opinion a b := if a.isTooComplicated then some b.isStringLike else none

/-- The first operand is a special case of the second. -/
def sameOrParent : PairRule where
  name := "same_or_parent"
  opinion a b := safeWhen (a.isA b)

/-- The built-in rules. -/
def all : List PairRule :=
  [sameString, sameInt, sameFloat, sameBool, structuralLattice, objectLattice,
    tooComplicatedGuard, sameOrParent]

/-- The built-in rule with a name. -/
def ofName? (name : String) : Option PairRule :=
  all.find? (fun r => r.name == name)

end PairRule

open PairRule

def scalarRules : List PairRule :=
  [sameString, sameInt, sameFloat, sameBool]

/-- Scalars, then the lattices of arrays and objects, then the guard. -/
def latticeRules : List PairRule :=
  scalarRules ++ [structuralLattice, objectLattice, tooComplicatedGuard, sameOrParent]

/-- Scalars, then the guard: two arrays or two objects are never accepted. -/
def conservativeRules : List PairRule :=
  scalarRules ++ [tooComplicatedGuard, sameOrParent]

/-- The first opinion in a table; without one the pair is unsafe. -/
def compatibleOrdered (rules : List PairRule) (first second : Atomic) : Bool :=
  (rules.findSome? (fun r => r.opinion first second)).getD false

/-- Whether a table accepts two operands in either order. -/
def compatible (rules : List PairRule) (first second : Atomic) : Bool :=
  compatibleOrdered rules first second || compatibleOrdered rules second first

end StrictEquality
