import StrictEquality.Fault

/-!
# Atomic type kinds

The closed set of kinds that operand types are made of, and the partial order in
which one kind is a special case of another.

## Main definitions

- `Kind` — the kinds
- `Kind.isA` — the order, read as "is the same kind or a special case of"
- `Kind.isStructural`, `Kind.isTooComplicated`, `Kind.isStringLike` — the classes
  of kinds that the rules treat alike

## Design notes

The order is given by the list of ancestors of each kind. It is a union of
chains: the ancestors of a kind are comparable with each other.
-/

namespace StrictEquality

/-- The kinds that types are made of. -/
inductive Kind
  | string
  | nonEmptyString
  | int
  | float
  | bool
  | null
  | array
  | keyedArray
  | list
  | iterable
  | object
  | namedObject
  | callable
  | resource
  | closedResource
  deriving DecidableEq, Repr

namespace Kind

/-- All kinds, in the order of their declaration. -/
def all : List Kind :=
  [string, nonEmptyString, int, float, bool, null, array, keyedArray, list, iterable, object,
    namedObject, callable, resource, closedResource]

def name : Kind → String
  | string => "string"
  | nonEmptyString => "non-empty-string"
  | int => "int"
  | float => "float"
  | bool => "bool"
  | null => "null"
  | array => "array"
  | keyedArray => "keyed-array"
  | list => "list"
  | iterable => "iterable"
  | object => "object"
  | namedObject => "named-object"
  | callable => "callable"
  | resource => "resource"
  | closedResource => "closed-resource"

def ofName? (s : String) : Except Fault Kind :=
  match all.find? (fun k => k.name == s) with
  | some k => .ok k
  | none => .error (.unknownKind s)

/-- A kind and all kinds above it. -/
def ancestors : Kind → List Kind
  | nonEmptyString => [nonEmptyString, string]
  | keyedArray => [keyedArray, list, array, iterable]
  | list => [list, array, iterable]
  | array => [array, iterable]
  | namedObject => [namedObject, object]
  | k => [k]

/-- Whether the first kind is the second or a special case of it. -/
def isA (first second : Kind) : Bool :=
  first.ancestors.contains second

/-- Arrays and what can be iterated like them. -/
def isStructural : Kind → Bool
  | array | keyedArray | list | iterable => true
  | _ => false

/-- Kinds whose loose comparison looks inside the operands. -/
def isTooComplicated : Kind → Bool
  | object | namedObject => true
  | k => k.isStructural

/-- Strings, empty or not. -/
def isStringLike (k : Kind) : Bool :=
  k.isA string

theorem mem_all (k : Kind) : k ∈ all := by
  cases k <;> decide

theorem isA_refl (k : Kind) : k.isA k = true := by
  cases k <;> decide

/-- The name of a kind leads back to it. -/
theorem ofName?_name (k : Kind) : ofName? k.name = .ok k := by
  cases k <;> rfl

end Kind

end StrictEquality
