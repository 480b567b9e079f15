import StrictEquality.Kind

/-!
# Atomic types

One shape an operand may have: a kind, with the key shape of a keyed array or the
class name of an object where these are known.

## Main definitions

- `Atomic` — the atomic types
- `Atomic.text` — how messages show one
- `Atomic.isA` — the order of the kinds, carried over
-/

namespace StrictEquality

/-- One shape an operand may have. The key shape and the class name tell atomic
types apart but play no part in the order. -/
structure Atomic where
  kind : Kind
  shape : Option String := none
  className : Option String := none
  deriving DecidableEq, Repr

namespace Atomic

/-- The text of an optional field, unless it is absent or empty. -/
def shown? : Option String → Option String
  | some s => if s = "" then none else some s
  | none => none

/-- How messages show an atomic type: by its class name or key shape if it has
one, by its kind otherwise. -/
def text (a : Atomic) : String :=
  match a.kind with
  | .namedObject => (shown? a.className).getD a.kind.name
  | .keyedArray => (shown? a.shape).getD a.kind.name
  | k => k.name

/-- Whether the first type has the kind of the second or a special case of it. -/
def isA (first second : Atomic) : Bool :=
  first.kind.isA second.kind

/-- Whether loose comparison looks inside the operand. -/
def isTooComplicated (a : Atomic) : Bool :=
  a.kind.isTooComplicated

def isStringLike (a : Atomic) : Bool :=
  a.kind.isStringLike

end Atomic

end StrictEquality
