import StrictEquality.Descriptor

/-!
# Comparisons

The binary comparisons of a file, with the inferred types of their operands.

## Main definitions

- `Span` — a byte range
- `Comparison` — one comparison
- `Comparison.gap` — the range between the operands
-/

namespace StrictEquality

/-- The bytes from `start` up to but not including `stop`. -/
structure Span where
  start : Int
  stop : Int
  deriving DecidableEq, Repr

/-- One binary comparison. An unknown operand type is absent. A virtual comparison
has no source text. -/
structure Comparison where
  operator : String
  left : Span
  right : Span
  whole : Span
  leftType : Option TypeDescriptor := none
  rightType : Option TypeDescriptor := none
  isVirtual : Bool := false
  deriving DecidableEq

namespace Comparison

/-- The range between the operands, white space included. -/
def gap (c : Comparison) : Span :=
  { start := c.left.stop, stop := c.right.start }

end Comparison

end StrictEquality
