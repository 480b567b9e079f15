import StrictEquality.Report

/-!
# Text edits

Replacements of byte ranges of a source file, and the choice of edits that can be
applied together.

## Main definitions

- `Edit` — a replacement of one range
- `Edit.overlaps` — whether two edits touch a common byte
- `Edit.sort` — the order of the ranges in the file
- `Edit.select`, `Edit.skipped` — the edits that are kept, and the others
- `Edit.collect` — sort, keep what does not overlap, log the rest
-/

namespace StrictEquality

/-- The replacement of the bytes from `start` up to but not including `stop`. -/
structure Edit where
  start : Int
  stop : Int
  replacement : String
  deriving DecidableEq, Repr

namespace Edit

def overlaps (a b : Edit) : Bool :=
  a.start < b.stop && b.start < a.stop

/-- Whether an edit comes before another or at the same range. -/
def before (a b : Edit) : Bool :=
  a.start < b.start || (a.start == b.start && a.stop ≤ b.stop)

/-- The edits in the order of their ranges; edits of one range stay in their order. -/
def sort (edits : List Edit) : List Edit :=
  edits.mergeSort before

def clashes (last : Option Edit) (e : Edit) : Bool :=
  last.any (fun a => a.overlaps e)

/-- The edits that do not overlap the last one kept before them. -/
def select (last : Option Edit) : List Edit → List Edit
  | [] => []
  | e :: rest => if clashes last e then select last rest else e :: select (some e) rest

/-- The edits that overlap the last one kept before them. -/
def skipped (last : Option Edit) : List Edit → List Edit
  | [] => []
  | e :: rest => if clashes last e then e :: skipped last rest else skipped (some e) rest

/-- The edits to apply, in the order of the file. -/
def accepted (edits : List Edit) : List Edit :=
  select none (sort edits)

/-- The edits to apply; those that overlap an earlier one are logged. -/
def collect (edits : List Edit) : Report (List Edit) :=
  { log := (skipped none (sort edits)).map (fun e => .editSkipped e.start e.stop)
    outcome := .ok (accepted edits) }

end Edit

end StrictEquality
