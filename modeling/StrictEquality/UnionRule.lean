import StrictEquality.Atomic

/-!
# Compatibility of unions

Two rules for operands of which at least one has several members. Each walks over
the members in the order of declaration and keeps a small state.

## Main definitions

- `DominantScan` — the widest member so far, and whether all members relate to it
- `StringScan` — whether all members are strings, and whether one is non-empty
- `homogeneousCompatible`, `nullableStringCompatible` — the two rules
- `unionCompatible` — whether either rule accepts either order
-/

namespace StrictEquality

/-- The state of the walk that looks for one dominant member. -/
structure DominantScan where
  /-- The widest member so far, none before the first. -/
  dominant : Option Atomic := none
  /-- False once a member is unrelated to the dominant one. -/
  uniform : Bool := true
  deriving DecidableEq, Repr

namespace DominantScan

/-- Take in one more member. A walk that met an unrelated member stays as it is. -/
def widen (state : DominantScan) (member : Atomic) : DominantScan :=
  if !state.uniform then state
  else
    match state.dominant with
    | none => { dominant := some member }
    | some d =>
      if member.isA d then state
      else if d.isA member then { dominant := some member }
      else { dominant := some d, uniform := false }

end DominantScan

/-- Walk over the members from a given state. -/
def scanDominant (members : List Atomic) (start : DominantScan := {}) : DominantScan :=
  members.foldl DominantScan.widen start

/-- Both sides collapse onto one dominant member, found on the first side, that
loose comparison does not look into. -/
def homogeneousCompatible (first second : List Atomic) : Bool :=
  let state := scanDominant first
  match state.dominant with
  | some d => state.uniform && !d.isTooComplicated && (scanDominant second state).uniform
  | none => false

/-- The state of the walk that looks for strings only. -/
structure StringScan where
  /-- False once a member is not a string. -/
  stringOnly : Bool := true
  /-- A non-empty string was seen, which admits null on the other side. -/
  withNull : Bool := false
  deriving DecidableEq, Repr

namespace StringScan

/-- Take in one more member. A walk that met another type stays as it is. -/
def step (state : StringScan) (member : Atomic) : StringScan :=
  if !state.stringOnly then state
  else
    match member.kind with
    | .nonEmptyString => { withNull := true }
    | .string => state
    | _ => { state with stringOnly := false }

end StringScan

/-- Walk over the members. -/
def scanStrings (members : List Atomic) : StringScan :=
  members.foldl StringScan.step {}

/-- Whether a member compares with every string as strict comparison does. -/
def isStringSafe (withNull : Bool) (member : Atomic) : Bool :=
  match member.kind with
  | .null => withNull
  | .callable | .resource | .closedResource => true
  | _ => member.isStringLike || member.isTooComplicated

/-- The first side has strings only, and each member of the second side is safe
against strings. -/
def nullableStringCompatible (first second : List Atomic) : Bool :=
  let state := scanStrings first
  state.stringOnly && second.all (isStringSafe state.withNull)

/-- Whether either rule accepts the operands in this order. -/
def unionCompatibleOrdered (first second : List Atomic) : Bool :=
  homogeneousCompatible first second || nullableStringCompatible first second

/-- Whether either rule accepts the operands in either order. -/
def unionCompatible (first second : List Atomic) : Bool :=
  unionCompatibleOrdered first second || unionCompatibleOrdered second first

end StrictEquality
