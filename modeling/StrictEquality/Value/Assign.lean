import StrictEquality.Value

/-!
# Assignment inside of values

A value inside of a list or a mapping is found and replaced by the positions and
keys that lead to it.

## Main definitions

- `Value.assign` — replace what is at the end of a path
-/

namespace StrictEquality

namespace Value

/-- The index that a position in a list of the given length means. Negative positions
count from the end. -/
def position (length : Nat) (i : Int) : Except Fault Nat :=
  let shifted := if i < 0 then i + length else i
  if 0 ≤ shifted ∧ shifted < length then .ok shifted.toNat else .error .outOfRange

/-- The index that a value means in a list of the given length. -/
def positionOf (length : Nat) (v : Value) : Except Fault Nat :=
  match v.integer? with
  | some i => position length i
  | none => .error (.wrongType "a position")

/-- Replace what is at the end of a path. Each step of the path but the last has to
lead somewhere. A new key may come at the end. -/
def assign (container : Value) (path : List Value) (v : Value) : Except Fault Value :=
  match path with
  | [] => .ok v
  | step :: rest =>
    match container with
    | list items => do
      let n ← positionOf items.length step
      let item ← assign (items.getD n null) rest v
      return list (items.set n item)
    | map entries => do
      let key ← Entries.key? step
      match Entries.find? entries key, rest with
      | none, [] => return map (Entries.insert entries key v)
      | none, _ :: _ => .error .missingKey
      | some inner, rest =>
        let inner ← assign inner rest v
        return map (Entries.insert entries key inner)
    | _ => .error (.wrongType "a list or a mapping")

end Value

end StrictEquality
