import StrictEquality.PairRule
import StrictEquality.UnionRule
import StrictEquality.Value.Display

/-!
# Compatibility policies

A policy decides which operand types are compatible. Policies are chosen by name,
so that a project can ask for a stricter one.

## Main definitions

- `Policy` — a table of pair rules together with the union rules, or any other
  pair of tests
- `Policy.lattice`, `Policy.conservative` — the built-in policies
- `Policies` — the policies that can be chosen by name
- `Policies.get` — the policy that a configuration value names

## Design notes

A policy answers every question with yes or no. One whose tests fail on some operands,
or answer with anything else, is not represented.
-/

namespace StrictEquality

/-- A way to decide which operand types are compatible. -/
inductive Policy
  /-- A table of pair rules; unions are decided by the union rules. -/
  | table (name : String) (rules : List PairRule) (description : String)
  /-- Tests of any other kind. -/
  | custom (name : String) (pair : Polarity → Atomic → Atomic → Bool)
      (union : Polarity → List Atomic → List Atomic → Bool)

namespace Policy

def name : Policy → String
  | table name _ _ => name
  | custom name _ _ => name

/-- Whether two operands of one member each are compatible. -/
def compatible (policy : Policy) (p : Polarity) (first second : Atomic) : Bool :=
  match policy with
  | table _ rules _ => StrictEquality.compatible rules first second
  | custom _ pair _ => pair p first second

/-- Whether two operands of which one has several members are compatible. -/
def unionCompatible (policy : Policy) (p : Polarity) (first second : List Atomic) : Bool :=
  match policy with
  | table _ _ _ => StrictEquality.unionCompatible first second
  | custom _ _ union => union p first second

/-- The policy that also trusts arrays and objects of related types. -/
def lattice : Policy :=
  table "lattice" latticeRules
    "Scalars, structural and object lattices, then the too-complicated guard"

/-- The policy that trusts arrays and objects against strings only. -/
def conservative : Policy :=
  table "conservative" conservativeRules
    "Scalars, then the too-complicated guard; arrays and objects only against strings"

/-- The name of the policy used where none is chosen. -/
def defaultName : String := lattice.name

end Policy

/-- The policies that can be chosen by name, each name once. -/
abbrev Policies := List Policy

namespace Policies

/-- The policies there are before any is registered. -/
def builtin : Policies := [.lattice, .conservative]

/-- The policy with a name. -/
def find? (policies : Policies) (name : String) : Option Policy :=
  List.find? (fun p => p.name == name) policies

/-- Add a policy, in place of an earlier one of the same name. -/
def register (policies : Policies) (policy : Policy) : Policies :=
  match policies with
  | [] => [policy]
  | p :: rest => if p.name == policy.name then policy :: rest else p :: register rest policy

/-- The names, in ascending order. -/
def names (policies : Policies) : List String :=
  (policies.map Policy.name).mergeSort (fun a b => decide (a ≤ b))

/-- The policy with a name, which must be registered. -/
def named (policies : Policies) (name : String) : Except Fault Policy :=
  match policies.find? name with
  | some p => .ok p
  | none => .error (.unknownPolicy name policies.names)

/-- The policy that a configuration value names. A value that cannot be a key is
refused; any other value that is not a text names no policy. -/
def get (policies : Policies) (name : Value) : Except Fault Policy :=
  match name with
  | .text s => policies.named s
  | v =>
    if v.isKey then .error (.unknownPolicy v.plain policies.names)
    else .error (.wrongType "a key")

end Policies

end StrictEquality
