import StrictEquality.Value

/-!
# Order of entries

The order in which the entries of a mapping are written.

## Main definitions

- `Value.compare?` — the order of two keys, if they can be compared
- `Entries.sorted` — the entries by their keys, if all keys can be compared
-/

namespace StrictEquality

namespace Value

/-- The order of two numbers, if they are numbers. -/
def compareNumbers? : Value → Value → Option Ordering
  | float x, float y => x.compare? y
  | float x, v => v.integer?.bind x.compareInt?
  | v, float y => (v.integer?.bind y.compareInt?).map Ordering.swap
  | v, w => do return compare (← v.integer?) (← w.integer?)

/-- The order of two keys. Texts can be compared with each other, and so can
numbers. -/
def compare? : Value → Value → Option Ordering
  | text s, text t => some (compare s t)
  | v, w => compareNumbers? v w

/-- Whether one key may come before another. -/
def mayPrecede (v w : Value) : Bool :=
  compare? v w != some .gt

/-- Whether a value is a number. -/
def isNumber : Value → Bool
  | bool _ | int _ | float _ => true
  | _ => false

/-- Whether a value is a text. -/
def isString : Value → Bool
  | text _ => true
  | _ => false

end Value

namespace Entries

variable {α : Type}

/-- Whether all keys are texts, or all are numbers. -/
def isComparable (entries : List (Value × α)) : Bool :=
  entries.all (fun e => e.1.isString) || entries.all (fun e => e.1.isNumber)

/-- The entries by their keys. Where some keys cannot be compared all entries stay in
their order. -/
def sorted (entries : List (Value × α)) : List (Value × α) :=
  if isComparable entries then entries.mergeSort (fun a b => a.1.mayPrecede b.1) else entries

/-- Sorting keeps the entries. -/
theorem sorted_perm (entries : List (Value × α)) : (sorted entries).Perm entries := by
  rw [sorted]
  split
  · exact List.mergeSort_perm entries _
  · exact List.Perm.refl entries

end Entries

end StrictEquality
