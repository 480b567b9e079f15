import StrictEquality.UnionRule

/-!
# Chains of kinds

The order of the kinds is a union of chains. Each chain has a widest kind, and two
kinds are related one way or the other when their chains have the same widest
kind. So "related" is an equivalence, which it is not in every order.

## Main definitions

- `Kind.widest` — the widest kind above a kind
- `Kind.strings`, `Kind.arrays`, `Kind.objects` — the chains of several kinds
- `Kind.plainFamilies` — the chains that loose comparison does not look into
-/

namespace StrictEquality

namespace Kind

/-- The widest kind above a kind. -/
def widest : Kind → Kind
  | nonEmptyString => string
  | array | keyedArray | list => iterable
  | namedObject => object
  | k => k

def strings : List Kind := [string, nonEmptyString]

def arrays : List Kind := [array, keyedArray, list, iterable]

def objects : List Kind := [object, namedObject]

/-- The families of kinds that loose comparison does not look into. -/
def plainFamilies : List (List Kind) :=
  [strings, [int], [float], [bool], [null], [callable], [resource], [closedResource]]

/-- Two kinds are related when they lie in one chain. -/
theorem isA_or_isA_iff (k l : Kind) : (k.isA l = true ∨ l.isA k = true) ↔ k.widest = l.widest := by
  cases k <;> cases l <;> decide

theorem isA_trans {k l m : Kind} (hkl : k.isA l = true) (hlm : l.isA m = true) :
    k.isA m = true := by
  have hall : ∀ k ∈ all, ∀ l ∈ all, k.isA l = true → ∀ m ∈ all, l.isA m = true →
      k.isA m = true := by
    decide
  exact hall k (mem_all k) l (mem_all l) hkl m (mem_all m) hlm

theorem isA_antisymm {k l : Kind} (hkl : k.isA l = true) (hlk : l.isA k = true) : k = l := by
  revert hkl hlk
  cases k <;> cases l <;> decide

theorem widest_eq_of_isA {k l : Kind} (h : k.isA l = true) : k.widest = l.widest :=
  (isA_or_isA_iff k l).mp (Or.inl h)

theorem isTooComplicated_widest (k : Kind) : k.widest.isTooComplicated = k.isTooComplicated := by
  cases k <;> rfl

theorem isStringLike_iff (k : Kind) : k.isStringLike = true ↔ k ∈ strings := by
  cases k <;> decide

/-- A chain that loose comparison does not look into lies in a plain family. -/
theorem exists_plainFamily {k : Kind} (h : k.isTooComplicated = false) :
    ∃ family ∈ plainFamilies, ∀ l : Kind, l.widest = k → l ∈ family := by
  have hall : ∃ family ∈ plainFamilies, ∀ l ∈ all, l.widest = k → l ∈ family := by
    revert h
    cases k <;> decide
  obtain ⟨family, hmem, hchain⟩ := hall
  exact ⟨family, hmem, fun l => hchain l (mem_all l)⟩

theorem exists_widest_of_plainFamily {family : List Kind} (h : family ∈ plainFamilies) :
    ∃ k : Kind, k.isTooComplicated = false ∧ ∀ l ∈ family, l.widest = k := by
  have hall : ∀ family ∈ plainFamilies,
      ∃ k ∈ all, k.isTooComplicated = false ∧ ∀ l ∈ family, l.widest = k := by
    decide
  obtain ⟨k, _, hk⟩ := hall family h
  exact ⟨k, hk⟩

end Kind

end StrictEquality
