import StrictEquality.Decision
import StrictEquality.Proofs.UnionWalk

/-!
# The verdict of the lattice policy

The lattice policy decides pairs by a table of rules and unions by two walks. Both
come down to conditions on the kinds that occur on each side, in which neither the
order of the members nor repetitions play a part.

## Main definitions

- `Kind.SafePair` — the pairs of kinds that the table accepts
- `OnePair` — each side has one distinct member, and the table accepts the two
- `OneFamily`, `StringsAgainst` — the unions that the walks accept

Main statement: `evaluate_lattice_isSafe_iff`.
-/

namespace StrictEquality

namespace Kind

/-- The kinds that are a family of their own and that loose comparison does not look
into. -/
def plain : List Kind := [int, float, bool, null, callable, resource, closedResource]

/-- Two strings, two values of one plain kind, two arrays, two objects, or an array or
an object with a string on either side. -/
def SafePair (k l : Kind) : Prop :=
  (k ∈ strings ∧ l ∈ strings) ∨ (k = l ∧ k ∈ plain) ∨ (k ∈ arrays ∧ l ∈ arrays) ∨
    (k ∈ objects ∧ l ∈ objects) ∨ (k ∈ arrays ++ objects ∧ l ∈ strings) ∨
    (k ∈ strings ∧ l ∈ arrays ++ objects)

instance (k l : Kind) : Decidable (SafePair k l) :=
  inferInstanceAs (Decidable (_ ∨ _))

end Kind

open Kind

/-- The table of the lattice policy reads the kinds only. -/
theorem compatible_latticeRules_iff (a b : Atomic) :
    compatible latticeRules a b = true ↔ SafePair a.kind b.kind := by
  have hkinds : compatible latticeRules a b =
      compatible latticeRules { kind := a.kind } { kind := b.kind } := rfl
  rw [hkinds]
  generalize a.kind = k
  generalize b.kind = l
  cases k <;> cases l <;> decide

/-- Each side has one distinct member, and the table accepts the two. -/
def OnePair (l r : List Atomic) : Prop :=
  ∃ a b : Atomic, (∀ x ∈ l, x = a) ∧ (∀ y ∈ r, y = b) ∧ SafePair a.kind b.kind

/-- At least two distinct members occur. -/
def HasDistinct (l : List Atomic) : Prop :=
  ∃ x ∈ l, ∃ y ∈ l, x ≠ y

/-- Without two distinct members there is one that all are equal to. -/
theorem hasDistinct_iff_not_single (t : TypeDescriptor) :
    HasDistinct t.members ↔ ¬ t.isSingle = true := by
  rw [TypeDescriptor.isSingle_iff]
  constructor
  · rintro ⟨x, hx, y, hy, hne⟩ ⟨a, hall⟩
    exact hne ((hall x hx).trans (hall y hy).symm)
  · intro h
    by_contra hnone
    refine h ⟨t.single, fun x hx => ?_⟩
    by_contra hne
    exact hnone ⟨x, hx, t.single, t.single_mem, hne⟩

/-- The lattice policy accepts two types of one member each as the table does, and
others as the walks do. -/
theorem isCompatible_lattice_iff (left right : TypeDescriptor) (p : Polarity) :
    Decision.isCompatible .lattice left right p = true ↔
      OnePair left.members right.members ∨
        (HasDistinct left.members ∨ HasDistinct right.members) ∧
          (OneFamily left.members right.members ∨ StringsAgainst left.members right.members ∨
            StringsAgainst right.members left.members) := by
  rw [hasDistinct_iff_not_single, hasDistinct_iff_not_single]
  unfold Decision.isCompatible
  by_cases hsingle : left.isSingle = true ∧ right.isSingle = true
  · obtain ⟨a, ha⟩ := left.isSingle_iff.mp hsingle.1
    obtain ⟨b, hb⟩ := right.isSingle_iff.mp hsingle.2
    have hpair : OnePair left.members right.members ↔ SafePair a.kind b.kind := by
      constructor
      · rintro ⟨a', b', ha', hb', hsafe⟩
        obtain rfl : a' = a := (ha' _ left.single_mem).symm.trans (ha _ left.single_mem)
        obtain rfl : b' = b := (hb' _ right.single_mem).symm.trans (hb _ right.single_mem)
        exact hsafe
      · intro hsafe
        exact ⟨a, b, ha, hb, hsafe⟩
    rw [if_pos (by simp [hsingle]), hpair, ha _ left.single_mem, hb _ right.single_mem]
    simp [hsingle, Policy.lattice, Policy.compatible, compatible_latticeRules_iff]
  · have hpair : ¬ OnePair left.members right.members := by
      rintro ⟨a, b, ha, hb, _⟩
      exact hsingle ⟨left.isSingle_iff.mpr ⟨a, ha⟩, right.isSingle_iff.mpr ⟨b, hb⟩⟩
    have hdistinct : ¬ left.isSingle = true ∨ ¬ right.isSingle = true := by
      rwa [← not_and_or]
    rw [if_neg (by simpa using hsingle)]
    have hunion := unionCompatible_iff left.members_ne_nil right.members_ne_nil
    simp only [hpair, false_or, hdistinct, true_and]
    exact hunion

/-- **Exact verdict of the lattice policy.** A comparison is rewritten when no type is
merely annotated, unless annotations are trusted, and the members of the two sides are
an accepted pair, or several members that the walks accept. -/
theorem evaluate_lattice_isSafe_iff {l r : List Atomic} (hl : l ≠ []) (hr : r ≠ [])
    (pl pr : Provenance) (allowAnnotated : Bool) (p : Polarity) :
    (Decision.evaluate .lattice allowAnnotated (.ofNonempty l hl pl) (.ofNonempty r hr pr)
        p).isSafe = true ↔
      (allowAnnotated = true ∨ (pl ≠ .annotated ∧ pr ≠ .annotated)) ∧
        (OnePair l r ∨
          (HasDistinct l ∨ HasDistinct r) ∧
            (OneFamily l r ∨ StringsAgainst l r ∨ StringsAgainst r l)) := by
  have hgate : (!Decision.isRefused allowAnnotated (.ofNonempty l hl pl)
      (.ofNonempty r hr pr)) = true ↔
        allowAnnotated = true ∨ (pl ≠ .annotated ∧ pr ≠ .annotated) := by
    cases allowAnnotated <;> cases pl <;> cases pr <;> simp [Decision.isRefused]
  rw [Decision.isSafe_evaluate, Bool.and_eq_true, isCompatible_lattice_iff, hgate]
  simp only [OnePair, HasDistinct, OneFamily, StringsAgainst, List.mem_append,
    TypeDescriptor.mem_members_ofNonempty]

/-- Annotated strings, one of them non-empty, against null and a keyed array: the
comparison is rewritten once annotations are trusted. -/
theorem evaluate_lattice_isSafe_nullable :
    let l : List Atomic := [{ kind := .string }, { kind := .nonEmptyString }, { kind := .string }]
    let r : List Atomic := [{ kind := .null }, { kind := .keyedArray, shape := "array{id: int}" }]
    ∃ (hl : l ≠ []) (hr : r ≠ []),
      (Decision.evaluate .lattice true (.ofNonempty l hl .annotated) (.ofNonempty r hr .inferred)
        .notEqual).isSafe = true := by
  intro l r
  have hl : l ≠ [] := by simp [l]
  have hr : r ≠ [] := by simp [r]
  have hdistinct : HasDistinct l :=
    ⟨{ kind := .string }, by simp [l], { kind := .nonEmptyString }, by simp [l], by decide⟩
  have hstrings : StringsAgainst l r := by simp [StringsAgainst, l, r, strings, arrays]
  refine ⟨hl, hr, ?_⟩
  exact (evaluate_lattice_isSafe_iff hl hr .annotated .inferred true .notEqual).mpr
    ⟨Or.inl rfl, Or.inr ⟨Or.inl hdistinct, Or.inr (Or.inl hstrings)⟩⟩

end StrictEquality
