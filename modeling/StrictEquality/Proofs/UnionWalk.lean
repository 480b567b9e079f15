import Mathlib.Tactic.ByContra
import StrictEquality.Proofs.KindOrder

/-!
# What the walks over a union find

Each of the two walks keeps a small state, and what it ends in does not depend on
the order of the members or on repetitions. `homogeneousCompatible_iff` and
`nullableStringCompatible_iff` say so: both rules are conditions on the kinds that
occur on each side.

## Design notes

The walk for a dominant member compares each member with the widest one so far,
not with all of them. That is enough because it never leaves a chain: the widest
kind of the chain is the invariant.
-/

namespace StrictEquality

namespace DominantScan

/-- A member of the chain of the dominant one keeps the walk in that chain. -/
theorem widen_of_widest_eq {d m : Atomic} (h : m.kind.widest = d.kind.widest) :
    ∃ d' : Atomic, widen { dominant := some d } m = { dominant := some d' } ∧
      d'.kind.widest = d.kind.widest := by
  by_cases hmd : m.isA d = true
  · exact ⟨d, by simp [widen, hmd], rfl⟩
  · have hdm : d.isA m = true := ((Kind.isA_or_isA_iff _ _).mpr h).resolve_left hmd
    exact ⟨m, by simp [widen, hmd, hdm], h⟩

theorem widen_of_widest_ne {d m : Atomic} (h : m.kind.widest ≠ d.kind.widest) :
    widen { dominant := some d } m = { dominant := some d, uniform := false } := by
  have hmd : ¬ m.isA d = true := fun hmd => h (Kind.widest_eq_of_isA hmd)
  have hdm : ¬ d.isA m = true := fun hdm => h (Kind.widest_eq_of_isA hdm).symm
  simp [widen, hmd, hdm]

end DominantScan

open DominantScan Kind

theorem scanDominant_of_not_uniform (members : List Atomic) {state : DominantScan}
    (h : state.uniform = false) : scanDominant members state = state := by
  induction members with
  | nil => rfl
  | cons m rest ih =>
    have hstep : widen state m = state := by simp [widen, h]
    rw [scanDominant, List.foldl_cons, hstep]
    exact ih

theorem scanDominant_of_widest_eq {members : List Atomic} {d : Atomic}
    (h : ∀ m ∈ members, m.kind.widest = d.kind.widest) :
    ∃ d' : Atomic, scanDominant members { dominant := some d } = { dominant := some d' } ∧
      d'.kind.widest = d.kind.widest := by
  induction members generalizing d with
  | nil => exact ⟨d, rfl, rfl⟩
  | cons m rest ih =>
    obtain ⟨hm, hrest⟩ := List.forall_mem_cons.mp h
    obtain ⟨e, hstep, he⟩ := widen_of_widest_eq hm
    obtain ⟨d', hscan, hd'⟩ := ih (fun x hx => (hrest x hx).trans he.symm)
    refine ⟨d', ?_, hd'.trans he⟩
    rw [scanDominant, List.foldl_cons, hstep]
    exact hscan

/-- From a dominant member on, a walk is uniform when all members lie in its chain. -/
theorem scanDominant_uniform_iff (members : List Atomic) (d : Atomic) :
    (scanDominant members { dominant := some d }).uniform = true ↔
      ∀ m ∈ members, m.kind.widest = d.kind.widest := by
  constructor
  · intro huniform
    induction members generalizing d with
    | nil => simp
    | cons m rest ih =>
      rw [scanDominant, List.foldl_cons] at huniform
      by_cases hm : m.kind.widest = d.kind.widest
      · obtain ⟨e, hstep, he⟩ := widen_of_widest_eq hm
        rw [hstep] at huniform
        have hrest := ih e huniform
        exact List.forall_mem_cons.mpr ⟨hm, fun x hx => (hrest x hx).trans he⟩
      · -- the search has ended, so the rest of the members cannot mend it
        rw [widen_of_widest_ne hm] at huniform
        have hstays : rest.foldl widen { dominant := some d, uniform := false } =
            { dominant := some d, uniform := false } :=
          scanDominant_of_not_uniform rest rfl
        rw [hstays] at huniform
        exact absurd huniform Bool.false_ne_true
  · intro h
    obtain ⟨d', hscan, _⟩ := scanDominant_of_widest_eq h
    rw [hscan]

/-- The first rule accepts two sides when all members of both lie in one chain of
kinds that loose comparison does not look into. -/
theorem homogeneousCompatible_iff {first second : List Atomic} (hfirst : first ≠ []) :
    homogeneousCompatible first second = true ↔
      ∃ k : Kind, k.isTooComplicated = false ∧ ∀ m ∈ first ++ second, m.kind.widest = k := by
  obtain ⟨a, rest, rfl⟩ := List.exists_cons_of_ne_nil hfirst
  have hstart : scanDominant (a :: rest) = scanDominant rest { dominant := some a } := rfl
  by_cases hrest : ∀ m ∈ rest, m.kind.widest = a.kind.widest
  · obtain ⟨d, hscan, hd⟩ := scanDominant_of_widest_eq hrest
    have hplain : d.isTooComplicated = a.kind.widest.isTooComplicated := by
      rw [← hd, Kind.isTooComplicated_widest]
      rfl
    rw [homogeneousCompatible, hstart, hscan]
    simp only [hplain, Bool.true_and, Bool.and_eq_true, Bool.not_eq_true',
      scanDominant_uniform_iff, hd]
    constructor
    · rintro ⟨hk, hsecond⟩
      have hfirst : ∀ m ∈ a :: rest, m.kind.widest = a.kind.widest :=
        List.forall_mem_cons.mpr ⟨rfl, hrest⟩
      refine ⟨a.kind.widest, hk, fun m hm => ?_⟩
      rcases List.mem_append.mp hm with hm | hm
      · exact hfirst m hm
      · exact hsecond m hm
    · rintro ⟨k, hk, hall⟩
      obtain rfl : a.kind.widest = k := hall a (by simp)
      exact ⟨hk, fun m hm => hall m (List.mem_append_right _ hm)⟩
  · have hbroken : (scanDominant rest { dominant := some a }).uniform = false := by
      rw [← Bool.not_eq_true, scanDominant_uniform_iff]
      exact hrest
    constructor
    · intro h
      rw [homogeneousCompatible, hstart] at h
      split at h
      · simp [hbroken] at h
      · exact absurd h Bool.false_ne_true
    · rintro ⟨k, _, hall⟩
      have ha : a.kind.widest = k := hall a (by simp)
      exact absurd (fun m hm => (hall m (by simp [hm])).trans ha.symm) hrest

namespace StringScan

/-- A string keeps the walk going; a non-empty one is noted. -/
theorem step_of_isStringLike {state : StringScan} {m : Atomic} (hstate : state.stringOnly = true)
    (hm : m.isStringLike = true) :
    step state m =
      { stringOnly := true, withNull := state.withNull || m.kind == .nonEmptyString } := by
  have hkind : m.kind = .string ∨ m.kind = .nonEmptyString := by
    simpa [Kind.strings] using (Kind.isStringLike_iff m.kind).mp hm
  obtain ⟨stringOnly, withNull⟩ := state
  obtain rfl : stringOnly = true := hstate
  rcases hkind with hkind | hkind <;> simp [step, hkind]

theorem step_of_not_isStringLike {state : StringScan} {m : Atomic} (hm : m.isStringLike = false) :
    (step state m).stringOnly = false := by
  have hkind : m.kind ≠ .string ∧ m.kind ≠ .nonEmptyString := by
    have hstrings : m.kind ∉ Kind.strings := by
      rw [← Kind.isStringLike_iff, Bool.not_eq_true]
      exact hm
    simpa [Kind.strings] using hstrings
  unfold step
  split
  · next hstate => simpa using hstate
  · split
    · next h => exact absurd h hkind.2
    · next h => exact absurd h hkind.1
    · rfl

theorem foldl_step_of_not_stringOnly (members : List Atomic) {state : StringScan}
    (h : state.stringOnly = false) : members.foldl step state = state := by
  induction members with
  | nil => rfl
  | cons m rest ih =>
    have hstep : step state m = state := by simp [step, h]
    rw [List.foldl_cons, hstep]
    exact ih

/-- The walk over strings notes whether one of them is non-empty. -/
theorem foldl_step_of_isStringLike {members : List Atomic} {state : StringScan}
    (hstate : state.stringOnly = true) (h : ∀ m ∈ members, m.isStringLike = true) :
    members.foldl step state =
      { stringOnly := true
        withNull := state.withNull || members.any (fun m => m.kind == .nonEmptyString) } := by
  induction members generalizing state with
  | nil =>
    obtain ⟨stringOnly, withNull⟩ := state
    obtain rfl : stringOnly = true := hstate
    simp
  | cons m rest ih =>
    obtain ⟨hm, hrest⟩ := List.forall_mem_cons.mp h
    rw [List.foldl_cons, step_of_isStringLike hstate hm, ih rfl hrest]
    simp [Bool.or_assoc]

end StringScan

open StringScan

/-- The walk for strings finds out whether all members are strings. -/
theorem scanStrings_stringOnly_iff (members : List Atomic) :
    (scanStrings members).stringOnly = true ↔ ∀ m ∈ members, m.isStringLike = true := by
  constructor
  · -- a member that is not a string ends the walk where it stands
    intro hall m hm
    by_contra hne
    obtain ⟨before, after, rfl⟩ := List.append_of_mem hm
    have hbroken : (step (before.foldl step {}) m).stringOnly = false :=
      step_of_not_isStringLike (Bool.eq_false_iff.mpr hne)
    rw [scanStrings, List.foldl_append, List.foldl_cons,
      foldl_step_of_not_stringOnly after hbroken, hbroken] at hall
    exact Bool.false_ne_true hall
  · intro h
    rw [scanStrings, foldl_step_of_isStringLike rfl h]

/-- The second rule accepts two sides when the first has strings only and each member
of the second is safe against them. -/
theorem nullableStringCompatible_iff (first second : List Atomic) :
    nullableStringCompatible first second = true ↔
      (∀ a ∈ first, a.isStringLike = true) ∧
        ∀ b ∈ second, isStringSafe (first.any (fun a => a.kind == .nonEmptyString)) b = true := by
  by_cases h : ∀ a ∈ first, a.isStringLike = true
  · have hscan : scanStrings first =
        { stringOnly := true, withNull := first.any (fun a => a.kind == .nonEmptyString) } := by
      rw [scanStrings, foldl_step_of_isStringLike rfl h]
      simp
    rw [nullableStringCompatible, hscan]
    simp only [Bool.true_and, List.all_eq_true]
    exact ⟨fun hsafe => ⟨h, hsafe⟩, fun hboth => hboth.2⟩
  · have hscan : (scanStrings first).stringOnly = false := by
      rw [← Bool.not_eq_true, scanStrings_stringOnly_iff]
      exact h
    rw [nullableStringCompatible, hscan, Bool.false_and]
    exact ⟨fun hfalse => absurd hfalse Bool.false_ne_true, fun hboth => absurd hboth.1 h⟩

/-- All members of both sides lie in one plain family. -/
def OneFamily (l r : List Atomic) : Prop :=
  ∃ family ∈ plainFamilies, ∀ m ∈ l ++ r, m.kind ∈ family

/-- One side has strings only. Each member of the other is a string, an array, an
object, a callable, a resource or a closed resource, or it is null and one of the
strings is known to be non-empty. -/
def StringsAgainst (l r : List Atomic) : Prop :=
  (∀ a ∈ l, a.kind ∈ strings) ∧
    ∀ b ∈ r, b.kind ∈ strings ++ arrays ++ objects ++ [.callable, .resource, .closedResource] ∨
      (b.kind = .null ∧ ∃ a ∈ l, a.kind = .nonEmptyString)

theorem homogeneousCompatible_iff_oneFamily {l r : List Atomic} (hl : l ≠ []) :
    homogeneousCompatible l r = true ↔ OneFamily l r := by
  rw [homogeneousCompatible_iff hl]
  constructor
  · rintro ⟨k, hk, hall⟩
    obtain ⟨family, hmem, hchain⟩ := exists_plainFamily hk
    exact ⟨family, hmem, fun m hm => hchain m.kind (hall m hm)⟩
  · rintro ⟨family, hmem, hall⟩
    obtain ⟨k, hk, hchain⟩ := exists_widest_of_plainFamily hmem
    exact ⟨k, hk, fun m hm => hchain m.kind (hall m hm)⟩

theorem OneFamily.symm {l r : List Atomic} (h : OneFamily l r) : OneFamily r l := by
  obtain ⟨family, hmem, hall⟩ := h
  refine ⟨family, hmem, fun m hm => hall m ?_⟩
  rw [List.mem_append] at hm ⊢
  exact hm.symm

theorem isStringSafe_iff (withNull : Bool) (b : Atomic) :
    isStringSafe withNull b = true ↔
      b.kind ∈ strings ++ arrays ++ objects ++ [.callable, .resource, .closedResource] ∨
        (b.kind = .null ∧ withNull = true) := by
  have hkind : isStringSafe withNull b = isStringSafe withNull { kind := b.kind } := rfl
  rw [hkind]
  generalize b.kind = k
  cases withNull <;> cases k <;> decide

theorem nullableStringCompatible_iff_stringsAgainst (l r : List Atomic) :
    nullableStringCompatible l r = true ↔ StringsAgainst l r := by
  have hstrings : ∀ a : Atomic, a.isStringLike = true ↔ a.kind ∈ strings :=
    fun a => Kind.isStringLike_iff a.kind
  rw [nullableStringCompatible_iff, StringsAgainst]
  simp only [hstrings, isStringSafe_iff, List.any_eq_true, beq_iff_eq]

/-- Unions are compatible when one plain family holds all members, or when either side
has strings only and the other is safe against them. -/
theorem unionCompatible_iff {l r : List Atomic} (hl : l ≠ []) (hr : r ≠ []) :
    unionCompatible l r = true ↔ OneFamily l r ∨ StringsAgainst l r ∨ StringsAgainst r l := by
  simp only [unionCompatible, unionCompatibleOrdered, Bool.or_eq_true,
    homogeneousCompatible_iff_oneFamily hl, homogeneousCompatible_iff_oneFamily hr,
    nullableStringCompatible_iff_stringsAgainst]
  constructor
  · rintro ((h | h) | (h | h))
    · exact Or.inl h
    · exact Or.inr (Or.inl h)
    · exact Or.inl h.symm
    · exact Or.inr (Or.inr h)
  · rintro (h | h | h)
    · exact Or.inl (Or.inl h)
    · exact Or.inl (Or.inr h)
    · exact Or.inr (Or.inr h)

/-- Which members occur decides whether unions are compatible. Order and repetitions
do not. -/
theorem unionCompatible_congr {l l' r r' : List Atomic} (hl : l ≠ []) (hl' : l' ≠ [])
    (hr : r ≠ []) (hr' : r' ≠ []) (hleft : ∀ a, a ∈ l' ↔ a ∈ l) (hright : ∀ a, a ∈ r' ↔ a ∈ r) :
    unionCompatible l' r' = unionCompatible l r := by
  rw [Bool.eq_iff_iff, unionCompatible_iff hl hr, unionCompatible_iff hl' hr']
  simp only [OneFamily, StringsAgainst, List.mem_append, hleft, hright]

theorem unionCompatible_comm (l r : List Atomic) : unionCompatible l r = unionCompatible r l :=
  Bool.or_comm _ _

end StrictEquality
