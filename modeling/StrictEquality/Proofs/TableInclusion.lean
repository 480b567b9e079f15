import StrictEquality.Decision

/-!
# Inclusion of rule tables

The first opinion in a table decides, so a rule put in front of others takes decisions
from them. It can only add to what is accepted if it never refuses, and only take away if
it never accepts. Rules behind all others are asked where there was no opinion before,
and no opinion is a refusal.

## Main definitions

- `PairRule.NeverRefuses`, `PairRule.NeverAccepts` — a rule has one kind of opinion at most
- `IsWithin` — what one table accepts, another one accepts as well, for pairs and for types

Main statement: `isWithin_insert_append`.
-/

namespace StrictEquality

namespace PairRule

/-- Accepts a pair or has no opinion on it. -/
def NeverRefuses (r : PairRule) : Prop :=
  ∀ a b, r.opinion a b ≠ some false

/-- Refuses a pair or has no opinion on it. -/
def NeverAccepts (r : PairRule) : Prop :=
  ∀ a b, r.opinion a b ≠ some true

theorem safeWhen_ne_some_false (holds : Bool) : safeWhen holds ≠ some false := by
  cases holds <;> simp [safeWhen]

theorem neverRefuses_structuralLattice : structuralLattice.NeverRefuses :=
  fun _ _ => safeWhen_ne_some_false _

theorem neverRefuses_objectLattice : objectLattice.NeverRefuses :=
  fun _ _ => safeWhen_ne_some_false _

end PairRule

open PairRule Decision

variable {rules rules' : List PairRule} {r : PairRule} {a b : Atomic}

theorem compatibleOrdered_cons (r : PairRule) (rules : List PairRule) (a b : Atomic) :
    compatibleOrdered (r :: rules) a b = (r.opinion a b).getD (compatibleOrdered rules a b) := by
  rw [compatibleOrdered, List.findSome?_cons]
  cases r.opinion a b <;> rfl

/-- A rule that is inserted anywhere leaves a decision as it was, or decides itself. -/
theorem compatibleOrdered_insertIdx_cases (rules : List PairRule) (i : Nat) (r : PairRule)
    (a b : Atomic) :
    compatibleOrdered (rules.insertIdx i r) a b = compatibleOrdered rules a b ∨
      r.opinion a b = some (compatibleOrdered (rules.insertIdx i r) a b) := by
  induction i generalizing rules with
  | zero =>
    rw [List.insertIdx_zero, compatibleOrdered_cons]
    cases r.opinion a b with
    | none => exact .inl rfl
    | some safe => exact .inr rfl
  | succ i ih =>
    cases rules with
    | nil => exact .inl rfl
    | cons first rest =>
      rw [List.insertIdx_succ_cons, compatibleOrdered_cons, compatibleOrdered_cons]
      cases first.opinion a b with
      | none => exact ih rest
      | some safe => exact .inl rfl

/-- A rule that never refuses takes no pair away from a table. -/
theorem compatibleOrdered_insertIdx (hr : r.NeverRefuses) (i : Nat)
    (h : compatibleOrdered rules a b) : compatibleOrdered (rules.insertIdx i r) a b := by
  rcases compatibleOrdered_insertIdx_cases rules i r a b with hsame | hopinion
  · rw [hsame]
    exact h
  · cases hdecision : compatibleOrdered (rules.insertIdx i r) a b with
    | true => rfl
    | false =>
      rw [hdecision] at hopinion
      exact absurd hopinion (hr a b)

/-- A rule that never accepts adds no pair to a table. -/
theorem compatibleOrdered_of_insertIdx (hr : r.NeverAccepts) (i : Nat)
    (h : compatibleOrdered (rules.insertIdx i r) a b) : compatibleOrdered rules a b := by
  rcases compatibleOrdered_insertIdx_cases rules i r a b with hsame | hopinion
  · rw [← hsame]
    exact h
  · rw [h] at hopinion
    exact absurd hopinion (hr a b)

/-- A pair that a table accepts has an opinion in it, so that later rules are not asked. -/
theorem compatibleOrdered_append (more : List PairRule) (h : compatibleOrdered rules a b) :
    compatibleOrdered (rules ++ more) a b := by
  rw [compatibleOrdered] at h ⊢
  rw [List.findSome?_append]
  cases hfirst : rules.findSome? (fun r => r.opinion a b) with
  | none =>
    rw [hfirst] at h
    cases h
  | some safe =>
    rw [hfirst] at h
    exact h

/-- What a table accepts another one accepts as well: pairs of members in either order, and
types, whatever the names of the policies. -/
structure IsWithin (rules rules' : List PairRule) : Prop where
  accepts : ∀ a b, compatible rules a b → compatible rules' a b
  isSafe : ∀ (name name' description description' : String) (allowAnnotated : Bool)
    (left right : TypeDescriptor) (p : Polarity),
    (evaluate (.table name rules description) allowAnnotated left right p).isSafe →
      (evaluate (.table name' rules' description') allowAnnotated left right p).isSafe

/-- A type is accepted for the pair of its members, or by rules for unions, which no table
has a part in. -/
theorem IsWithin.of_compatible (h : ∀ a b, compatible rules a b → compatible rules' a b) :
    IsWithin rules rules' := by
  refine ⟨h, ?_⟩
  intro name name' description description' allowAnnotated left right p hsafe
  rw [isSafe_evaluate, Bool.and_eq_true] at hsafe ⊢
  refine ⟨hsafe.1, ?_⟩
  have hcompatible := hsafe.2
  unfold isCompatible at hcompatible ⊢
  split
  · next hsingle =>
    rw [if_pos hsingle] at hcompatible
    exact h _ _ hcompatible
  · next hunion =>
    rw [if_neg hunion] at hcompatible
    exact hcompatible

theorem IsWithin.of_compatibleOrdered
    (h : ∀ a b, compatibleOrdered rules a b → compatibleOrdered rules' a b) :
    IsWithin rules rules' := by
  refine .of_compatible ?_
  intro a b hab
  rw [compatible, Bool.or_eq_true] at hab ⊢
  exact hab.imp (h a b) (h b a)

theorem IsWithin.trans {rules'' : List PairRule} (h : IsWithin rules rules')
    (h' : IsWithin rules' rules'') : IsWithin rules rules'' :=
  .of_compatible fun a b hab => h'.accepts a b (h.accepts a b hab)

theorem isWithin_insertIdx (hr : r.NeverRefuses) (rules : List PairRule) (i : Nat) :
    IsWithin rules (rules.insertIdx i r) :=
  .of_compatibleOrdered fun _ _ => compatibleOrdered_insertIdx hr i

theorem isWithin_of_insertIdx (hr : r.NeverAccepts) (rules : List PairRule) (i : Nat) :
    IsWithin (rules.insertIdx i r) rules :=
  .of_compatibleOrdered fun _ _ => compatibleOrdered_of_insertIdx hr i

theorem isWithin_append (rules more : List PairRule) : IsWithin rules (rules ++ more) :=
  .of_compatibleOrdered fun _ _ => compatibleOrdered_append more

/-- The lattices of arrays and objects stand before the guard of the conservative table. -/
theorem isWithin_conservativeRules_latticeRules : IsWithin conservativeRules latticeRules :=
  (isWithin_insertIdx neverRefuses_objectLattice conservativeRules 4).trans
    (isWithin_insertIdx neverRefuses_structuralLattice _ 4)

/-- **Tables grow with rules that never refuse.** Inserted anywhere, such a rule takes
nothing away from what a table accepts, and one that never accepts adds nothing to it.
Rules at the end take nothing away. So what the scalar table finds safe is safe for the
conservative policy, and what is safe for that is safe for the lattice policy. -/
theorem isWithin_insert_append :
    (∀ (rules : List PairRule) (i : Nat) (r : PairRule), r.NeverRefuses →
      IsWithin rules (rules.insertIdx i r)) ∧
    (∀ (rules : List PairRule) (i : Nat) (r : PairRule), r.NeverAccepts →
      IsWithin (rules.insertIdx i r) rules) ∧
    (∀ rules more : List PairRule, IsWithin rules (rules ++ more)) ∧
    ∀ (name description : String) (allowAnnotated : Bool) (left right : TypeDescriptor)
      (p : Polarity),
      ((evaluate (.table name scalarRules description) allowAnnotated left right p).isSafe →
        (evaluate .conservative allowAnnotated left right p).isSafe) ∧
      ((evaluate .conservative allowAnnotated left right p).isSafe →
        (evaluate .lattice allowAnnotated left right p).isSafe) := by
  refine ⟨fun rules i r hr => isWithin_insertIdx hr rules i,
    fun rules i r hr => isWithin_of_insertIdx hr rules i, isWithin_append, ?_⟩
  intro name description allowAnnotated left right p
  exact ⟨(isWithin_append scalarRules _).isSafe _ _ _ _ _ _ _ _,
    isWithin_conservativeRules_latticeRules.isSafe _ _ _ _ _ _ _ _⟩

/-- Refuses null on the left, whatever is on the right. -/
def refuseNull : PairRule where
  name := "refuse_null"
  opinion a _ := if a.kind == .null then some false else none

/-- A rule that never refuses in front of the guard, which it takes pairs from, and one that
never accepts in front of all others, which refuses what the table accepts for null. -/
theorem isWithin_insert_append_refuseNull :
    sameOrParent.NeverRefuses ∧ refuseNull.NeverAccepts ∧
      IsWithin [tooComplicatedGuard] ([tooComplicatedGuard].insertIdx 0 sameOrParent) ∧
      IsWithin (latticeRules.insertIdx 0 refuseNull) latticeRules ∧
      compatible (latticeRules.insertIdx 0 refuseNull) { kind := .null } { kind := .null } = false ∧
      compatible latticeRules { kind := .null } { kind := .null } = true := by
  have hrefuses : sameOrParent.NeverRefuses := fun _ _ => safeWhen_ne_some_false _
  have haccepts : refuseNull.NeverAccepts := by
    intro a b
    simp [refuseNull]
  obtain ⟨hgrows, hshrinks, -, -⟩ := isWithin_insert_append
  exact ⟨hrefuses, haccepts, hgrows _ 0 _ hrefuses, hshrinks _ 0 _ haccepts, by decide, by decide⟩

end StrictEquality
