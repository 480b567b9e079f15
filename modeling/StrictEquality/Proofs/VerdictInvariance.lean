import StrictEquality.Decision
import StrictEquality.Proofs.UnionWalk

/-!
# The verdict does not depend on the presentation

A policy given by a table, whatever its rules, decides by the members that occur on
each side. Their order and repetitions, the order of the operands and the polarity of
the operator make no difference.

Main statement: `evaluate_table_isSafe_congr`.
-/

namespace StrictEquality

namespace TypeDescriptor

theorem isSingle_congr {t t' : TypeDescriptor} (h : ∀ a, a ∈ t'.members ↔ a ∈ t.members) :
    t'.isSingle = t.isSingle := by
  rw [Bool.eq_iff_iff, isSingle_iff, isSingle_iff]
  simp only [h]

theorem single_congr {t t' : TypeDescriptor} (h : ∀ a, a ∈ t'.members ↔ a ∈ t.members)
    (hsingle : t.isSingle = true) : t'.single = t.single := by
  obtain ⟨a, ha⟩ := t.isSingle_iff.mp hsingle
  have hmem : t'.single ∈ t.members := (h t'.single).mp t'.single_mem
  exact (ha _ hmem).trans (ha _ t.single_mem).symm

end TypeDescriptor

theorem compatible_comm (rules : List PairRule) (a b : Atomic) :
    compatible rules a b = compatible rules b a :=
  Bool.or_comm _ _

namespace Decision

variable {left left' right right' : TypeDescriptor}

theorem isRefused_comm (allowAnnotated : Bool) (left right : TypeDescriptor) :
    isRefused allowAnnotated left right = isRefused allowAnnotated right left := by
  rw [isRefused, isRefused, Bool.or_comm]

/-- A table policy accepts the operands in either order, for either polarity. -/
theorem isCompatible_table_comm (name description : String) (rules : List PairRule)
    (left right : TypeDescriptor) (p p' : Polarity) :
    isCompatible (.table name rules description) left right p =
      isCompatible (.table name rules description) right left p' := by
  unfold isCompatible
  rw [Bool.and_comm]
  split
  · exact compatible_comm rules left.single right.single
  · exact unionCompatible_comm left.members right.members

/-- A table policy reads no more of the types than which members occur. -/
theorem isCompatible_table_congr (name description : String) (rules : List PairRule)
    (hleft : ∀ a, a ∈ left'.members ↔ a ∈ left.members)
    (hright : ∀ a, a ∈ right'.members ↔ a ∈ right.members) (p p' : Polarity) :
    isCompatible (.table name rules description) left' right' p' =
      isCompatible (.table name rules description) left right p := by
  unfold isCompatible
  rw [TypeDescriptor.isSingle_congr hleft, TypeDescriptor.isSingle_congr hright]
  split
  · next hsingle =>
    rw [Bool.and_eq_true] at hsingle
    rw [TypeDescriptor.single_congr hleft hsingle.1, TypeDescriptor.single_congr hright hsingle.2]
    rfl
  · exact unionCompatible_congr left.members_ne_nil left'.members_ne_nil right.members_ne_nil
      right'.members_ne_nil hleft hright

end Decision

open Decision TypeDescriptor

/-- **The verdict ignores the presentation.** Under a policy given by any table, member
lists with the same elements give the same verdict, in either order of the operands and
for any polarities. -/
theorem evaluate_table_isSafe_congr (name description : String) (rules : List PairRule)
    {l l' r r' : List Atomic} (hl : l ≠ []) (hl' : l' ≠ []) (hr : r ≠ []) (hr' : r' ≠ [])
    (hleft : ∀ a, a ∈ l' ↔ a ∈ l) (hright : ∀ a, a ∈ r' ↔ a ∈ r) (pl pr : Provenance)
    (allowAnnotated : Bool) (p p' p'' : Polarity) :
    let policy := Policy.table name rules description
    let verdict :=
      (evaluate policy allowAnnotated (ofNonempty l hl pl) (ofNonempty r hr pr) p).isSafe
    (evaluate policy allowAnnotated (ofNonempty l' hl' pl) (ofNonempty r' hr' pr) p').isSafe =
        verdict ∧
      (evaluate policy allowAnnotated (ofNonempty r' hr' pr) (ofNonempty l' hl' pl) p'').isSafe =
        verdict := by
  intro policy verdict
  have hgate : isRefused allowAnnotated (ofNonempty l' hl' pl) (ofNonempty r' hr' pr) =
      isRefused allowAnnotated (ofNonempty l hl pl) (ofNonempty r hr pr) := rfl
  have hsame : (evaluate policy allowAnnotated (ofNonempty l' hl' pl) (ofNonempty r' hr' pr)
      p').isSafe = verdict := by
    have hmembers : isCompatible policy (ofNonempty l' hl' pl) (ofNonempty r' hr' pr) p' =
        isCompatible policy (ofNonempty l hl pl) (ofNonempty r hr pr) p :=
      isCompatible_table_congr name description rules (by simpa using hleft)
        (by simpa using hright) p p'
    show _ = (evaluate policy _ _ _ _).isSafe
    rw [isSafe_evaluate, isSafe_evaluate, hgate, hmembers]
  refine ⟨hsame, ?_⟩
  rw [← hsame, isSafe_evaluate, isSafe_evaluate, isRefused_comm,
    isCompatible_table_comm name description rules _ _ p'' p']

/-- A string or null and a non-empty string, listed otherwise and exchanged. -/
theorem evaluate_table_isSafe_congr_nullable :
    let l : List Atomic := [{ kind := .string }, { kind := .null }]
    let l' : List Atomic := [{ kind := .null }, { kind := .string }, { kind := .null }]
    let r : List Atomic := [{ kind := .nonEmptyString }]
    ∃ (hl : l ≠ []) (hl' : l' ≠ []) (hr : r ≠ []),
      (∀ a, a ∈ l' ↔ a ∈ l) ∧ (∀ a, a ∈ r ↔ a ∈ r) ∧
        (evaluate .lattice false (ofNonempty l' hl' .inferred) (ofNonempty r hr .inferred)
            .notEqual).isSafe =
          (evaluate .lattice false (ofNonempty l hl .inferred) (ofNonempty r hr .inferred)
            .equal).isSafe := by
  intro l l' r
  have hl : l ≠ [] := by simp [l]
  have hl' : l' ≠ [] := by simp [l']
  have hr : r ≠ [] := by simp [r]
  have hleft : ∀ a, a ∈ l' ↔ a ∈ l := by
    intro a
    simp only [l, l', List.mem_cons, List.not_mem_nil, or_false]
    grind
  refine ⟨hl, hl', hr, hleft, fun _ => Iff.rfl, ?_⟩
  exact (evaluate_table_isSafe_congr _ _ latticeRules hl hl' hr hr hleft (fun _ => Iff.rfl)
    .inferred .inferred false .equal .notEqual .notEqual).1

end StrictEquality
