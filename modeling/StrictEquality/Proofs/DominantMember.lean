import Mathlib.Data.List.Induction
import Mathlib.Data.List.Pairwise
import Mathlib.Data.List.TakeWhile
import StrictEquality.Proofs.UnionWalk

/-!
# The dominant member of a union

The walk for a dominant member compares each member with the widest one so far. What it
ends in can be said without the walk: it reaches as far as all members are related to each
other, and its dominant member is the first one up to there that all of them are special
cases of.

## Main definitions

- `Atomic.Related` — one of two atomic types is a special case of the other
- `IsRelatedPrefix` — the longest prefix of related members
- `dominant?` — the first member that all members are special cases of

Main statement: `exists_isRelatedPrefix_scanDominant`.
-/

namespace StrictEquality

namespace Atomic

/-- One of two atomic types has the kind of the other or a special case of it. -/
def Related (a b : Atomic) : Prop :=
  a.isA b = true ∨ b.isA a = true

theorem related_iff {a b : Atomic} : Related a b ↔ a.kind.widest = b.kind.widest :=
  Kind.isA_or_isA_iff a.kind b.kind

theorem isA_refl (a : Atomic) : a.isA a = true :=
  Kind.isA_refl a.kind

theorem isA_trans {a b c : Atomic} (hab : a.isA b = true) (hbc : b.isA c = true) :
    a.isA c = true :=
  Kind.isA_trans hab hbc

instance : Std.Symm Related where
  symm _ _ := Or.symm

/-- Related members share one chain of kinds. -/
theorem widest_eq_of_pairwise {members : List Atomic} (h : members.Pairwise Related)
    {a b : Atomic} (ha : a ∈ members) (hb : b ∈ members) : a.kind.widest = b.kind.widest := by
  have hself : ∀ c ∈ members, Related c c := fun c _ => Or.inl (isA_refl c)
  exact related_iff.mp (List.Pairwise.forall_of_forall hself h ha hb)

theorem pairwise_of_widest_eq {members : List Atomic} {k : Kind}
    (h : ∀ m ∈ members, m.kind.widest = k) : members.Pairwise Related :=
  List.pairwise_of_forall_mem_list (fun a ha b hb => related_iff.mpr ((h a ha).trans (h b hb).symm))

end Atomic

open Atomic DominantScan

/-- The longest prefix of some members in which they are related to each other. -/
structure IsRelatedPrefix (reached members : List Atomic) : Prop where
  isPrefix : reached <+: members
  related : reached.Pairwise Related
  longest : ∀ other, other <+: members → other.Pairwise Related → other <+: reached

/-- The first member that all members are special cases of. -/
def dominant? (members : List Atomic) : Option Atomic :=
  members.find? (fun d => members.all (fun m => m.isA d))

theorem dominant?_eq_some_iff {members : List Atomic} {d : Atomic} :
    dominant? members = some d ↔
      (∀ m ∈ members, m.isA d = true) ∧
        ∃ before after, members = before ++ d :: after ∧
          ∀ a ∈ before, ∃ m ∈ members, m.isA a = false := by
  simp [dominant?, List.find?_eq_some_iff_append]

theorem mem_of_dominant? {members : List Atomic} {d : Atomic} (h : dominant? members = some d) :
    d ∈ members :=
  List.mem_of_find?_eq_some h

/-- A special case of the dominant member leaves it in place. -/
theorem dominant?_append_of_isA {members : List Atomic} {d m : Atomic}
    (hd : dominant? members = some d) (hm : m.isA d = true) :
    dominant? (members ++ [m]) = some d := by
  obtain ⟨hall, before, after, hmembers, hbefore⟩ := dominant?_eq_some_iff.mp hd
  refine dominant?_eq_some_iff.mpr ⟨?_, before, after ++ [m], ?_, ?_⟩
  · exact List.forall_mem_append.mpr ⟨hall, List.forall_mem_singleton.mpr hm⟩
  · rw [hmembers, List.append_assoc, List.cons_append]
  · intro a ha
    obtain ⟨x, hx, hxa⟩ := hbefore a ha
    exact ⟨x, List.mem_append_left _ hx, hxa⟩

/-- A member that the dominant one is a special case of, but not the other way round,
takes its place. -/
theorem dominant?_append_of_not_isA {members : List Atomic} {d m : Atomic}
    (hd : dominant? members = some d) (hdm : d.isA m = true) (hmd : m.isA d = false) :
    dominant? (members ++ [m]) = some m := by
  obtain ⟨hall, -⟩ := dominant?_eq_some_iff.mp hd
  refine dominant?_eq_some_iff.mpr ⟨?_, members, [], rfl, ?_⟩
  · have hold : ∀ a ∈ members, a.isA m = true := fun a ha => isA_trans (hall a ha) hdm
    exact List.forall_mem_append.mpr ⟨hold, List.forall_mem_singleton.mpr (isA_refl m)⟩
  · -- below an earlier member the new one would be below the dominant one too
    intro a ha
    refine ⟨m, List.mem_append_right _ (List.mem_singleton_self m), ?_⟩
    rw [Bool.eq_false_iff]
    intro hma
    rw [isA_trans hma (hall a ha)] at hmd
    exact Bool.false_ne_true hmd.symm

theorem scanDominant_append (xs ys : List Atomic) (start : DominantScan) :
    scanDominant (xs ++ ys) start = scanDominant ys (scanDominant xs start) :=
  List.foldl_append

/-- Of related members there is a dominant one, unless there are none. -/
theorem exists_dominant?_of_scanDominant {members : List Atomic} (hne : members ≠ [])
    (h : members.Pairwise Related)
    (hscan : scanDominant members = { dominant := dominant? members }) :
    ∃ d, dominant? members = some d := by
  obtain ⟨a, rest, rfl⟩ := List.exists_cons_of_ne_nil hne
  have hrest : ∀ m ∈ rest, m.kind.widest = a.kind.widest := fun m hm =>
    widest_eq_of_pairwise h (List.mem_cons_of_mem a hm) List.mem_cons_self
  obtain ⟨d, hd, -⟩ := scanDominant_of_widest_eq hrest
  have hstart : scanDominant (a :: rest) = scanDominant rest { dominant := some a } := rfl
  rw [hstart, hd] at hscan
  exact ⟨d, (congrArg DominantScan.dominant hscan).symm⟩

/-- While the members are related the walk has found the dominant one. -/
theorem scanDominant_of_pairwise {members : List Atomic} (h : members.Pairwise Related) :
    scanDominant members = { dominant := dominant? members } := by
  induction members using List.reverseRecOn with
  | nil => rfl
  | append_singleton members m ih =>
    obtain ⟨hmembers, -, hm⟩ := List.pairwise_append.mp h
    have hscan := ih hmembers
    rw [scanDominant_append, hscan]
    by_cases hne : members = []
    · subst hne
      have hdominant : dominant? [m] = some m := by simp [dominant?, isA_refl]
      rw [List.nil_append, hdominant]
      rfl
    · obtain ⟨d, hd⟩ := exists_dominant?_of_scanDominant hne hmembers hscan
      have hrelated : Related d m :=
        hm d (mem_of_dominant? hd) m (List.mem_singleton_self m)
      rw [hd]
      show widen { dominant := some d } m = _
      cases hmd : m.isA d with
      | true => simp [widen, hmd, dominant?_append_of_isA hd hmd]
      | false =>
        have hdm : d.isA m = true := hrelated.resolve_right (by simp [hmd])
        simp [widen, hmd, hdm, dominant?_append_of_not_isA hd hdm hmd]

theorem exists_dominant? {members : List Atomic} (hne : members ≠ [])
    (h : members.Pairwise Related) : ∃ d, dominant? members = some d :=
  exists_dominant?_of_scanDominant hne h (scanDominant_of_pairwise h)

/-- The first member that is not related to all those before it ends the walk, whatever
comes after it. -/
theorem scanDominant_of_not_pairwise {members : List Atomic} {m : Atomic}
    (h : members.Pairwise Related) (hm : ¬ (members ++ [m]).Pairwise Related)
    (rest : List Atomic) :
    scanDominant (members ++ m :: rest) = { dominant := dominant? members, uniform := false } := by
  have hne : members ≠ [] := by
    rintro rfl
    exact hm (List.pairwise_singleton _ _)
  obtain ⟨d, hd⟩ := exists_dominant? hne h
  have hdm : m.kind.widest ≠ d.kind.widest := by
    intro hwidest
    apply hm
    have hold : ∀ a ∈ members, a.kind.widest = d.kind.widest := fun a ha =>
      widest_eq_of_pairwise h ha (mem_of_dominant? hd)
    exact pairwise_of_widest_eq
      (List.forall_mem_append.mpr ⟨hold, List.forall_mem_singleton.mpr hwidest⟩)
  have hstep : scanDominant (m :: rest) { dominant := some d } =
      scanDominant rest { dominant := some d, uniform := false } := by
    rw [scanDominant, List.foldl_cons, widen_of_widest_ne hdm]
    rfl
  rw [scanDominant_append, scanDominant_of_pairwise h, hd, hstep]
  exact scanDominant_of_not_uniform rest rfl

/-- The walk is uniform when all members are related to each other. -/
theorem scanDominant_uniform_iff_pairwise (members : List Atomic) :
    (scanDominant members).uniform = true ↔ members.Pairwise Related := by
  constructor
  · cases members with
    | nil => exact fun _ => List.Pairwise.nil
    | cons a rest =>
      intro huniform
      have hrest := (scanDominant_uniform_iff rest a).mp huniform
      exact pairwise_of_widest_eq (List.forall_mem_cons.mpr ⟨rfl, hrest⟩)
  · intro h
    rw [scanDominant_of_pairwise h]

/-- Some first members are the longest prefix of related ones: those up to where the chain
of the first one is left. -/
theorem exists_isRelatedPrefix (members : List Atomic) :
    ∃ reached, IsRelatedPrefix reached members := by
  cases members with
  | nil => exact ⟨[], List.prefix_rfl, List.Pairwise.nil, fun _ hother _ => hother⟩
  | cons a rest =>
    let inChain : Atomic → Bool := fun m => m.kind.widest = a.kind.widest
    refine ⟨(a :: rest).takeWhile inChain, List.takeWhile_prefix _, ?_, ?_⟩
    · apply pairwise_of_widest_eq (k := a.kind.widest)
      intro m hm
      have hchain : inChain m = true := List.mem_takeWhile_imp hm
      exact of_decide_eq_true hchain
    · intro other hother hrelated
      have hchain : ∀ m ∈ other, inChain m = true := by
        intro m hm
        obtain ⟨b, others, rfl⟩ := List.exists_cons_of_ne_nil (List.ne_nil_of_mem hm)
        obtain ⟨rfl, -⟩ := List.cons_prefix_cons.mp hother
        exact decide_eq_true (widest_eq_of_pairwise hrelated hm List.mem_cons_self)
      obtain ⟨after, hafter⟩ := hother
      rw [← hafter, List.takeWhile_append_of_pos hchain]
      exact List.prefix_append _ _

theorem ne_nil_of_isRelatedPrefix {reached members : List Atomic}
    (h : IsRelatedPrefix reached members) (hne : members ≠ []) : reached ≠ [] := by
  rintro rfl
  obtain ⟨a, rest, rfl⟩ := List.exists_cons_of_ne_nil hne
  have hone : [a] <+: [] :=
    h.longest [a] (List.prefix_append [a] rest) (List.pairwise_singleton _ a)
  exact absurd (List.prefix_nil.mp hone) (List.cons_ne_nil a [])

/-- Behind the longest prefix of related members the walk stays as it is. -/
theorem scanDominant_of_isRelatedPrefix_of_lt {reached members further : List Atomic}
    (h : IsRelatedPrefix reached members) (hfurther : further <+: members)
    (hlt : reached.length < further.length) :
    scanDominant further = { dominant := dominant? reached, uniform := false } := by
  obtain ⟨unrelated, rfl⟩ : reached <+: further :=
    List.prefix_of_prefix_length_le h.isPrefix hfurther (Nat.le_of_lt hlt)
  cases unrelated with
  | nil => simp at hlt
  | cons m rest =>
    refine scanDominant_of_not_pairwise h.related ?_ rest
    intro hrelated
    have hone : reached ++ [m] <+: members := by
      refine List.IsPrefix.trans ?_ hfurther
      exact ⟨rest, by rw [List.append_assoc, List.singleton_append]⟩
    have hle : (reached ++ [m]).length ≤ reached.length := (h.longest _ hone hrelated).length_le
    rw [List.length_append, List.length_singleton] at hle
    omega

/-- Whatever the order, the first members that all are special cases of have one kind. -/
theorem kind_eq_of_dominant? {members other : List Atomic} (h : other.Perm members)
    {d e : Atomic} (hd : dominant? members = some d) (he : dominant? other = some e) :
    e.kind = d.kind := by
  obtain ⟨hall, -⟩ := dominant?_eq_some_iff.mp hd
  obtain ⟨hall', -⟩ := dominant?_eq_some_iff.mp he
  have hed : e.isA d = true := hall e (h.mem_iff.mp (mem_of_dominant? he))
  have hde : d.isA e = true := hall' d (h.mem_iff.mpr (mem_of_dominant? hd))
  exact Kind.isA_antisymm hed hde

theorem scanDominant_uniform_eq_of_perm {members other : List Atomic} (h : other.Perm members) :
    (scanDominant other).uniform = (scanDominant members).uniform := by
  rw [Bool.eq_iff_iff, scanDominant_uniform_iff_pairwise, scanDominant_uniform_iff_pairwise]
  exact h.pairwise_iff Or.symm

/-- Of related members the walk finds the same kind in every order. -/
theorem map_kind_dominant_eq_of_perm {members other : List Atomic} (h : other.Perm members)
    (huniform : (scanDominant members).uniform = true) :
    (scanDominant other).dominant.map Atomic.kind =
      (scanDominant members).dominant.map Atomic.kind := by
  have hmembers := (scanDominant_uniform_iff_pairwise members).mp huniform
  have hother : other.Pairwise Related := (h.pairwise_iff Or.symm).mpr hmembers
  rw [scanDominant_of_pairwise hmembers, scanDominant_of_pairwise hother]
  by_cases hne : members = []
  · subst hne
    rw [h.eq_nil]
  · have hne' : other ≠ [] := fun hnil => hne (by rw [hnil] at h; exact h.symm.eq_nil)
    obtain ⟨d, hd⟩ := exists_dominant? hne hmembers
    obtain ⟨e, he⟩ := exists_dominant? hne' hother
    simp only [hd, he, Option.map_some, kind_eq_of_dominant? h hd he]

/-- What the walk for a dominant member comes to. It reaches the longest prefix of members
that are related to each other, is uniform when that is all of them, and has found the first
one there that all of them are special cases of. From the first unrelated member on its
state stays as it is. So neither the uniformity nor, of related members, the kind found
depends on their order, and a walk may be interrupted and taken up again. -/
theorem exists_isRelatedPrefix_scanDominant (members : List Atomic) :
    (∃ reached, IsRelatedPrefix reached members ∧
      ((scanDominant members).uniform = true ↔ reached = members) ∧
      (scanDominant members).dominant = dominant? reached ∧
      ((scanDominant members).dominant = none ↔ members = []) ∧
      ∀ further, further <+: members → reached.length < further.length →
        scanDominant further = scanDominant members) ∧
    (∀ other, other.Perm members →
      (scanDominant other).uniform = (scanDominant members).uniform ∧
        ((scanDominant members).uniform = true →
          (scanDominant other).dominant.map Atomic.kind =
            (scanDominant members).dominant.map Atomic.kind)) ∧
    ∀ more, scanDominant more (scanDominant members) = scanDominant (members ++ more) := by
  obtain ⟨reached, hreached⟩ := exists_isRelatedPrefix members
  have hscan : scanDominant members =
      { dominant := dominant? reached, uniform := decide (reached = members) } := by
    by_cases hall : reached = members
    · rw [← hall, scanDominant_of_pairwise hreached.related]
      simp
    · have hlt : reached.length < members.length :=
        Nat.lt_of_le_of_ne hreached.isPrefix.length_le
          (fun hlength => hall (hreached.isPrefix.eq_of_length hlength))
      rw [scanDominant_of_isRelatedPrefix_of_lt hreached List.prefix_rfl hlt]
      simp [hall]
  refine ⟨⟨reached, hreached, ?_, ?_, ?_, ?_⟩, ?_, ?_⟩
  · rw [hscan, decide_eq_true_iff]
  · rw [hscan]
  · rw [hscan]
    constructor
    · intro hnone
      by_contra hne
      obtain ⟨d, hd⟩ := exists_dominant? (ne_nil_of_isRelatedPrefix hreached hne) hreached.related
      exact Option.some_ne_none d (hd.symm.trans hnone)
    · rintro rfl
      rw [List.prefix_nil.mp hreached.isPrefix]
      rfl
  · intro further hfurther hlt
    have hlt' : reached.length < members.length := Nat.lt_of_lt_of_le hlt hfurther.length_le
    rw [scanDominant_of_isRelatedPrefix_of_lt hreached hfurther hlt,
      scanDominant_of_isRelatedPrefix_of_lt hreached List.prefix_rfl hlt']
  · intro other hother
    exact ⟨scanDominant_uniform_eq_of_perm hother, map_kind_dominant_eq_of_perm hother⟩
  · intro more
    exact (scanDominant_append members more {}).symm

/-- The widest kind after an unrelated member is not taken any more. -/
example :
    scanDominant [{ kind := .keyedArray }, { kind := .list }, { kind := .int }, { kind := .array }] =
      { dominant := some { kind := .list }, uniform := false } := by
  decide

end StrictEquality
