import StrictEquality.Finding

/-!
# Selection of edits

Edits are sorted by their ranges and each is compared with the last one that was kept.
That is enough to keep all accepted edits apart, because the end of the last one is
behind all the others. What is kept depends on the ranges only, so of several edits for
one range the first one given has precedence.

## Main definitions

- `Edit.IsStableSort` — the order by ranges, which leaves edits of one range in place
- `Edit.IsMaximalChoice` — a choice of edits in which each one left out overlaps an
  earlier one that was chosen

Main statements: `Edit.accepted_of_pairwise`, `Finding.edits_isMaximalChoice`,
`Finding.map_range_edits_of_perm`.
-/

namespace StrictEquality

namespace Edit

def range (e : Edit) : Int × Int :=
  (e.start, e.stop)

/-- The edits sorted by range, those of one range in the order in which they were. -/
structure IsStableSort (edits sorted : List Edit) : Prop where
  perm : sorted.Perm edits
  ordered : sorted.Pairwise (fun a b => before a b)
  stable : ∀ r : Int × Int,
    sorted.filter (fun e => e.range = r) = edits.filter (fun e => e.range = r)

/-- The edits at some places of a list, in its order. Every edit at another place
overlaps one that was chosen before it. -/
def IsMaximalChoice (edits chosen : List Edit) : Prop :=
  ∃ places : List (Fin edits.length),
    places.Pairwise (· < ·) ∧ chosen = places.map edits.get ∧
      ∀ i, i ∉ places → ∃ j ∈ places, j < i ∧ (edits.get j).overlaps (edits.get i)

theorem before_iff {a b : Edit} :
    before a b ↔ a.start < b.start ∨ (a.start = b.start ∧ a.stop ≤ b.stop) := by
  simp [before]

theorem before_trans (a b c : Edit) (hab : before a b) (hbc : before b c) : before a c := by
  rw [before_iff] at *
  omega

theorem before_total (a b : Edit) : before a b || before b a := by
  rw [Bool.or_eq_true, before_iff, before_iff]
  omega

theorem before_of_range_eq {a b : Edit} (h : a.range = b.range) : before a b := by
  obtain ⟨hstart, hstop⟩ := Prod.mk.inj h
  rw [before_iff]
  omega

theorem range_eq_of_before {a b : Edit} (hab : before a b) (hba : before b a) :
    a.range = b.range := by
  rw [before_iff] at hab hba
  have hstart : a.start = b.start := by omega
  have hstop : a.stop = b.stop := by omega
  rw [range, range, hstart, hstop]

theorem overlaps_iff {a b : Edit} : a.overlaps b ↔ a.start < b.stop ∧ b.start < a.stop := by
  simp [overlaps]

theorem overlaps_comm (a b : Edit) : a.overlaps b = b.overlaps a := by
  rw [overlaps, overlaps, Bool.and_comm]

theorem overlaps_eq_of_range_eq {a b c d : Edit} (hac : a.range = c.range)
    (hbd : b.range = d.range) : a.overlaps b = c.overlaps d := by
  obtain ⟨hstart, hstop⟩ := Prod.mk.inj hac
  obtain ⟨hstart', hstop'⟩ := Prod.mk.inj hbd
  rw [overlaps, overlaps, hstart, hstop, hstart', hstop']

theorem sort_perm (edits : List Edit) : (sort edits).Perm edits :=
  List.mergeSort_perm edits before

theorem pairwise_sort (edits : List Edit) : (sort edits).Pairwise (fun a b => before a b) :=
  List.pairwise_mergeSort before_trans before_total edits

theorem sort_of_pairwise {edits : List Edit} (h : edits.Pairwise (fun a b => before a b)) :
    sort edits = edits :=
  List.mergeSort_of_pairwise h

theorem filter_sort (edits : List Edit) (r : Int × Int) :
    (sort edits).filter (fun e => e.range = r) = edits.filter (fun e => e.range = r) := by
  -- edits of one range are in order already, and a merge sort moves no ordered part
  have hordered : (edits.filter (fun e => e.range = r)).Pairwise (fun a b => before a b) := by
    refine List.pairwise_of_forall_mem_list ?_
    intro a ha b hb
    have ha : a.range = r := of_decide_eq_true (List.mem_filter.mp ha).2
    have hb : b.range = r := of_decide_eq_true (List.mem_filter.mp hb).2
    exact before_of_range_eq (ha.trans hb.symm)
  have hsub : (edits.filter (fun e => e.range = r)).Sublist (sort edits) :=
    List.sublist_mergeSort before_trans before_total hordered List.filter_sublist
  have hkept := hsub.filter (fun e => e.range = r)
  rw [List.filter_filter] at hkept
  simp only [Bool.and_self] at hkept
  exact (hkept.eq_of_length ((sort_perm edits).filter _).length_eq.symm).symm

theorem sort_isStableSort (edits : List Edit) : IsStableSort edits (sort edits) where
  perm := sort_perm edits
  ordered := pairwise_sort edits
  stable := filter_sort edits

theorem map_range_sort_of_perm {xs ys : List Edit} (h : xs.Perm ys) :
    (sort xs).map range = (sort ys).map range := by
  have hperm : ((sort xs).map range).Perm ((sort ys).map range) :=
    (((sort_perm xs).trans h).trans (sort_perm ys).symm).map range
  have hordered : ∀ edits : List Edit, ((sort edits).map range).Pairwise
      (fun r s => r.1 < s.1 ∨ (r.1 = s.1 ∧ r.2 ≤ s.2)) := by
    intro edits
    exact List.pairwise_map.mpr ((pairwise_sort edits).imp before_iff.mp)
  -- two lists in the same order of the same ranges are the same list
  refine hperm.eq_of_pairwise ?_ (hordered xs) (hordered ys)
  intro r s _ _ hrs hsr
  exact Prod.ext (by omega) (by omega)

theorem select_cons_of_clashes {last : Option Edit} {e : Edit} (h : clashes last e)
    (rest : List Edit) : select last (e :: rest) = select last rest := by
  rw [select, if_pos h]

theorem select_cons_of_not_clashes {last : Option Edit} {e : Edit} (h : ¬ clashes last e)
    (rest : List Edit) : select last (e :: rest) = e :: select (some e) rest := by
  rw [select, if_neg h]

/-- Where no two edits overlap and none overlaps the last one kept, all are kept. -/
theorem select_of_pairwise {last : Option Edit} {edits : List Edit}
    (hlast : ∀ e ∈ edits, clashes last e = false)
    (h : edits.Pairwise (fun a b => a.overlaps b = false)) : select last edits = edits := by
  induction edits generalizing last with
  | nil => rfl
  | cons e rest ih =>
    obtain ⟨hfirst, hrest⟩ := List.pairwise_cons.mp h
    have hkept : ¬ clashes last e = true := by
      rw [hlast e List.mem_cons_self]
      exact Bool.false_ne_true
    rw [select_cons_of_not_clashes hkept, ih ?_ hrest]
    -- the edit that was just kept is the one to compare the rest with
    intro next hnext
    rw [clashes, Option.any_some]
    exact hfirst next hnext

/-- **Edits that do not overlap are all applied,** in the order of their ranges. -/
theorem accepted_of_pairwise {edits : List Edit}
    (h : edits.Pairwise (fun a b => a.overlaps b = false)) : accepted edits = sort edits := by
  have hsorted : (sort edits).Pairwise (fun a b => a.overlaps b = false) := by
    refine h.perm (sort_perm edits).symm ?_
    intro a b hab
    rw [overlaps_comm, hab]
  exact select_of_pairwise (fun _ _ => rfl) hsorted

theorem select_sublist (last : Option Edit) (edits : List Edit) :
    (select last edits).Sublist edits := by
  induction edits generalizing last with
  | nil => exact .slnil
  | cons e rest ih =>
    by_cases h : clashes last e
    · rw [select_cons_of_clashes h]
      exact (ih last).cons e
    · rw [select_cons_of_not_clashes h]
      exact (ih (some e)).cons_cons e

/-- The places of the edits that are kept. An edit that is left out overlaps the last one
before the list, or one that was kept before it. -/
theorem exists_places_select (last : Option Edit) (edits : List Edit) :
    ∃ places : List (Fin edits.length),
      places.Pairwise (· < ·) ∧ select last edits = places.map edits.get ∧
        ∀ i, i ∉ places → clashes last (edits.get i) ∨
          ∃ j ∈ places, j < i ∧ (edits.get j).overlaps (edits.get i) := by
  induction edits generalizing last with
  | nil => exact ⟨[], .nil, rfl, fun i => i.elim0⟩
  | cons e rest ih =>
    have hsucc {places : List (Fin rest.length)} (h : places.Pairwise (· < ·)) :
        (places.map Fin.succ).Pairwise (· < ·) :=
      h.map _ (fun _ _ => Fin.succ_lt_succ_iff.mpr)
    by_cases hclash : clashes last e
    · obtain ⟨places, hordered, hselect, hout⟩ := ih last
      refine ⟨places.map Fin.succ, hsucc hordered, ?_, ?_⟩
      · rw [select_cons_of_clashes hclash, hselect, List.map_map]
        rfl
      · intro i hi
        cases i using Fin.cases with
        | zero => exact .inl hclash
        | succ i =>
          rcases hout i (fun h => hi (List.mem_map_of_mem h)) with h | ⟨j, hj, hlt, h⟩
          · exact .inl h
          · exact .inr ⟨j.succ, List.mem_map_of_mem hj, Fin.succ_lt_succ_iff.mpr hlt, h⟩
    · obtain ⟨places, hordered, hselect, hout⟩ := ih (some e)
      refine ⟨0 :: places.map Fin.succ, ?_, ?_, ?_⟩
      · refine List.pairwise_cons.mpr ⟨?_, hsucc hordered⟩
        intro j hj
        obtain ⟨j, -, rfl⟩ := List.mem_map.mp hj
        exact Fin.succ_pos j
      · rw [select_cons_of_not_clashes hclash, hselect, List.map_cons, List.map_map]
        rfl
      · intro i hi
        rw [List.mem_cons, not_or] at hi
        obtain ⟨hzero, hi⟩ := hi
        cases i using Fin.cases with
        | zero => exact absurd rfl hzero
        | succ i =>
          -- what clashes with the first edit now clashes with one that was kept
          rcases hout i (fun h => hi (List.mem_map_of_mem h)) with h | ⟨j, hj, hlt, h⟩
          · exact .inr ⟨0, List.mem_cons_self, Fin.succ_pos i, h⟩
          · exact .inr ⟨j.succ, List.mem_cons_of_mem _ (List.mem_map_of_mem hj),
              Fin.succ_lt_succ_iff.mpr hlt, h⟩

theorem accepted_isMaximalChoice (edits : List Edit) :
    IsMaximalChoice (sort edits) (accepted edits) := by
  obtain ⟨places, hordered, hselect, hout⟩ := exists_places_select none (sort edits)
  refine ⟨places, hordered, hselect, ?_⟩
  intro i hi
  rcases hout i hi with h | h
  · exact absurd h Bool.false_ne_true
  · exact h

/-- Of two edits in order that do not overlap, the second starts behind the first. This
holds of empty ranges, too: one at the start of another range comes first. -/
theorem stop_le_start {a b : Edit} (hbefore : before a b) (hb : b.start ≤ b.stop)
    (h : ¬ a.overlaps b) : a.stop ≤ b.start := by
  rw [before_iff] at hbefore
  rw [overlaps_iff] at h
  omega

/-- All edits that are kept later start behind the last one that was kept. -/
theorem stop_le_start_of_mem_select {last e : Edit} {edits : List Edit}
    (hlast : last.start ≤ last.stop) (hwell : ∀ e ∈ edits, e.start ≤ e.stop)
    (hordered : (last :: edits).Pairwise (fun a b => before a b))
    (he : e ∈ select (some last) edits) : last.stop ≤ e.start := by
  induction edits generalizing last with
  | nil => exact absurd he List.not_mem_nil
  | cons next rest ih =>
    obtain ⟨hfirst, hrest⟩ := List.pairwise_cons.mp hordered
    obtain ⟨hnext, hwellRest⟩ := List.forall_mem_cons.mp hwell
    by_cases hclash : clashes (some last) next
    · rw [select_cons_of_clashes hclash] at he
      exact ih hlast hwellRest (hordered.sublist ((List.sublist_cons_self _ _).cons_cons _)) he
    · rw [select_cons_of_not_clashes hclash] at he
      have hbehind : last.stop ≤ next.start :=
        stop_le_start (hfirst next List.mem_cons_self) hnext hclash
      rcases List.mem_cons.mp he with rfl | he
      · exact hbehind
      · -- the edit just kept lies in between
        have hlater : next.stop ≤ e.start := ih hnext hwellRest hrest he
        omega

theorem pairwise_select {last : Option Edit} {edits : List Edit}
    (hwell : ∀ e ∈ edits, e.start ≤ e.stop)
    (hordered : edits.Pairwise (fun a b => before a b)) :
    (select last edits).Pairwise (fun a b => a.stop ≤ b.start) := by
  induction edits generalizing last with
  | nil => exact .nil
  | cons e rest ih =>
    obtain ⟨he, hwellRest⟩ := List.forall_mem_cons.mp hwell
    have hrest := (List.pairwise_cons.mp hordered).2
    by_cases hclash : clashes last e
    · rw [select_cons_of_clashes hclash]
      exact ih hwellRest hrest
    · rw [select_cons_of_not_clashes hclash]
      refine List.pairwise_cons.mpr ⟨?_, ih hwellRest hrest⟩
      intro next hnext
      exact stop_le_start_of_mem_select he hwellRest hordered hnext

theorem accepted_sublist (edits : List Edit) : (accepted edits).Sublist (sort edits) :=
  select_sublist none (sort edits)

theorem pairwise_accepted {edits : List Edit} (hwell : ∀ e ∈ edits, e.start ≤ e.stop) :
    (accepted edits).Pairwise (fun a b => a.stop ≤ b.start) := by
  refine pairwise_select ?_ (pairwise_sort edits)
  intro e he
  exact hwell e ((sort_perm edits).mem_iff.mp he)

theorem overlaps_eq_false_of_stop_le {a b : Edit} (h : a.stop ≤ b.start) :
    a.overlaps b = false := by
  rw [Bool.eq_false_iff, ne_eq, overlaps_iff]
  omega

theorem accepted_accepted {edits : List Edit} (hwell : ∀ e ∈ edits, e.start ≤ e.stop) :
    accepted (accepted edits) = accepted edits := by
  have hapart := (pairwise_accepted hwell).imp overlaps_eq_false_of_stop_le
  have hordered := (pairwise_sort edits).sublist (accepted_sublist edits)
  rw [accepted_of_pairwise hapart, sort_of_pairwise hordered]

theorem clashes_congr {last last' : Option Edit} {a b : Edit}
    (hlast : last.map range = last'.map range) (h : a.range = b.range) :
    clashes last a = clashes last' b := by
  cases last with
  | none =>
    obtain rfl : last' = none := Option.map_eq_none_iff.mp hlast.symm
    rfl
  | some c =>
    obtain ⟨d, rfl, hd⟩ := Option.map_eq_some_iff.mp hlast.symm
    exact overlaps_eq_of_range_eq hd.symm h

/-- The selection reads the ranges of edits and nothing else. -/
theorem map_range_select_congr {last last' : Option Edit} {xs ys : List Edit}
    (hlast : last.map range = last'.map range) (h : xs.map range = ys.map range) :
    (select last xs).map range = (select last' ys).map range := by
  induction xs generalizing last last' ys with
  | nil =>
    obtain rfl : ys = [] := List.map_eq_nil_iff.mp h.symm
    rfl
  | cons x xs ih =>
    obtain ⟨y, ys, rfl, hy, hys⟩ := List.map_eq_cons_iff.mp h.symm
    have hclash : clashes last x = clashes last' y := clashes_congr hlast hy.symm
    by_cases hx : clashes last x
    · have hy : clashes last' y := hclash ▸ hx
      rw [select_cons_of_clashes hx, select_cons_of_clashes hy]
      exact ih hlast hys.symm
    · have hy' : ¬ clashes last' y := hclash ▸ hx
      have hnext : (some x).map range = (some y).map range := congrArg some hy.symm
      rw [select_cons_of_not_clashes hx, select_cons_of_not_clashes hy', List.map_cons,
        List.map_cons, hy, ih hnext hys.symm]

theorem map_range_accepted_of_perm {xs ys : List Edit} (h : xs.Perm ys) :
    (accepted xs).map range = (accepted ys).map range :=
  map_range_select_congr rfl (map_range_sort_of_perm h)

/-- Sorted edits from one of a later range on have the earlier range no more. -/
theorem filter_range_eq_nil {first e : Edit} {rest : List Edit}
    (hordered : (first :: e :: rest).Pairwise (fun a b => before a b))
    (he : e.range ≠ first.range) :
    (e :: rest).filter (fun e => e.range = first.range) = [] := by
  obtain ⟨hfirst, hrest⟩ := List.pairwise_cons.mp hordered
  rw [List.filter_eq_nil_iff]
  intro x hx hrange
  have hrange : x.range = first.range := of_decide_eq_true hrange
  -- such an edit would put the later range in front of the earlier one
  have hback : before e first := by
    rcases List.mem_cons.mp hx with rfl | hx
    · exact before_of_range_eq hrange
    · exact before_trans e x first ((List.pairwise_cons.mp hrest).1 x hx)
        (before_of_range_eq hrange)
  exact he (range_eq_of_before hback (hfirst e List.mem_cons_self))

/-- Behind an edit that clashes with the last one kept, none of its range is kept. -/
theorem filter_select_of_clashes {last : Option Edit} {first : Edit} {edits : List Edit}
    (hclash : clashes last first)
    (hordered : (first :: edits).Pairwise (fun a b => before a b)) :
    (select last edits).filter (fun e => e.range = first.range) = [] := by
  induction edits with
  | nil => rfl
  | cons e rest ih =>
    by_cases he : e.range = first.range
    · have hclash' : clashes last e := clashes_congr rfl he ▸ hclash
      rw [select_cons_of_clashes hclash']
      exact ih (hordered.sublist ((List.sublist_cons_self _ _).cons_cons _))
    · have hsub := (select_sublist last (e :: rest)).filter (fun e => e.range = first.range)
      rw [filter_range_eq_nil hordered he] at hsub
      exact List.sublist_nil.mp hsub

/-- Of sorted edits for one range that is not empty, only the first one can be kept. -/
theorem filter_select_prefix (last : Option Edit) {edits : List Edit}
    (hordered : edits.Pairwise (fun a b => before a b)) {r : Int × Int} (hr : r.1 < r.2) :
    (select last edits).filter (fun e => e.range = r) <+:
      (edits.filter (fun e => e.range = r)).take 1 := by
  induction edits generalizing last with
  | nil => exact List.nil_prefix
  | cons e rest ih =>
    have hrest := (List.pairwise_cons.mp hordered).2
    by_cases he : e.range = r
    · subst he
      have hself : clashes (some e) e := overlaps_iff.mpr ⟨hr, hr⟩
      by_cases hclash : clashes last e
      · rw [select_cons_of_clashes hclash, filter_select_of_clashes hclash hordered]
        exact List.nil_prefix
      · rw [select_cons_of_not_clashes hclash]
        simp [filter_select_of_clashes hself hordered]
    · by_cases hclash : clashes last e
      · rw [select_cons_of_clashes hclash, List.filter_cons_of_neg (by simpa using he)]
        exact ih last hrest
      · rw [select_cons_of_not_clashes hclash, List.filter_cons_of_neg (by simpa using he),
          List.filter_cons_of_neg (by simpa using he)]
        exact ih (some e) hrest

theorem filter_accepted_prefix (edits : List Edit) {r : Int × Int} (hr : r.1 < r.2) :
    (accepted edits).filter (fun e => e.range = r) <+:
      (edits.filter (fun e => e.range = r)).take 1 := by
  rw [← filter_sort edits r]
  exact filter_select_prefix none (pairwise_sort edits) hr

end Edit

namespace Finding

theorem outcome_edits (findings : List Finding) :
    (edits findings).outcome = .ok (Edit.accepted (findings.flatMap fixes)) := rfl

/-- **Accepted edits are disjoint, in order and maximal.** They are a choice of the sorted
edits of all findings, each ends before the next one starts, and each edit left out overlaps
an accepted one before it. So edits that do not overlap are all accepted, and accepted edits
are accepted again. -/
theorem edits_isMaximalChoice {findings : List Finding}
    (hwell : ∀ f ∈ findings, ∀ e ∈ f.fixes, e.start ≤ e.stop) :
    ∃ sorted chosen : List Edit,
      Edit.IsStableSort (findings.flatMap fixes) sorted ∧
      (edits findings).outcome = .ok chosen ∧
      Edit.IsMaximalChoice sorted chosen ∧
      chosen.Pairwise (fun a b => a.stop ≤ b.start) ∧
      chosen.Pairwise (fun a b => a.overlaps b = false) ∧
      ((findings.flatMap fixes).Pairwise (fun a b => a.overlaps b = false) → chosen = sorted) ∧
      ∀ again : List Finding, again.flatMap fixes = chosen →
        (edits again).outcome = .ok chosen := by
  have hall : ∀ e ∈ findings.flatMap fixes, e.start ≤ e.stop := by
    intro e he
    obtain ⟨f, hf, he⟩ := List.mem_flatMap.mp he
    exact hwell f hf e he
  have hapart := Edit.pairwise_accepted hall
  refine ⟨Edit.sort (findings.flatMap fixes), Edit.accepted (findings.flatMap fixes),
    Edit.sort_isStableSort _, outcome_edits findings, Edit.accepted_isMaximalChoice _, hapart,
    hapart.imp Edit.overlaps_eq_false_of_stop_le, Edit.accepted_of_pairwise, ?_⟩
  intro again hagain
  rw [outcome_edits, hagain, Edit.accepted_accepted hall]

/-- A finding with an edit for each of the given ranges. -/
def withFixes (rule : String) (ranges : List (Int × Int)) : Finding where
  rule := rule
  message := "replace"
  file := "test.php"
  start := 0
  stop := 12
  severity := .text "warn"
  fixes := ranges.map (fun r => { start := r.1, stop := r.2, replacement := rule })

/-- Two rules that replace the same range, with empty ranges at its start, inside of it and
at its end. -/
def crowdedFindings : List Finding :=
  [withFixes "a" [(3, 8), (5, 5), (8, 8)], withFixes "b" [(3, 8), (3, 3)]]

theorem edits_isMaximalChoice_crowded :
    (∀ f ∈ crowdedFindings, ∀ e ∈ f.fixes, e.start ≤ e.stop) ∧
      ∃ sorted chosen : List Edit,
        Edit.IsStableSort (crowdedFindings.flatMap fixes) sorted ∧
        (edits crowdedFindings).outcome = .ok chosen ∧
        Edit.IsMaximalChoice sorted chosen ∧
        chosen.Pairwise (fun a b => a.stop ≤ b.start) ∧
        chosen.Pairwise (fun a b => a.overlaps b = false) ∧
        ((crowdedFindings.flatMap fixes).Pairwise (fun a b => a.overlaps b = false) →
          chosen = sorted) ∧
        ∀ again : List Finding, again.flatMap fixes = chosen →
          (edits again).outcome = .ok chosen :=
  have hwell : ∀ f ∈ crowdedFindings, ∀ e ∈ f.fixes, e.start ≤ e.stop := by decide
  ⟨hwell, edits_isMaximalChoice hwell⟩

/-- **Which ranges are edited does not depend on the order of the findings,** whatever the
ranges are. Of several edits for one range that is not empty, at most one is accepted, and
it is the first one given. -/
theorem map_range_edits_of_perm {xs ys : List Finding}
    (h : (xs.flatMap fixes).Perm (ys.flatMap fixes)) :
    ∃ chosen chosen' : List Edit,
      (edits xs).outcome = .ok chosen ∧ (edits ys).outcome = .ok chosen' ∧
      chosen.map Edit.range = chosen'.map Edit.range ∧
      ∀ r : Int × Int, r.1 < r.2 →
        chosen.filter (fun e => e.range = r) <+:
            ((xs.flatMap fixes).filter (fun e => e.range = r)).take 1 ∧
          chosen'.filter (fun e => e.range = r) <+:
            ((ys.flatMap fixes).filter (fun e => e.range = r)).take 1 := by
  refine ⟨Edit.accepted (xs.flatMap fixes), Edit.accepted (ys.flatMap fixes),
    outcome_edits xs, outcome_edits ys, Edit.map_range_accepted_of_perm h, ?_⟩
  intro r hr
  exact ⟨Edit.filter_accepted_prefix _ hr, Edit.filter_accepted_prefix _ hr⟩

/-- Findings of the same edits in another order, with one whose range runs backwards. -/
theorem map_range_edits_of_perm_reversed :
    ((withFixes "c" [(9, 4)] :: crowdedFindings).flatMap fixes).Perm
        ((crowdedFindings.reverse ++ [withFixes "c" [(9, 4)]]).flatMap fixes) ∧
      ∃ chosen chosen' : List Edit,
        (edits (withFixes "c" [(9, 4)] :: crowdedFindings)).outcome = .ok chosen ∧
        (edits (crowdedFindings.reverse ++ [withFixes "c" [(9, 4)]])).outcome = .ok chosen' ∧
        chosen.map Edit.range = chosen'.map Edit.range ∧
        ∀ r : Int × Int, r.1 < r.2 →
          chosen.filter (fun e => e.range = r) <+:
              (((withFixes "c" [(9, 4)] :: crowdedFindings).flatMap fixes).filter
                (fun e => e.range = r)).take 1 ∧
            chosen'.filter (fun e => e.range = r) <+:
              (((crowdedFindings.reverse ++ [withFixes "c" [(9, 4)]]).flatMap fixes).filter
                (fun e => e.range = r)).take 1 :=
  have h : ((withFixes "c" [(9, 4)] :: crowdedFindings).flatMap fixes).Perm
      ((crowdedFindings.reverse ++ [withFixes "c" [(9, 4)]]).flatMap fixes) := by
    decide
  ⟨h, map_range_edits_of_perm h⟩

end Finding

end StrictEquality
