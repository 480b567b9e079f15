import Mathlib.Computability.Language

/-!
# Matches in turn

The matches of a language in a text as they are found in one pass from left to right:
where some start, the longest is taken and the pass goes on behind it.

## Main definitions

- `Text.Match` — a part of a text with its place
- `Text.MatchedInTurn` — the matches that the pass finds

Main statements: `Text.MatchedInTurn.exists_matches`, `Text.MatchedInTurn.unique`.
-/

namespace StrictEquality

namespace Text

/-- A part of a text, and how many characters stand before it. -/
structure Match where
  start : Nat
  text : List Char
  deriving DecidableEq, Repr

def Match.stop (m : Match) : Nat :=
  m.start + m.text.length

/-- `MatchedInTurn L place cs ms` says that a pass over `cs`, before which `place`
characters stand, finds the matches `ms` of the language `L`. -/
inductive MatchedInTurn (L : Language Char) : Nat → List Char → List Match → Prop
  | nil {place : Nat} : MatchedInTurn L place [] []
  | skip {place : Nat} {c : Char} {cs : List Char} {ms : List Match}
      (hnone : ∀ v ∈ L, ¬ v <+: c :: cs) (hrest : MatchedInTurn L (place + 1) cs ms) :
      MatchedInTurn L place (c :: cs) ms
  | take {place : Nat} {v cs : List Char} {ms : List Match} (hv : v ∈ L) (hne : v ≠ [])
      (hlongest : ∀ w ∈ L, w <+: v ++ cs → w.length ≤ v.length)
      (hrest : MatchedInTurn L (place + v.length) cs ms) :
      MatchedInTurn L place (v ++ cs) (⟨place, v⟩ :: ms)

namespace MatchedInTurn

variable {L : Language Char} {place : Nat} {cs : List Char} {ms : List Match}

theorem eq_nil (h : MatchedInTurn L place [] ms) : ms = [] := by
  generalize hcs : [] = cs at h
  cases h with
  | nil => rfl
  | skip => exact absurd hcs (List.cons_ne_nil _ _).symm
  | take _ hne => exact absurd (List.append_eq_nil_iff.mp hcs.symm).1 hne

/-- The pass finds one list of matches only. -/
theorem unique {ms' : List Match} (h : MatchedInTurn L place cs ms)
    (h' : MatchedInTurn L place cs ms') : ms = ms' := by
  induction h generalizing ms' with
  | nil => exact h'.eq_nil.symm
  | @skip place c cs ms hnone _ ih =>
    generalize htext : c :: cs = text at h'
    cases h' with
    | nil => exact absurd htext (List.cons_ne_nil _ _)
    | skip _ hrest =>
      obtain ⟨rfl, rfl⟩ := List.cons.inj htext
      exact ih hrest
    | @take _ w ds _ hw => exact absurd (htext ▸ List.prefix_append w ds) (hnone w hw)
  | @take place v cs ms hv hne hlongest _ ih =>
    generalize htext : v ++ cs = text at h'
    cases h' with
    | nil => exact absurd (List.append_eq_nil_iff.mp htext).1 hne
    | skip hnone => exact absurd (htext ▸ List.prefix_append v cs) (hnone v hv)
    | @take _ w ds _ hw _ hlongest' hrest =>
      -- both are the longest match that starts here
      have hvw : v.length ≤ w.length := hlongest' v hv (htext ▸ List.prefix_append v cs)
      have hwv : w.length ≤ v.length := hlongest w hw (htext ▸ List.prefix_append w ds)
      obtain ⟨rfl, rfl⟩ := List.append_inj htext (Nat.le_antisymm hvw hwv)
      rw [ih hrest]

theorem exists_longest (h : ∃ v ∈ L, v <+: cs) :
    ∃ v ∈ L, v <+: cs ∧ ∀ w ∈ L, w <+: cs → w.length ≤ v.length := by
  classical
  obtain ⟨v, hv, hstart⟩ := h
  let isLength := fun n => ∃ w ∈ L, w <+: cs ∧ w.length = n
  have hlength : isLength v.length := ⟨v, hv, hstart, rfl⟩
  obtain ⟨w, hw, hstart', hmax⟩ := Nat.findGreatest_spec hstart.length_le hlength
  refine ⟨w, hw, hstart', ?_⟩
  intro u hu huprefix
  have hulength : isLength u.length := ⟨u, hu, huprefix, rfl⟩
  rw [hmax]
  exact Nat.le_findGreatest huprefix.length_le hulength

theorem exists_matches (hL : [] ∉ L) (place : Nat) (cs : List Char) :
    ∃ ms, MatchedInTurn L place cs ms := by
  induction hn : cs.length using Nat.strong_induction_on generalizing place cs with
  | _ n ih =>
    cases cs with
    | nil => exact ⟨[], .nil⟩
    | cons c cs =>
      by_cases hsome : ∃ v ∈ L, v <+: c :: cs
      · obtain ⟨v, hv, ⟨rest, hrest⟩, hlongest⟩ := exists_longest hsome
        have hne : v ≠ [] := fun h => hL (h ▸ hv)
        have hpos : 0 < v.length := List.length_pos_iff.mpr hne
        have hlength := congrArg List.length hrest
        rw [List.length_append, hn] at hlength
        obtain ⟨ms, hms⟩ := ih rest.length (by omega) (place + v.length) rest rfl
        rw [← hrest] at hlongest ⊢
        exact ⟨_, .take hv hne hlongest hms⟩
      · obtain ⟨ms, hms⟩ := ih cs.length (by simp at hn; omega) (place + 1) cs rfl
        exact ⟨ms, .skip (fun v hv hstart => hsome ⟨v, hv, hstart⟩) hms⟩

/-- A stretch in which no match starts adds none. -/
theorem skip_append {xs : List Char}
    (hnone : ∀ y, y <:+ xs → y ≠ [] → ∀ v ∈ L, ¬ v <+: y ++ cs)
    (h : MatchedInTurn L (place + xs.length) cs ms) : MatchedInTurn L place (xs ++ cs) ms := by
  induction xs generalizing place with
  | nil => exact h
  | cons x xs ih =>
    rw [List.length_cons, Nat.add_comm xs.length 1, ← Nat.add_assoc] at h
    refine .skip (hnone (x :: xs) List.suffix_rfl (List.cons_ne_nil _ _)) (ih ?_ h)
    intro y hy
    exact hnone y (hy.trans (List.suffix_cons x xs))

theorem mem_of_mem (h : MatchedInTurn L place cs ms) {m : Match} (hm : m ∈ ms) :
    m.text ∈ L ∧ m.text <:+: cs := by
  induction h with
  | nil => exact absurd hm List.not_mem_nil
  | skip _ _ ih => exact ⟨(ih hm).1, (ih hm).2.trans (List.suffix_cons _ _).isInfix⟩
  | @take place v cs ms hv _ _ _ ih =>
    rcases List.mem_cons.mp hm with rfl | hm
    · exact ⟨hv, (List.prefix_append v cs).isInfix⟩
    · exact ⟨(ih hm).1, (ih hm).2.trans (List.suffix_append v cs).isInfix⟩

theorem le_start_of_mem (h : MatchedInTurn L place cs ms) {m : Match} (hm : m ∈ ms) :
    place ≤ m.start := by
  induction h with
  | nil => exact absurd hm List.not_mem_nil
  | skip _ _ ih => exact (Nat.le_succ _).trans (ih hm)
  | take _ _ _ _ ih =>
    rcases List.mem_cons.mp hm with rfl | hm
    · exact Nat.le_refl _
    · exact (Nat.le_add_right _ _).trans (ih hm)

theorem pairwise_stop_le_start (h : MatchedInTurn L place cs ms) :
    ms.Pairwise (fun a b => a.stop ≤ b.start) := by
  induction h with
  | nil => exact .nil
  | skip _ _ ih => exact ih
  | take _ _ _ hrest ih => exact List.pairwise_cons.mpr ⟨fun m hm => hrest.le_start_of_mem hm, ih⟩

end MatchedInTurn

end Text

end StrictEquality
