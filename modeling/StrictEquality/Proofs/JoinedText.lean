import StrictEquality.Text.Lines

/-!
# Lines of joined texts

Texts that are joined by a mark are found again by splitting at it. So joining two texts by a
newline puts their lines one after another. Byte offsets up to
the end of the first text stay in its lines, and those behind it count from the start
of the second.

Main statements: `Text.lines_append`, `Text.lineAt_append_of_le`, `Text.lineAt_append_of_lt`.
-/

namespace StrictEquality

namespace Text

theorem splitAt_of_not_mem {mark : Char} {cs : List Char} (h : mark ∉ cs) :
    splitAt mark cs = [cs] := by
  induction cs with
  | nil => rfl
  | cons c cs ih =>
    rw [List.mem_cons, not_or] at h
    rw [splitAt, if_neg (Ne.symm h.1), ih h.2]

theorem splitAt_append (mark : Char) (xs ys : List Char) :
    splitAt mark (xs ++ mark :: ys) = splitAt mark xs ++ splitAt mark ys := by
  induction xs with
  | nil => simp [splitAt]
  | cons c cs ih =>
    rw [List.cons_append, splitAt, splitAt, ih]
    by_cases hc : c = mark
    · rw [if_pos hc, if_pos hc, List.cons_append]
    · -- the character joins the first piece of the rest, of which there is one
      rw [if_neg hc, if_neg hc]
      obtain ⟨piece, pieces, hpieces⟩ := List.exists_cons_of_ne_nil (splitAt_ne_nil mark cs)
      simp only [hpieces, List.cons_append]

/-- A piece between marks has none, and its characters are those of the text. -/
theorem not_mem_and_subset_of_mem_splitAt {mark : Char} {cs piece : List Char}
    (h : piece ∈ splitAt mark cs) : mark ∉ piece ∧ piece ⊆ cs := by
  induction cs generalizing piece with
  | nil =>
    obtain rfl : piece = [] := List.mem_singleton.mp h
    exact ⟨List.not_mem_nil, List.Subset.refl _⟩
  | cons c cs ih =>
    obtain ⟨first, rest, hsplit⟩ := List.exists_cons_of_ne_nil (splitAt_ne_nil mark cs)
    rw [hsplit] at ih
    rw [splitAt, hsplit] at h
    by_cases hc : c = mark
    · rw [if_pos hc] at h
      rcases List.mem_cons.mp h with rfl | h
      · exact ⟨List.not_mem_nil, List.nil_subset _⟩
      · exact ⟨(ih h).1, List.subset_cons_of_subset c (ih h).2⟩
    · rw [if_neg hc] at h
      rcases List.mem_cons.mp h with rfl | h
      · obtain ⟨hmark, hsub⟩ := ih List.mem_cons_self
        exact ⟨List.not_mem_cons_of_ne_of_not_mem (Ne.symm hc) hmark, List.cons_subset_cons c hsub⟩
      · obtain ⟨hmark, hsub⟩ := ih (List.mem_cons_of_mem _ h)
        exact ⟨hmark, List.subset_cons_of_subset c hsub⟩

/-- Pieces without the mark that are joined with it are found again. -/
theorem splitAt_intercalate {mark : Char} {pieces : List (List Char)} (hne : pieces ≠ [])
    (h : ∀ piece ∈ pieces, mark ∉ piece) : splitAt mark ([mark].intercalate pieces) = pieces := by
  induction pieces with
  | nil => exact absurd rfl hne
  | cons piece pieces ih =>
    obtain ⟨hpiece, hpieces⟩ := List.forall_mem_cons.mp h
    by_cases hlast : pieces = []
    · subst hlast
      rw [List.intercalate_singleton, splitAt_of_not_mem hpiece]
    · rw [List.intercalate_cons_of_ne_nil hlast, List.append_assoc, List.singleton_append,
        splitAt_append, splitAt_of_not_mem hpiece, ih hlast hpieces, List.singleton_append]

theorem intercalate_append_singleton {mark : Char} {pieces : List (List Char)}
    (hne : pieces ≠ []) (piece : List Char) :
    [mark].intercalate (pieces ++ [piece]) = [mark].intercalate pieces ++ mark :: piece := by
  induction pieces with
  | nil => exact absurd rfl hne
  | cons first pieces ih =>
    by_cases hlast : pieces = []
    · simp [hlast]
    · have hmore : pieces ++ [piece] ≠ [] := by simp
      rw [List.cons_append, List.intercalate_cons_of_ne_nil hmore, ih hlast,
        List.intercalate_cons_of_ne_nil hlast, List.append_assoc _ _ (mark :: piece)]

/-- The lines of two texts joined by a newline are those of the one and those of the
other. -/
theorem lines_append (xs ys : List Char) : lines (xs ++ '\n' :: ys) = lines xs ++ lines ys :=
  splitAt_append '\n' xs ys

theorem lines_of_not_mem {cs : List Char} (h : '\n' ∉ cs) : lines cs = [cs] :=
  splitAt_of_not_mem h

theorem length_lines_cons (c : Char) (cs : List Char) :
    (lines (c :: cs)).length = (if c = '\n' then 1 else 0) + (lines cs).length := by
  rw [lines, splitAt]
  by_cases hc : c = '\n'
  · rw [if_pos hc, if_pos hc, List.length_cons, Nat.add_comm]
    rfl
  · rw [if_neg hc, if_neg hc, Nat.zero_add, lines]
    obtain ⟨piece, pieces, hpieces⟩ := List.exists_cons_of_ne_nil (splitAt_ne_nil '\n' cs)
    rw [hpieces]
    rfl

theorem byteLength_append (xs ys : List Char) :
    byteLength (xs ++ ys) = byteLength xs + byteLength ys := by
  induction xs with
  | nil => simp [byteLength]
  | cons c cs ih => rw [List.cons_append, byteLength, byteLength, ih, Nat.add_assoc]

@[simp]
theorem newlinesBefore_zero (cs : List Char) : newlinesBefore 0 cs = 0 := by
  cases cs <;> rfl

/-- The newlines before an offset in a joined text lie before it in the first part, or
before what is left of it in the second. -/
theorem newlinesBefore_append (offset : Nat) (xs ys : List Char) :
    newlinesBefore offset (xs ++ ys) =
      newlinesBefore offset xs + newlinesBefore (offset - byteLength xs) ys := by
  induction xs generalizing offset with
  | nil => simp [newlinesBefore, byteLength]
  | cons c cs ih =>
    cases offset with
    | zero => simp
    | succ n =>
      -- each character takes its bytes off the offset, in the first text as in the joined one
      rw [List.cons_append, newlinesBefore, newlinesBefore, ih, byteLength, Nat.sub_sub,
        Nat.add_assoc]

theorem newlinesBefore_lt_length_lines (offset : Nat) (cs : List Char) :
    newlinesBefore offset cs < (lines cs).length := by
  induction cs generalizing offset with
  | nil => exact Nat.zero_lt_one
  | cons c cs ih =>
    cases offset with
    | zero =>
      rw [newlinesBefore_zero]
      exact List.length_pos_iff.mpr (splitAt_ne_nil '\n' (c :: cs))
    | succ n =>
      -- a first character that is a newline adds one to both sides
      rw [newlinesBefore, length_lines_cons]
      exact Nat.add_lt_add_left (ih _) _

/-- An offset at or past the end of a text is past all of its newlines, one less than it
has lines. -/
theorem newlinesBefore_of_le {offset : Nat} {cs : List Char} (h : byteLength cs ≤ offset) :
    newlinesBefore offset cs + 1 = (lines cs).length := by
  induction cs generalizing offset with
  | nil => rfl
  | cons c cs ih =>
    rw [byteLength] at h
    -- a character has a byte at least, so the offset is not the first one
    have hpos : 0 < c.utf8Size := c.utf8Size_pos
    obtain ⟨n, rfl⟩ : ∃ n, offset = n + 1 := ⟨offset - 1, by omega⟩
    have hrest : byteLength cs ≤ n + 1 - c.utf8Size := by omega
    rw [newlinesBefore, length_lines_cons, Nat.add_assoc, ih hrest]

/-- The line of an offset counts the newlines before it, also at and past the end. -/
theorem lineAt_natCast (cs : List Char) (n : Nat) :
    lineAt cs (n : Int) = newlinesBefore n cs + 1 := by
  have hnonneg : ¬ (n : Int) < 0 := by omega
  rw [lineAt, if_neg hnonneg, Int.toNat_natCast]
  by_cases hend : (byteLength cs : Int) ≤ n
  · rw [if_pos hend, newlinesBefore_of_le (Int.ofNat_le.mp hend)]
  · rw [if_neg hend]

theorem lineAt_of_neg (cs : List Char) {offset : Int} (h : offset < 0) : lineAt cs offset = 1 := by
  rw [lineAt, if_pos h]

theorem lineAt_pos (cs : List Char) (offset : Int) : 1 ≤ lineAt cs offset := by
  by_cases hneg : offset < 0
  · exact Nat.le_of_eq (lineAt_of_neg cs hneg).symm
  · obtain ⟨n, rfl⟩ := Int.eq_ofNat_of_zero_le (Int.not_lt.mp hneg)
    rw [lineAt_natCast]
    exact Nat.le_add_left 1 _

theorem lineAt_le_length_lines (cs : List Char) (offset : Int) :
    lineAt cs offset ≤ (lines cs).length := by
  by_cases hneg : offset < 0
  · rw [lineAt_of_neg cs hneg]
    exact List.length_pos_iff.mpr (splitAt_ne_nil '\n' cs)
  · obtain ⟨n, rfl⟩ := Int.eq_ofNat_of_zero_le (Int.not_lt.mp hneg)
    rw [lineAt_natCast]
    exact newlinesBefore_lt_length_lines n cs

/-- Up to the newline in between, an offset in a joined text is on its line of the first
text. -/
theorem lineAt_append_of_le {xs : List Char} (ys : List Char) {offset : Int}
    (h : offset ≤ byteLength xs) : lineAt (xs ++ '\n' :: ys) offset = lineAt xs offset := by
  by_cases hneg : offset < 0
  · rw [lineAt_of_neg _ hneg, lineAt_of_neg _ hneg]
  · obtain ⟨n, rfl⟩ := Int.eq_ofNat_of_zero_le (Int.not_lt.mp hneg)
    have hnone : n - byteLength xs = 0 := by omega
    rw [lineAt_natCast, lineAt_natCast, newlinesBefore_append, hnone, newlinesBefore_zero,
      Nat.add_zero]

/-- Behind the newline in between, the lines of the first text are counted first. -/
theorem lineAt_append_of_lt {xs : List Char} (ys : List Char) {offset : Int}
    (h : byteLength xs < offset) :
    lineAt (xs ++ '\n' :: ys) offset =
      (lines xs).length + lineAt ys (offset - byteLength xs - 1) := by
  obtain ⟨m, rfl⟩ : ∃ m : Nat, offset = ((byteLength xs + (m + 1) : Nat) : Int) :=
    ⟨(offset - byteLength xs - 1).toNat, by omega⟩
  have hsecond : ((byteLength xs + (m + 1) : Nat) : Int) - byteLength xs - 1 = (m : Nat) := by
    omega
  have hnewline : newlinesBefore (m + 1) ('\n' :: ys) = 1 + newlinesBefore m ys := rfl
  rw [hsecond, lineAt_natCast, lineAt_natCast]
  calc newlinesBefore (byteLength xs + (m + 1)) (xs ++ '\n' :: ys) + 1
      = newlinesBefore (byteLength xs + (m + 1)) xs + newlinesBefore (m + 1) ('\n' :: ys) + 1 := by
        rw [newlinesBefore_append, Nat.add_sub_cancel_left]
    _ = newlinesBefore (byteLength xs + (m + 1)) xs + 1 + (newlinesBefore m ys + 1) := by
        rw [hnewline]
        omega
    _ = (lines xs).length + (newlinesBefore m ys + 1) := by
        rw [newlinesBefore_of_le (Nat.le_add_right _ _)]

end Text

end StrictEquality
