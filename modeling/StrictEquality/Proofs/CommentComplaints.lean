import StrictEquality.Proofs.CommentRoundTrip

/-!
# Complaints about suppression comments

The check of a text complains about comments that are not closed, and about those in which
nothing but blanks stands between some opening bracket and the closing one. A comment
suppresses nothing when it is not closed or lists blank pieces only. The two come apart
for separators without a pattern, which go without a complaint, and for a pattern that ends
in an opening bracket, which is complained about although it counts.

## Main definitions

- `Suppression.contributed` — the patterns that a comment adds to those of its line
- `Suppression.ListsNothing` — all pieces between the brackets are blank
- `Suppression.EndsInBracket` — an opening bracket stands last between the brackets
- `Suppression.Reviewed` — the comments of a line, and what the readings of its text make
  of them

Main statement: `Suppression.report_isSome_iff_contributed_eq_nil_iff`.
-/

namespace StrictEquality

namespace Text

theorem trim_eq_nil_iff {cs : List Char} : trim cs = [] ↔ ∀ c ∈ cs, isBlank c := by
  rw [trim, List.reverse_eq_nil_iff, skipBlanks, List.dropWhile_eq_nil_iff]
  constructor
  · intro h c hc
    rw [← List.takeWhile_append_dropWhile (p := isBlank) (l := cs)] at hc
    rcases List.mem_append.mp hc with hc | hc
    · exact List.mem_takeWhile_imp hc
    · exact h c (List.mem_reverse.mpr hc)
  · intro h c hc
    exact h c ((List.dropWhile_suffix _).subset (List.mem_reverse.mp hc))

/-- The characters of the pieces are those of the text that are no marks. -/
theorem forall_mem_splitAt_iff {mark : Char} {cs : List Char} {p : Char → Prop} :
    (∀ piece ∈ splitAt mark cs, ∀ c ∈ piece, p c) ↔ ∀ c ∈ cs, c = mark ∨ p c := by
  induction cs with
  | nil => simp [splitAt]
  | cons c cs ih =>
    obtain ⟨first, rest, hsplit⟩ := List.exists_cons_of_ne_nil (splitAt_ne_nil mark cs)
    rw [hsplit, List.forall_mem_cons] at ih
    rw [splitAt, hsplit, List.forall_mem_cons, ← ih]
    by_cases hc : c = mark
    · simp [hc]
    · simp [hc, and_assoc]

/-- A line number belongs to one line. -/
theorem eq_of_mem_zipIdx {α : Type} {xs : List α} {start n : Nat} {x y : α}
    (hx : (x, n) ∈ xs.zipIdx start) (hy : (y, n) ∈ xs.zipIdx start) : x = y := by
  rw [List.mem_zipIdx_iff_le_and_getElem?_sub] at hx hy
  exact Option.some.inj (hx.2.symm.trans hy.2)

/-- What is gathered for one number only comes from the element with this number. -/
theorem flatMap_zipIdx_of_mem {α β : Type} {xs : List α} {start n : Nat} {x : α}
    (h : (x, n) ∈ xs.zipIdx start) (f : α × Nat → List β) :
    (xs.zipIdx start).flatMap (fun p => if p.2 = n then f p else []) = f (x, n) := by
  induction xs generalizing start with
  | nil => cases h
  | cons y ys ih =>
    rw [List.zipIdx_cons] at h ⊢
    rw [List.flatMap_cons]
    rcases List.mem_cons.mp h with heq | hrest
    · -- all numbers behind the first are larger
      obtain ⟨rfl, rfl⟩ := Prod.mk.inj heq
      have hnone : (ys.zipIdx (n + 1)).flatMap (fun p => if p.2 = n then f p else []) = [] := by
        rw [List.flatMap_eq_nil_iff]
        intro p hp
        have hlarger := List.le_snd_of_mem_zipIdx hp
        rw [if_neg (by omega)]
      rw [hnone, if_pos rfl, List.append_nil]
    · have hlarger := List.le_snd_of_mem_zipIdx hrest
      rw [if_neg (by show start ≠ n; simp at hlarger; omega), List.nil_append]
      exact ih hrest

end Text

namespace Suppression

open Text (Match MatchedInTurn)

/-- The patterns that a comment adds to those of its line. -/
def contributed (m : Match) : List String :=
  if isRead m then pieces (Comment.ofMatch m).content else []

/-- All pieces between the brackets of a comment are blank. -/
def ListsNothing (content : List Char) : Prop :=
  ∀ piece ∈ Text.splitAt ',' content, ∀ c ∈ piece, Text.isBlank c

/-- Between the brackets of a comment stands another opening bracket, with nothing but
blanks behind it. -/
def EndsInBracket (content : List Char) : Prop :=
  ∃ before after : List Char, content = before ++ '[' :: after ∧ ∀ c ∈ after, Text.isBlank c

theorem pieces_eq_nil_iff {content : List Char} : pieces content = [] ↔ ListsNothing content := by
  rw [pieces, List.map_eq_nil_iff, List.filter_eq_nil_iff, List.forall_mem_map, ListsNothing]
  refine forall₂_congr fun piece _ => ?_
  rw [← Text.trim_eq_nil_iff]
  simp

theorem listsNothing_iff {content : List Char} :
    ListsNothing content ↔ ∀ c ∈ content, c = ',' ∨ Text.isBlank c :=
  Text.forall_mem_splitAt_iff

/-- A comment adds no pattern when it is not closed or lists nothing. -/
theorem contributed_eq_nil_iff {m : Match} :
    contributed m = [] ↔
      (Comment.ofMatch m).closed = false ∨ ListsNothing (Comment.ofMatch m).content := by
  rw [contributed, isRead]
  generalize Comment.ofMatch m = c
  obtain ⟨content, closed⟩ := c
  cases closed with
  | false => simp
  | true =>
    cases content with
    | nil => simp [ListsNothing, Text.splitAt]
    | cons c cs => simp [pieces_eq_nil_iff]

/-- Only blanks stand between some opening bracket and the closing one, if the contents are
blank or another opening bracket stands last in them. -/
theorem hasBlankBrackets_iff {content : List Char} :
    hasBlankBrackets content = true ↔
      (∀ c ∈ content, Text.isBlank c) ∨ EndsInBracket content := by
  have hlast : hasBlankBrackets content = true ↔
      ∃ before after : List Char, '[' :: content = before ++ '[' :: after ∧
        ∀ c ∈ after, Text.isBlank c := by
    rw [hasBlankBrackets, Option.any_eq_true]
    constructor
    · rintro ⟨c, hc, hbracket⟩
      obtain rfl : c = '[' := beq_iff_eq.mp hbracket
      obtain ⟨rest, hrest⟩ := List.head?_eq_some_iff.mp hc
      obtain ⟨tail, hblank, hsplit⟩ : ∃ tail : List Char, (∀ c ∈ tail, Text.isBlank c) ∧
          ('[' :: content).reverse = tail ++ '[' :: rest :=
        ⟨_, fun _ => List.mem_takeWhile_imp, by rw [← hrest, List.takeWhile_append_dropWhile]⟩
      refine ⟨rest.reverse, tail.reverse, ?_, fun c hc => hblank c (List.mem_reverse.mp hc)⟩
      rw [← List.reverse_inj, hsplit]
      simp
    · rintro ⟨before, after, hsplit, hblank⟩
      refine ⟨'[', ?_, rfl⟩
      have hall : ∀ c ∈ after.reverse, Text.isBlank c :=
        fun c hc => hblank c (List.mem_reverse.mp hc)
      rw [hsplit, List.reverse_append, List.reverse_cons, List.append_assoc,
        List.dropWhile_append_of_pos hall]
      rfl
  rw [hlast]
  constructor
  · rintro ⟨before, after, hsplit, hblank⟩
    cases before with
    | nil =>
      obtain ⟨-, rfl⟩ := List.cons.inj hsplit
      exact .inl hblank
    | cons c before =>
      obtain ⟨-, rfl⟩ := List.cons.inj hsplit
      exact .inr ⟨before, after, rfl, hblank⟩
  · rintro (hblank | ⟨before, after, rfl, hblank⟩)
    · exact ⟨[], content, rfl, hblank⟩
    · exact ⟨'[' :: before, after, rfl, hblank⟩

/-- What the check says of a closed comment. -/
theorem report_isSome_iff {m : Match} :
    (report m).isSome ↔ (Comment.ofMatch m).closed = false ∨
      (∀ c ∈ (Comment.ofMatch m).content, Text.isBlank c) ∨
        EndsInBracket (Comment.ofMatch m).content := by
  rw [report, Option.isSome_map, Comment.complaint?, ← hasBlankBrackets_iff]
  generalize Comment.ofMatch m = c
  obtain ⟨content, closed⟩ := c
  cases closed with
  | false => simp
  | true => by_cases hblank : hasBlankBrackets content <;> simp [hblank]

/-- A comment that lists nothing is blank, but for the separators. -/
theorem ListsNothing.comma_mem_or {content : List Char} (h : ListsNothing content) :
    ',' ∈ content ∨ ∀ c ∈ content, Text.isBlank c := by
  by_cases hcomma : ',' ∈ content
  · exact .inl hcomma
  · refine .inr fun c hc => (listsNothing_iff.mp h c hc).resolve_left ?_
    rintro rfl
    exact hcomma hc

/-- A comment that ends in an opening bracket lists at least this bracket. -/
theorem EndsInBracket.not_listsNothing {content : List Char} (h : EndsInBracket content) :
    ¬ ListsNothing content := by
  obtain ⟨before, after, rfl, -⟩ := h
  intro hnothing
  rcases listsNothing_iff.mp hnothing '[' (by simp) with hcomma | hblank
  · exact absurd hcomma (by decide)
  · exact absurd hblank (by decide)

/-- The check judges a comment by what it suppresses, unless the comment is closed and
consists of separators or ends in an opening bracket. -/
theorem report_isSome_iff_contributed_iff {m : Match} :
    ((report m).isSome ↔ contributed m = []) ↔
      ¬ ((Comment.ofMatch m).closed ∧
        (ListsNothing (Comment.ofMatch m).content ∧ ',' ∈ (Comment.ofMatch m).content ∨
          EndsInBracket (Comment.ofMatch m).content)) := by
  rw [report_isSome_iff, contributed_eq_nil_iff]
  generalize Comment.ofMatch m = c
  obtain ⟨content, closed⟩ := c
  cases closed with
  | false => simp
  | true =>
    simp only [Bool.true_eq_false, false_or, true_and]
    constructor
    · rintro hjudged (⟨hnothing, hcomma⟩ | hends)
      · -- separators list nothing, but are no blanks either
        rcases hjudged.mpr hnothing with hblank | hends
        · exact absurd (hblank ',' hcomma) (by decide)
        · exact hends.not_listsNothing hnothing
      · exact hends.not_listsNothing (hjudged.mp (.inr hends))
    · intro hnone
      constructor
      · rintro (hblank | hends)
        · exact listsNothing_iff.mpr fun c hc => .inr (hblank c hc)
        · exact absurd (.inr hends) hnone
      · intro hnothing
        rcases hnothing.comma_mem_or with hcomma | hblank
        · exact absurd (.inl ⟨hnothing, hcomma⟩) hnone
        · exact .inl hblank

/-- Comments that are not read add nothing. -/
theorem flatMap_contributed (found : List Match) :
    found.flatMap contributed =
      (found.filter isRead).flatMap (fun m => pieces (Comment.ofMatch m).content) := by
  induction found with
  | nil => rfl
  | cons m rest ih =>
    rw [List.flatMap_cons, contributed, ih, List.filter_cons]
    split
    · rfl
    · rfl

/-- The patterns of a line of a text are those read from the line. -/
theorem patternsAt_of_mem {text line : List Char} {n : Nat}
    (h : (line, n) ∈ (Text.lines text).zipIdx 1) :
    (Suppressions.ofText text).patternsAt n = patterns line := by
  rw [Suppressions.patternsAt]
  cases hfind : (Suppressions.ofText text).byLine.find? (fun e => e.1 == n) with
  | none =>
    -- a line with patterns would have been found
    by_contra hne
    have hmem : (n, patterns line) ∈ (Suppressions.ofText text).byLine := by
      refine List.mem_filter.mpr ⟨List.mem_map.mpr ⟨(line, n), h, rfl⟩, ?_⟩
      simpa using Ne.symm hne
    have hother := List.find?_eq_none.mp hfind _ hmem
    simp at hother
  | some e =>
    have hnumber := List.find?_some hfind
    obtain ⟨⟨other, k⟩, hother, rfl⟩ :=
      List.mem_map.mp (List.mem_filter.mp (List.mem_of_find?_eq_some hfind)).1
    obtain rfl : k = n := beq_iff_eq.mp hnumber
    obtain rfl := Text.eq_of_mem_zipIdx hother h
    rfl

/-- The complaints about a line of a text are those about its comments. -/
theorem complaints_of_mem {text line : List Char} {n : Nat}
    (h : (line, n) ∈ (Text.lines text).zipIdx 1) :
    ((validate text).filter (fun e => e.1 = n)).map Prod.snd = complaints line := by
  have hfilter (p : List Char × Nat) :
      ((complaints p.1).map (fun c => (p.2, c))).filter (fun e => e.1 = n) =
        if p.2 = n then (complaints p.1).map (fun c => (p.2, c)) else [] := by
    by_cases hnumber : p.2 = n
    · simp [hnumber]
    · simp [hnumber]
  rw [validate, List.filter_flatMap]
  simp only [hfilter]
  rw [Text.flatMap_zipIdx_of_mem h, List.map_map]
  exact List.map_id _

/-- The comments of a line, and what the two readings of its text make of them. -/
structure Reviewed (text : List Char) (n : Nat) (line : List Char) (found : List Match) :
    Prop where
  /-- The matches of the check. -/
  found_iff : ∀ ms, MatchedInTurn anyComment 0 line ms ↔ ms = found
  /-- The complaints about the line, in the order of its comments. -/
  complaints_eq : ((validate text).filter (fun e => e.1 = n)).map (fun e => e.2.message) =
    found.filterMap report
  patterns_eq : (Suppressions.ofText text).patternsAt n = (found.flatMap contributed).eraseDups

theorem exists_reviewed {text line : List Char} {n : Nat}
    (h : (line, n) ∈ (Text.lines text).zipIdx 1) :
    ∃ found : List Match, Reviewed text n line found := by
  have hline : line ∈ Text.lines text := List.fst_mem_of_mem_zipIdx h
  obtain ⟨found, hfound⟩ := exists_accounts (Text.not_mem_and_subset_of_mem_splitAt hline).1
  refine ⟨found, hfound.found_iff, ?_, ?_⟩
  · rw [← hfound.reports_eq, ← complaints_of_mem h, List.map_map]
    rfl
  · rw [patternsAt_of_mem h, hfound.patterns_eq, flatMap_contributed]

/-- A comment that the check sees is one of those matched in turn. -/
theorem Reviewed.exists_ofMatch_eq {text line : List Char} {n : Nat} {found : List Match}
    (h : Reviewed text n line found) (hline : '\n' ∉ line) {c : Comment}
    (hc : c ∈ comments line.length line) : ∃ m ∈ found, Comment.ofMatch m = c := by
  rw [comments_eq_map ((h.found_iff found).mpr rfl) hline (Nat.le_refl _)] at hc
  exact List.mem_map.mp hc

/-- **When the check judges comments by what they suppress.** A comment of a line of a text
adds no pattern to those of the line when it is not closed, or when all pieces between its
brackets are blank. The check complains about exactly these comments but for two kinds of
closed ones: it is silent about separators without a pattern, and it complains about a
pattern that ends in an opening bracket. -/
theorem report_isSome_iff_contributed_eq_nil_iff {text line : List Char} {n : Nat}
    (h : (line, n) ∈ (Text.lines text).zipIdx 1) :
    ∃ found : List Match, Reviewed text n line found ∧
      ∀ m ∈ found,
        (contributed m = [] ↔
          (Comment.ofMatch m).closed = false ∨ ListsNothing (Comment.ofMatch m).content) ∧
        (((report m).isSome ↔ contributed m = []) ↔
          ¬ ((Comment.ofMatch m).closed ∧
            (ListsNothing (Comment.ofMatch m).content ∧ ',' ∈ (Comment.ofMatch m).content ∨
              EndsInBracket (Comment.ofMatch m).content))) := by
  obtain ⟨found, hfound⟩ := exists_reviewed h
  exact ⟨found, hfound, fun m _ => ⟨contributed_eq_nil_iff, report_isSome_iff_contributed_iff⟩⟩

/-- Comments of all kinds on the second line of a text: one that is read, separators, and a
pattern that ends in an opening bracket. -/
def mixedText : List Char :=
  "$a;\n$b; // stricteq: ignore[x] # stricteq: ignore[ ,] // stricteq: ignore[y[ ]".toList

theorem report_isSome_iff_contributed_eq_nil_iff_mixed :
    let line := "$b; // stricteq: ignore[x] # stricteq: ignore[ ,] // stricteq: ignore[y[ ]".toList
    (line, 2) ∈ (Text.lines mixedText).zipIdx 1 ∧
      ∃ found : List Match, Reviewed mixedText 2 line found ∧
        ∀ m ∈ found,
          (contributed m = [] ↔
            (Comment.ofMatch m).closed = false ∨ ListsNothing (Comment.ofMatch m).content) ∧
          (((report m).isSome ↔ contributed m = []) ↔
            ¬ ((Comment.ofMatch m).closed ∧
              (ListsNothing (Comment.ofMatch m).content ∧ ',' ∈ (Comment.ofMatch m).content ∨
                EndsInBracket (Comment.ofMatch m).content))) := by
  intro line
  have hline : (line, 2) ∈ (Text.lines mixedText).zipIdx 1 := by decide
  exact ⟨hline, report_isSome_iff_contributed_eq_nil_iff hline⟩

/-- The check is silent about a comment that lists nothing, and complains about another one
that suppresses a pattern. -/
theorem validate_misjudged :
    let silent := "$a == $b; // stricteq: ignore[,]".toList
    let noisy := "$a == $b; // stricteq: ignore[a[]".toList
    (∃ found : List Match, Reviewed silent 1 silent found ∧ ∃ m ∈ found,
      contributed m = [] ∧ report m = none) ∧
    validate silent = [] ∧ (Suppressions.ofText silent).byLine = [] ∧
    (∃ found : List Match, Reviewed noisy 1 noisy found ∧ ∃ m ∈ found,
      contributed m = ["a["] ∧ report m = some "Empty suppression pattern") ∧
    validate noisy = [(1, .empty)] ∧ (Suppressions.ofText noisy).byLine = [(1, ["a["])] := by
  intro silent noisy
  obtain ⟨found, hfound⟩ := exists_reviewed (by decide : (silent, 1) ∈ (Text.lines silent).zipIdx 1)
  obtain ⟨m, hm, hsilent⟩ := hfound.exists_ofMatch_eq (by decide)
    (by decide : { content := [','], closed := true } ∈ comments silent.length silent)
  obtain ⟨found', hfound'⟩ := exists_reviewed (by decide : (noisy, 1) ∈ (Text.lines noisy).zipIdx 1)
  obtain ⟨m', hm', hnoisy⟩ := hfound'.exists_ofMatch_eq (by decide)
    (by decide : { content := ['a', '['], closed := true } ∈ comments noisy.length noisy)
  refine ⟨⟨found, hfound, m, hm, ?_, ?_⟩, by decide, by decide,
    ⟨found', hfound', m', hm', ?_, ?_⟩, by decide, by decide⟩
  · rw [contributed, isRead, hsilent]
    decide
  · rw [report, hsilent]
    decide
  · rw [contributed, isRead, hnoisy]
    decide
  · rw [report, hnoisy]
    decide

end Suppression

end StrictEquality
