import StrictEquality.Proofs.CommentGrammar
import StrictEquality.Proofs.MatchesInTurn

/-!
# The two readings of a line agree

The reading for patterns and the check look for comments of different forms, one after
another. They still see the same comments: the reading for patterns finds those that the
check finds closed and not empty, although it also looks inside of the others.

## Main definitions

- `Suppression.Comment.ofMatch` — a comment from the part of the line that it takes
- `Suppression.isRead` — whether it is closed and not empty
- `Suppression.Accounts` — what the two readings make of the comments of a line

Main statement: `Suppression.exists_accounts`.
-/

namespace StrictEquality

namespace Suppression

open Text (Match MatchedInTurn)

/-- The comment that a match is: what stands behind its opening bracket up to the closing
one, and whether it ends with a closing one. -/
def Comment.ofMatch (m : Match) : Comment where
  content := ((afterOpener? m.text).getD []).takeWhile (· != ']')
  closed := m.text.getLast? == some ']'

/-- Whether a match ends with a closing bracket and has something in its brackets. -/
def isRead (m : Match) : Bool :=
  (Comment.ofMatch m).closed && !(Comment.ofMatch m).content.isEmpty

/-- What the check reports of a match. -/
def report (m : Match) : Option String :=
  (Comment.ofMatch m).complaint?.map Complaint.message

theorem splitBracket_append {content : List Char} (h : ']' ∉ content) (tail : List Char) :
    splitBracket (content ++ ']' :: tail) = (content, ']' :: tail) := by
  have hall := forall_ne_bracket_iff.mpr h
  rw [splitBracket, List.takeWhile_append_of_pos hall, List.dropWhile_append_of_pos hall]
  simp

theorem splitBracket_of_not_mem {cs : List Char} (h : ']' ∉ cs) : splitBracket cs = (cs, []) := by
  have hall := forall_ne_bracket_iff.mpr h
  rw [splitBracket, List.takeWhile_eq_self_iff.mpr hall, List.dropWhile_eq_nil_iff.mpr hall]

variable {place : Nat} {o content : List Char}

theorem ofMatch_closed (ho : o ∈ opener) (h : ']' ∉ content) :
    Comment.ofMatch ⟨place, o ++ (content ++ [']'])⟩ = { content, closed := true } := by
  have hcontent := congrArg Prod.fst (splitBracket_append h [])
  rw [Comment.ofMatch, afterOpener?_append ho, ← List.append_assoc]
  simpa [splitBracket] using hcontent

theorem ofMatch_unclosed (ho : o ∈ opener) (h : ']' ∉ content) :
    Comment.ofMatch ⟨place, o ++ content⟩ = { content, closed := false } := by
  have hcontent := congrArg Prod.fst (splitBracket_of_not_mem h)
  have hlast : (o ++ content).getLast? ≠ some ']' := by
    intro hlast
    rcases List.mem_append.mp (List.mem_of_getLast? hlast) with hmem | hmem
    · exact bracket_not_mem_opener ho hmem
    · exact h hmem
  rw [Comment.ofMatch, afterOpener?_append ho, beq_eq_false_iff_ne.mpr hlast]
  exact congrArg (fun content => ({ content, closed := false } : Comment)) hcontent

theorem isRead_closed (ho : o ∈ opener) (h : ']' ∉ content) :
    isRead ⟨place, o ++ (content ++ [']'])⟩ = !content.isEmpty := by
  rw [isRead, ofMatch_closed ho h, Bool.true_and]

theorem isRead_unclosed (ho : o ∈ opener) (h : ']' ∉ content) :
    isRead ⟨place, o ++ content⟩ = false := by
  rw [isRead, ofMatch_unclosed ho h, Bool.false_and]

/-- What a match of the check is, in a line without newlines: a closed comment, or one
that takes the rest of the line. -/
theorem cases_of_longest {v cs : List Char} (hv : v ∈ anyComment)
    (hlongest : ∀ w ∈ anyComment, w <+: v ++ cs → w.length ≤ v.length)
    (hnewline : '\n' ∉ v ++ cs) :
    ∃ o ∈ opener, ∃ content : List Char, ']' ∉ content ∧
      (v = o ++ (content ++ [']']) ∨ (v = o ++ content ∧ cs = [])) := by
  obtain ⟨o, ho, content, ⟨hbracket, hcontent⟩, rfl | rfl⟩ := mem_anyComment_iff.mp hv
  · exact ⟨o, ho, content, hbracket, .inl rfl⟩
  · refine ⟨o, ho, content, hbracket, .inr ⟨rfl, ?_⟩⟩
    cases cs with
    | nil => rfl
    | cons c cs =>
      -- with the next character there would be a longer match
      have hlonger : o ++ (content ++ [c]) ∈ anyComment := by
        refine mem_anyComment_iff.mpr ⟨o, ho, ?_⟩
        by_cases hc : c = ']'
        · exact ⟨content, ⟨hbracket, hcontent⟩, .inl (hc ▸ rfl)⟩
        · have hc' : '\n' ≠ c := by
            rintro rfl
            exact hnewline (List.mem_append_right _ List.mem_cons_self)
          refine ⟨content ++ [c], ⟨?_, ?_⟩, .inr rfl⟩
          · simpa [hbracket] using Ne.symm hc
          · simpa [hcontent] using hc'
      have hlength := hlongest _ hlonger (by simp)
      simp only [List.length_append, List.length_singleton] at hlength
      omega

theorem opener_mem_anyComment (ho : o ∈ opener) : o ∈ anyComment :=
  mem_anyComment_iff.mpr ⟨o, ho, [], by simp, .inr (List.append_nil o).symm⟩

/-- Where a comment with something in its brackets starts, the check finds one, too. -/
theorem exists_anyComment_prefix {v cs : List Char} (hv : v ∈ readComment) (h : v <+: cs) :
    ∃ w ∈ anyComment, w <+: cs := by
  obtain ⟨o, ho, content, -, rfl⟩ := mem_readComment_iff.mp hv
  exact ⟨o, opener_mem_anyComment ho, (List.prefix_append _ _).trans h⟩

theorem readComment_mem_anyComment {v : List Char} (hv : v ∈ readComment)
    (hnewline : '\n' ∉ v) : v ∈ anyComment := by
  obtain ⟨o, ho, content, ⟨-, hbracket⟩, rfl⟩ := mem_readComment_iff.mp hv
  refine mem_anyComment_iff.mpr ⟨o, ho, content, ⟨hbracket, ?_⟩, .inl rfl⟩
  exact fun h => hnewline (by simp [h])

theorem nil_not_mem_anyComment : [] ∉ anyComment := by
  intro h
  obtain ⟨o, ho, content, -, h | h⟩ := mem_anyComment_iff.mp h
  all_goals exact ne_nil_of_mem_opener ho (List.append_eq_nil_iff.mp h.symm).1

theorem bracket_mem_of_mem_readComment {v : List Char} (hv : v ∈ readComment) : ']' ∈ v := by
  obtain ⟨o, -, content, -, rfl⟩ := mem_readComment_iff.mp hv
  simp

theorem matchedInTurn_of_bracket_not_mem {cs : List Char} (h : ']' ∉ cs) :
    MatchedInTurn readComment place cs [] := by
  have hnone : ∀ ys, ys <:+ cs → ys ≠ [] → ∀ v ∈ readComment, ¬ v <+: ys ++ [] := by
    intro ys hys _ v hv hstart
    rw [List.append_nil] at hstart
    exact h ((hstart.isInfix.trans hys.isInfix).subset (bracket_mem_of_mem_readComment hv))
  have hread : MatchedInTurn readComment place (cs ++ []) [] := .skip_append hnone .nil
  rwa [List.append_nil] at hread

/-- Neither an empty comment nor what it contains is read for patterns. -/
theorem no_readComment_in_empty {ys cs v : List Char} (ho : o ∈ opener)
    (hys : ys <:+ o ++ [']']) (hne : ys ≠ []) (hv : v ∈ readComment) : ¬ v <+: ys ++ cs := by
  rintro ⟨rest, hrest⟩
  obtain ⟨o', ho', content, ⟨hcontent, hbracket⟩, rfl⟩ := mem_readComment_iff.mp hv
  have hopens : afterOpener? (ys ++ cs) = some (content ++ [']'] ++ rest) :=
    afterOpener?_eq_some_iff.mpr ⟨o', ho', by rw [← hrest, List.append_assoc]⟩
  rcases List.suffix_concat_iff.mp hys with rfl | ⟨ys, rfl, ⟨xs, rfl⟩⟩
  · exact hne rfl
  rw [List.append_assoc] at hopens
  by_cases hxs : xs = []
  · -- the opener itself: its bracket is closed at once
    subst hxs
    rw [List.nil_append] at ho
    rw [afterOpener?_append ho] at hopens
    obtain ⟨c, content, rfl⟩ := List.exists_cons_of_ne_nil hcontent
    obtain rfl : ']' = c := (List.cons.inj (Option.some.inj hopens)).1
    exact hbracket List.mem_cons_self
  · by_cases hys' : ys = []
    · subst hys'
      exact absurd hopens (by simp [afterOpener?, afterSign?])
    · rw [afterOpener?_of_append_mem ho hxs hys'] at hopens
      simp at hopens

/-- What the reading for patterns finds among the matches of the check. -/
theorem matchedInTurn_readComment {line : List Char} {found : List Match}
    (h : MatchedInTurn anyComment place line found) (hnewline : '\n' ∉ line) :
    MatchedInTurn readComment place line (found.filter isRead) := by
  induction h with
  | nil => exact .nil
  | @skip place c cs found hnone _ ih =>
    refine .skip ?_ (ih (fun hmem => hnewline (List.mem_cons_of_mem _ hmem)))
    intro v hv hstart
    obtain ⟨w, hw, hstart'⟩ := exists_anyComment_prefix hv hstart
    exact hnone w hw hstart'
  | @take place v cs found hv hne hlongest hrest ih =>
    have hnewline' : '\n' ∉ cs := fun hmem => hnewline (List.mem_append_right v hmem)
    obtain ⟨o, ho, content, hbracket, rfl | ⟨rfl, rfl⟩⟩ := cases_of_longest hv hlongest hnewline
    · by_cases hcontent : content = []
      · -- an empty comment is passed over character by character
        subst hcontent
        have hout : isRead ⟨place, o ++ ([] ++ [']'])⟩ = false := isRead_closed ho hbracket
        rw [List.filter_cons, hout]
        exact .skip_append (fun ys hys hne v hv => no_readComment_in_empty ho hys hne hv)
          (ih hnewline')
      · have hin : isRead ⟨place, o ++ (content ++ [']'])⟩ := by
          rw [isRead_closed ho hbracket]
          simpa using hcontent
        have hread : o ++ (content ++ [']']) ∈ readComment :=
          mem_readComment_iff.mpr ⟨o, ho, content, ⟨hcontent, hbracket⟩, rfl⟩
        rw [List.filter_cons_of_pos hin]
        refine .take hread hne ?_ (ih hnewline')
        intro w hw hstart
        have hline : '\n' ∉ w := fun hmem => hnewline (hstart.subset hmem)
        exact hlongest w (readComment_mem_anyComment hw hline) hstart
    · -- an unclosed comment leaves no closing bracket for any other
      have hnone : ']' ∉ o ++ content := by
        simp [bracket_not_mem_opener ho, hbracket]
      rw [List.filter_cons, isRead_unclosed ho hbracket, hrest.eq_nil, List.append_nil]
      exact matchedInTurn_of_bracket_not_mem hnone

/-- Only the last comment of a line can be unclosed. -/
theorem pairwise_closed {line : List Char} {found : List Match}
    (h : MatchedInTurn anyComment place line found) (hnewline : '\n' ∉ line) :
    found.Pairwise (fun m _ => (Comment.ofMatch m).closed) := by
  induction h with
  | nil => exact .nil
  | skip _ _ ih => exact ih (fun hmem => hnewline (List.mem_cons_of_mem _ hmem))
  | @take place v cs found hv _ hlongest hrest ih =>
    refine List.pairwise_cons.mpr
      ⟨?_, ih (fun hmem => hnewline (List.mem_append_right v hmem))⟩
    obtain ⟨o, ho, content, hbracket, rfl | ⟨rfl, rfl⟩⟩ := cases_of_longest hv hlongest hnewline
    · intro _ _
      rw [ofMatch_closed ho hbracket]
    · intro later hlater
      rw [hrest.eq_nil] at hlater
      exact absurd hlater List.not_mem_nil

theorem comments_of_none {c : Char} {cs : List Char} (h : afterOpener? (c :: cs) = none)
    (n : Nat) : comments (n + 1) (c :: cs) = comments n cs := by
  simp [comments, h]

theorem comments_of_closed {cs tail : List Char}
    (h : afterOpener? cs = some (content ++ ']' :: tail)) (hbracket : ']' ∉ content) (n : Nat) :
    comments (n + 1) cs = { content, closed := true } :: comments n tail := by
  cases cs with
  | nil => simp [afterOpener?, afterSign?] at h
  | cons c cs => simp [comments, h, splitBracket_append hbracket]

theorem comments_of_unclosed {cs : List Char} (h : afterOpener? cs = some content)
    (hbracket : ']' ∉ content) (n : Nat) :
    comments (n + 1) cs = [{ content, closed := false }] := by
  cases cs with
  | nil => simp [afterOpener?, afterSign?] at h
  | cons c cs => simp [comments, h, splitBracket_of_not_mem hbracket]

/-- The check sees the comments that are matched in turn. -/
theorem comments_eq_map {line : List Char} {found : List Match}
    (h : MatchedInTurn anyComment place line found) (hnewline : '\n' ∉ line) {n : Nat}
    (hn : line.length ≤ n) : comments n line = found.map Comment.ofMatch := by
  induction h generalizing n with
  | nil => cases n <;> rfl
  | @skip place c cs found hnone _ ih =>
    cases n with
    | zero => simp at hn
    | succ n =>
      have hcloses : afterOpener? (c :: cs) = none := by
        by_contra hopens
        obtain ⟨rest, hrest⟩ := Option.ne_none_iff_exists'.mp hopens
        obtain ⟨o, ho, heq⟩ := afterOpener?_eq_some_iff.mp hrest
        exact hnone o (opener_mem_anyComment ho) (heq ▸ List.prefix_append o rest)
      rw [comments_of_none hcloses]
      exact ih (fun hmem => hnewline (List.mem_cons_of_mem _ hmem)) (Nat.le_of_succ_le_succ hn)
  | @take place v cs found hv hne hlongest hrest ih =>
    have hpos := List.length_pos_iff.mpr hne
    rw [List.length_append] at hn
    obtain ⟨n, rfl⟩ : ∃ m, n = m + 1 := ⟨n - 1, by omega⟩
    obtain ⟨o, ho, content, hbracket, rfl | ⟨rfl, rfl⟩⟩ := cases_of_longest hv hlongest hnewline
    · have hopens := afterOpener?_append ho (content ++ ']' :: cs)
      have hn' : cs.length ≤ n := by omega
      rw [List.map_cons, ofMatch_closed ho hbracket,
        ← ih (fun hmem => hnewline (List.mem_append_right _ hmem)) hn']
      simpa using comments_of_closed hopens hbracket n
    · rw [List.map_cons, ofMatch_unclosed ho hbracket, hrest.eq_nil, List.append_nil]
      exact comments_of_unclosed (afterOpener?_append ho content) hbracket n

/-- A place where nothing is read is passed over by one character. -/
theorem contents_of_skip {c : Char} {cs : List Char}
    (hnone : ∀ v ∈ readComment, ¬ v <+: c :: cs) (n : Nat) :
    contents (n + 1) (c :: cs) = contents n cs := by
  cases hopens : afterOpener? (c :: cs) with
  | none => simp [contents, hopens]
  | some rest =>
    obtain ⟨o, ho, heq⟩ := afterOpener?_eq_some_iff.mp hopens
    by_cases hbracket : ']' ∈ rest
    · obtain ⟨content, tail, rfl, hcontent⟩ := List.eq_append_cons_of_mem hbracket
      cases content with
      | nil => simp [contents, hopens, splitBracket]
      | cons d ds =>
        have hread : o ++ (d :: ds ++ [']']) ∈ readComment :=
          mem_readComment_iff.mpr ⟨o, ho, d :: ds, ⟨List.cons_ne_nil _ _, hcontent⟩, rfl⟩
        exact absurd (heq ▸ (by simp)) (hnone _ hread)
    · simp [contents, hopens, splitBracket_of_not_mem hbracket]

theorem contents_of_closed {cs tail : List Char}
    (h : afterOpener? cs = some (content ++ ']' :: tail)) (hne : content ≠ [])
    (hbracket : ']' ∉ content) (n : Nat) :
    contents (n + 1) cs = content :: contents n tail := by
  obtain ⟨d, ds, rfl⟩ := List.exists_cons_of_ne_nil hne
  cases cs with
  | nil => simp [afterOpener?, afterSign?] at h
  | cons c cs => simp only [contents, h, splitBracket_append hbracket]

/-- The reading for patterns sees the comments that are matched in turn. -/
theorem contents_eq_map {line : List Char} {read : List Match}
    (h : MatchedInTurn readComment place line read) {n : Nat} (hn : line.length ≤ n) :
    contents n line = read.map (fun m => (Comment.ofMatch m).content) := by
  induction h generalizing n with
  | nil => cases n <;> rfl
  | @skip place c cs found hnone _ ih =>
    cases n with
    | zero => simp at hn
    | succ n =>
      rw [contents_of_skip hnone]
      exact ih (Nat.le_of_succ_le_succ hn)
  | @take place v cs found hv hne _ hrest ih =>
    have hpos := List.length_pos_iff.mpr hne
    rw [List.length_append] at hn
    obtain ⟨n, rfl⟩ : ∃ m, n = m + 1 := ⟨n - 1, by omega⟩
    obtain ⟨o, ho, content, ⟨hcontent, hbracket⟩, rfl⟩ := mem_readComment_iff.mp hv
    have hopens := afterOpener?_append ho (content ++ ']' :: cs)
    have hn' : cs.length ≤ n := by omega
    rw [List.map_cons, ofMatch_closed ho hbracket, ← ih hn']
    simpa using contents_of_closed hopens hcontent hbracket n

theorem report_eq_unclosed_iff {m : Match} :
    report m = some "Unclosed suppression bracket" ↔ (Comment.ofMatch m).closed = false := by
  rw [report]
  generalize Comment.ofMatch m = c
  obtain ⟨content, closed⟩ := c
  cases closed with
  | false => exact iff_of_true rfl rfl
  | true =>
    have hreport : ({ content, closed := true } : Comment).complaint? = none ∨
        ({ content, closed := true } : Comment).complaint? = some .empty := by
      rw [Comment.complaint?]
      by_cases hblank : hasBlankBrackets content <;> simp [hblank]
    rcases hreport with h | h <;> simp [h, Complaint.message]

theorem isRead_or_report (m : Match) :
    isRead m ∨ report m = some "Unclosed suppression bracket" ∨
      ((Comment.ofMatch m).closed ∧ (Comment.ofMatch m).content = [] ∧
        report m = some "Empty suppression pattern") := by
  rw [report_eq_unclosed_iff, isRead, report]
  generalize Comment.ofMatch m = c
  obtain ⟨content, closed⟩ := c
  cases closed with
  | false => exact .inr (.inl rfl)
  | true =>
    cases content with
    | nil => exact .inr (.inr ⟨rfl, rfl, rfl⟩)
    | cons _ _ => exact .inl rfl

theorem count_unclosed_le_one {found : List Match}
    (h : found.Pairwise (fun m _ => (Comment.ofMatch m).closed)) :
    (found.filterMap report).count "Unclosed suppression bracket" ≤ 1 := by
  induction found with
  | nil => exact Nat.zero_le 1
  | cons m rest ih =>
    obtain ⟨hm, hrest⟩ := List.pairwise_cons.mp h
    cases rest with
    | nil =>
      exact (List.count_le_length).trans (List.length_filterMap_le report [m])
    | cons next rest =>
      -- a comment with another one behind it is closed
      have hclosed := hm next List.mem_cons_self
      have hreport : report m ≠ some "Unclosed suppression bracket" := by
        rw [ne_eq, report_eq_unclosed_iff, hclosed]
        exact Bool.false_ne_true.symm
      rw [List.filterMap_cons]
      cases hmessage : report m with
      | none => exact ih hrest
      | some message =>
        have hne : message ≠ "Unclosed suppression bracket" := by
          rintro rfl
          exact hreport hmessage
        rw [List.count_cons_of_ne hne]
        exact ih hrest

theorem stop_le_start_of_unclosed {line : List Char} {found : List Match}
    (h : MatchedInTurn anyComment place line found) (hnewline : '\n' ∉ line) {m r : Match}
    (hm : m ∈ found) (hunclosed : (Comment.ofMatch m).closed = false) (hr : r ∈ found)
    (hclosed : (Comment.ofMatch r).closed) : r.stop ≤ m.start := by
  have hpairs := (pairwise_closed h hnewline).and h.pairwise_stop_le_start
  obtain ⟨before, after, rfl⟩ := List.append_of_mem hm
  obtain ⟨-, hafter, hbefore⟩ := List.pairwise_append.mp hpairs
  rcases List.mem_append.mp hr with hr | hr
  · exact (hbefore r hr m List.mem_cons_self).2
  · rcases List.mem_cons.mp hr with rfl | hr
    · simp [hunclosed] at hclosed
    · have hlast := ((List.pairwise_cons.mp hafter).1 r hr).1
      simp [hunclosed] at hlast

/-- What the two readings of a line make of its comments. -/
structure Accounts (line : List Char) (found : List Match) : Prop where
  /-- The matches of the check. -/
  found_iff : ∀ ms, MatchedInTurn anyComment 0 line ms ↔ ms = found
  /-- The matches of the reading for patterns. -/
  read_iff : ∀ ms, MatchedInTurn readComment 0 line ms ↔ ms = found.filter isRead
  reports_eq : (complaints line).map Complaint.message = found.filterMap report
  patterns_eq : patterns line =
    ((found.filter isRead).flatMap (fun m => pieces (Comment.ofMatch m).content)).eraseDups
  isRead_or_report : ∀ m ∈ found, isRead m ∨
    report m = some "Unclosed suppression bracket" ∨
    ((Comment.ofMatch m).closed ∧ (Comment.ofMatch m).content = [] ∧
      report m = some "Empty suppression pattern")
  count_unclosed : (found.filterMap report).count "Unclosed suppression bracket" ≤ 1
  stop_le_unclosed : ∀ m ∈ found, report m = some "Unclosed suppression bracket" →
    ∀ r ∈ found.filter isRead, r.stop ≤ m.start

/-- **The two readings of a line see the same comments.** The matches of the reading for
patterns are those matches of the check that end with a closing bracket and have something
in their brackets. So every comment that the check finds is read, or reported as unclosed,
or empty and reported as such. At most one is unclosed, and no comment behind it is read. -/
theorem exists_accounts {line : List Char} (hline : '\n' ∉ line) :
    ∃ found : List Match, Accounts line found := by
  obtain ⟨found, hfound⟩ := MatchedInTurn.exists_matches nil_not_mem_anyComment 0 line
  have hread := matchedInTurn_readComment hfound hline
  refine ⟨found, ?_⟩
  constructor
  case found_iff => exact fun ms => ⟨fun h => h.unique hfound, fun h => h ▸ hfound⟩
  case read_iff => exact fun ms => ⟨fun h => h.unique hread, fun h => h ▸ hread⟩
  case reports_eq =>
    rw [complaints, comments_eq_map hfound hline (Nat.le_refl _), List.filterMap_map,
      List.map_filterMap]
    rfl
  case patterns_eq =>
    rw [patterns, contents_eq_map hread (Nat.le_refl _), List.flatMap_map]
  case isRead_or_report => exact fun m _ => Suppression.isRead_or_report m
  case count_unclosed => exact count_unclosed_le_one (pairwise_closed hfound hline)
  case stop_le_unclosed =>
    intro m hm hunclosed r hr
    obtain ⟨hr, hisRead⟩ := List.mem_filter.mp hr
    exact stop_le_start_of_unclosed hfound hline hm (report_eq_unclosed_iff.mp hunclosed) hr
      (Bool.and_eq_true_iff.mp hisRead).1

/-- An empty comment, one with an opener in its brackets, and an unclosed one. -/
def nestedLine : List Char :=
  "a() #stricteq:ignore[] // stricteq: ignore[x # stricteq: ignore[] /* StrictEq:ignore[".toList

theorem exists_accounts_nested :
    '\n' ∉ nestedLine ∧ ∃ found : List Match, Accounts nestedLine found :=
  have h : '\n' ∉ nestedLine := by decide
  ⟨h, exists_accounts h⟩

end Suppression

end StrictEquality
