import Mathlib.Data.List.Infix
import StrictEquality.Descriptor
import StrictEquality.Proofs.CommentAgreement
import StrictEquality.Proofs.SuppressionLocality

/-!
# Suppression comments are read as they are written

A comment that lists patterns, in any of the ways that the grammar allows, is read as
exactly these patterns, whatever code without an opener stands in front. Conversely, what
is read from a text can be written in a comment again.

## Main definitions

- `Suppression.IsPattern` — what can stand in a list of patterns
- `Suppression.listing` — the ways to write a list of patterns
- `Suppression.suppressing` — the lines that suppress some patterns behind some code
- `Suppression.render` — one such line

Main statement: `Suppressions.byLine_roundTrip`.
-/

namespace StrictEquality

theorem eraseDups_of_nodup {α : Type} [BEq α] [LawfulBEq α] {xs : List α} (h : xs.Nodup) :
    xs.eraseDups = xs := by
  induction xs with
  | nil => rfl
  | cons x xs ih =>
    obtain ⟨hx, hxs⟩ := List.nodup_cons.mp h
    have hall : ∀ y ∈ xs, (!y == x) = true := by
      intro y hy
      have hne : y ≠ x := fun heq => hx (heq ▸ hy)
      simpa using hne
    rw [List.eraseDups_cons, List.filter_eq_self.mpr hall, ih hxs]

namespace Text

/-- Trimming takes away the blanks around a text that has none at its ends. -/
theorem trim_padded {b p b' : List Char} (hb : ∀ c ∈ b, isBlank c) (hb' : ∀ c ∈ b', isBlank c)
    (hne : p ≠ []) (hhead : ∀ c ∈ p.head?, isBlank c = false)
    (hlast : ∀ c ∈ p.getLast?, isBlank c = false) : trim (b ++ p ++ b') = p := by
  have hskip {b cs : List Char} (hb : ∀ c ∈ b, isBlank c) (hne : cs ≠ [])
      (hcs : ∀ c ∈ cs.head?, isBlank c = false) (rest : List Char) :
      skipBlanks (b ++ (cs ++ rest)) = cs ++ rest := by
    obtain ⟨c, cs, rfl⟩ := List.exists_cons_of_ne_nil hne
    rw [skipBlanks, List.dropWhile_append_of_pos hb, List.cons_append,
      List.dropWhile_cons_of_neg (by simp [hcs c rfl])]
  have hback : skipBlanks (b'.reverse ++ (p.reverse ++ [])) = p.reverse ++ [] := by
    refine hskip (fun c hc => hb' c (List.mem_reverse.mp hc)) (by simpa using hne) ?_ []
    rw [List.head?_reverse]
    exact hlast
  rw [List.append_nil] at hback
  rw [trim, List.append_assoc, hskip hb hne hhead, List.reverse_append, hback,
    List.reverse_reverse]

theorem trim_prefix_skipBlanks (cs : List Char) : trim cs <+: skipBlanks cs := by
  rw [trim, ← List.reverse_suffix, List.reverse_reverse]
  exact List.dropWhile_suffix _

theorem trim_subset (cs : List Char) : trim cs ⊆ cs :=
  List.Subset.trans (trim_prefix_skipBlanks cs).subset (List.dropWhile_suffix _).subset

/-- A trimmed text has no blanks at its ends. -/
theorem isBlank_of_mem_head?_trim {cs : List Char} {c : Char} (h : c ∈ (trim cs).head?) :
    isBlank c = false := by
  obtain ⟨rest, hrest⟩ := trim_prefix_skipBlanks cs
  obtain ⟨tail, htail⟩ := List.head?_eq_some_iff.mp h
  rw [htail, List.cons_append] at hrest
  exact isBlank_of_skipBlanks_eq_cons hrest.symm

theorem isBlank_of_mem_getLast?_trim {cs : List Char} {c : Char}
    (h : c ∈ (trim cs).getLast?) : isBlank c = false := by
  rw [trim, List.getLast?_reverse] at h
  obtain ⟨tail, htail⟩ := List.head?_eq_some_iff.mp h
  exact isBlank_of_skipBlanks_eq_cons htail

end Text

namespace Suppression

open Computability
open Text (Match MatchedInTurn)

/-- The patterns that a comment can list: not empty, without blanks at the ends, and
without the marks that end a pattern, the list or the line. -/
structure IsPattern (p : String) : Prop where
  ne_nil : p.toList ≠ []
  head : ∀ c ∈ p.toList.head?, Text.isBlank c = false
  last : ∀ c ∈ p.toList.getLast?, Text.isBlank c = false
  noMark : ',' ∉ p.toList ∧ ']' ∉ p.toList ∧ '\n' ∉ p.toList

instance : DecidablePred IsPattern := fun p =>
  decidable_of_iff (p.toList ≠ [] ∧ p.toList.head?.all (fun c => !Text.isBlank c) ∧
      p.toList.getLast?.all (fun c => !Text.isBlank c) ∧
      ',' ∉ p.toList ∧ ']' ∉ p.toList ∧ '\n' ∉ p.toList) <| by
    simp only [Option.all_eq_true, Bool.not_eq_true']
    exact ⟨fun ⟨hne, hhead, hlast, hmark⟩ => ⟨hne, hhead, hlast, hmark⟩,
      fun h => ⟨h.ne_nil, h.head, h.last, h.noMark⟩⟩

def HasNoOpener (code : List Char) : Prop :=
  ∀ o ∈ opener, ¬ o <:+: code

theorem hasNoOpener_iff {code : List Char} :
    HasNoOpener code ↔ ∀ cs ∈ code.tails, afterOpener? cs = none := by
  constructor
  · intro h cs hcs
    rw [Option.eq_none_iff_forall_ne_some]
    intro rest hopens
    obtain ⟨o, ho, rfl⟩ := afterOpener?_eq_some_iff.mp hopens
    exact h o ho ((List.prefix_append o rest).isInfix.trans ((List.mem_tails _ _).mp hcs).isInfix)
  · rintro h o ho ⟨xs, ys, rfl⟩
    have hnone := h (o ++ ys) ((List.mem_tails _ _).mpr ⟨xs, (List.append_assoc xs o ys).symm⟩)
    rw [afterOpener?_append ho] at hnone
    simp at hnone

instance : DecidablePred HasNoOpener := fun _ => decidable_of_iff _ hasNoOpener_iff.symm

def padded (p : String) : Language Char :=
  blanks * {p.toList} * blanks

/-- The ways to write a list of patterns. -/
def listing : List String → Language Char
  | [] => 1
  | [p] => padded p
  | p :: q :: rest => padded p * {[',']} * listing (q :: rest)

/-- The lines that suppress the given patterns behind some code. -/
def suppressing (code : List Char) (pats : List String) : Language Char :=
  {code} * opener * listing pats * {[']']} * ({" */".toList} + 1)

def render (pats : List String) : List Char :=
  "// stricteq: ignore[".toList ++ [','].intercalate (pats.map String.toList) ++ [']']

theorem mem_padded {p : String} {cs : List Char} :
    cs ∈ padded p ↔ ∃ b ∈ blanks, ∃ b' ∈ blanks, cs = b ++ p.toList ++ b' := by
  constructor
  · rintro ⟨_, ⟨b, hb, _, rfl, rfl⟩, b', hb', rfl⟩
    exact ⟨b, hb, b', hb', rfl⟩
  · rintro ⟨b, hb, b', hb', rfl⟩
    exact Language.append_mem_mul (Language.append_mem_mul hb rfl) hb'

theorem mark_not_mem_padded {mark : Char} (hmark : Text.isBlank mark = false) {p : String}
    (hp : mark ∉ p.toList) {cs : List Char} (hcs : cs ∈ padded p) : mark ∉ cs := by
  obtain ⟨b, hb, b', hb', rfl⟩ := mem_padded.mp hcs
  simp [mark_not_mem_blanks hmark hb, mark_not_mem_blanks hmark hb', hp]

theorem pieces_append (xs ys : List Char) : pieces (xs ++ ',' :: ys) = pieces xs ++ pieces ys := by
  simp [pieces, Text.splitAt_append]

theorem pieces_of_mem_padded {p : String} (hp : IsPattern p) {cs : List Char}
    (hcs : cs ∈ padded p) : pieces cs = [p] := by
  have hcomma : ',' ∉ cs := mark_not_mem_padded (by decide) hp.noMark.1 hcs
  obtain ⟨b, hb, b', hb', rfl⟩ := mem_padded.mp hcs
  have htrim := Text.trim_padded (mem_blanks.mp hb) (mem_blanks.mp hb') hp.ne_nil hp.head hp.last
  rw [pieces, Text.splitAt_of_not_mem hcomma, List.map_singleton, htrim]
  simp [hp.ne_nil]

/-- A written list of patterns is read as these patterns. -/
theorem pieces_of_mem_listing {pats : List String} (hpats : ∀ p ∈ pats, IsPattern p)
    {cs : List Char} (hcs : cs ∈ listing pats) : pieces cs = pats := by
  induction pats using listing.induct generalizing cs with
  | case1 =>
    obtain rfl : cs = [] := hcs
    rfl
  | case2 p => exact pieces_of_mem_padded (hpats p List.mem_cons_self) hcs
  | case3 p q rest ih =>
    obtain ⟨_, ⟨xs, hxs, _, rfl, rfl⟩, ys, hys, rfl⟩ := hcs
    obtain ⟨hp, hrest⟩ := List.forall_mem_cons.mp hpats
    have happend : xs ++ [','] ++ ys = xs ++ ',' :: ys := by simp
    show pieces (xs ++ [','] ++ ys) = p :: q :: rest
    rw [happend, pieces_append, pieces_of_mem_padded hp hxs, ih hrest hys]
    rfl

theorem bracket_not_mem_listing {pats : List String} (hpats : ∀ p ∈ pats, IsPattern p)
    {cs : List Char} (hcs : cs ∈ listing pats) : ']' ∉ cs := by
  induction pats using listing.induct generalizing cs with
  | case1 =>
    obtain rfl : cs = [] := hcs
    exact List.not_mem_nil
  | case2 p =>
    exact mark_not_mem_padded (by decide) (hpats p List.mem_cons_self).noMark.2.1 hcs
  | case3 p q rest ih =>
    obtain ⟨_, ⟨xs, hxs, _, rfl, rfl⟩, ys, hys, rfl⟩ := hcs
    obtain ⟨hp, hrest⟩ := List.forall_mem_cons.mp hpats
    have hxs' : ']' ∉ xs := mark_not_mem_padded (by decide) hp.noMark.2.1 hxs
    simp [hxs', ih hrest hys]

/-- No opener starts in code that has none, not even one that ends in the opener behind
the code. -/
theorem afterOpener?_of_code {code ys o : List Char} (hcode : HasNoOpener code)
    (hys : ys <:+ code) (hne : ys ≠ []) (ho : o ∈ opener) (rest : List Char) :
    afterOpener? (ys ++ (o ++ rest)) = none := by
  rw [Option.eq_none_iff_forall_ne_some]
  intro rest' hopens
  obtain ⟨o', ho', heq⟩ := afterOpener?_eq_some_iff.mp hopens
  rcases List.append_eq_append_iff.mp heq with ⟨zs, rfl, hzs⟩ | ⟨zs, rfl, -⟩
  · by_cases hnil : zs = []
    · subst hnil
      rw [List.append_nil] at ho'
      exact hcode ys ho' hys.isInfix
    · -- an opener that starts in the code would have the other one inside
      have hnone := afterOpener?_of_append_mem ho' hne hnil rest'
      rw [← hzs, afterOpener?_append ho] at hnone
      simp at hnone
  · exact hcode o' ho' ((List.prefix_append o' zs).isInfix.trans hys.isInfix)

theorem eq_of_append_bracket {xs ys xs' ys' : List Char} (hxs : ']' ∉ xs) (hys : ']' ∉ ys)
    (h : xs ++ ']' :: xs' = ys ++ ']' :: ys') : xs = ys := by
  have hsplit := congrArg splitBracket h
  rw [splitBracket_append hxs, splitBracket_append hys] at hsplit
  exact congrArg Prod.fst hsplit

/-- At one place of a text, there is one comment to read at most. -/
theorem readComment_unique {v w cs : List Char} (hv : v ∈ readComment) (hw : w ∈ readComment)
    (hvcs : v <+: cs) (hwcs : w <+: cs) : v = w := by
  obtain ⟨o, ho, content, ⟨-, hbracket⟩, rfl⟩ := mem_readComment_iff.mp hv
  obtain ⟨o', ho', content', ⟨-, hbracket'⟩, rfl⟩ := mem_readComment_iff.mp hw
  obtain ⟨rest, rfl⟩ := hvcs
  obtain ⟨rest', hrest⟩ := hwcs
  simp only [List.append_assoc, List.singleton_append] at hrest
  obtain ⟨rfl, hcontent⟩ := opener_append_inj ho' ho hrest
  rw [eq_of_append_bracket hbracket' hbracket hcontent]

/-- The only comment of a line is the one behind its code. -/
theorem matchedInTurn_of_code {code o content tail : List Char}
    (hcode : HasNoOpener code) (ho : o ∈ opener) (hne : content ≠ [])
    (hbracket : ']' ∉ content) (htail : ']' ∉ tail) :
    MatchedInTurn readComment 0 (code ++ (o ++ (content ++ [']']) ++ tail))
      [⟨code.length, o ++ (content ++ [']'])⟩] := by
  have hread : o ++ (content ++ [']']) ∈ readComment :=
    mem_readComment_iff.mpr ⟨o, ho, content, ⟨hne, hbracket⟩, rfl⟩
  refine .skip_append ?_ ?_
  · rintro ys hys hnonempty v hv ⟨rest, hrest⟩
    obtain ⟨o', ho', content', -, rfl⟩ := mem_readComment_iff.mp hv
    have hnone := afterOpener?_of_code hcode hys hnonempty ho (content ++ [']'] ++ tail)
    rw [← List.append_assoc o, ← hrest, List.append_assoc o', afterOpener?_append ho'] at hnone
    simp at hnone
  · rw [Nat.zero_add]
    refine .take hread (by simp) ?_ (matchedInTurn_of_bracket_not_mem htail)
    intro w hw hstart
    rw [readComment_unique hw hread hstart (List.prefix_append _ _)]

theorem mem_suppressing {code line : List Char} {pats : List String} :
    line ∈ suppressing code pats ↔ ∃ o ∈ opener, ∃ content ∈ listing pats,
      ∃ tail ∈ [" */".toList, []], line = code ++ (o ++ (content ++ [']']) ++ tail) := by
  have hparts (o content tail : List Char) : code ++ (o ++ (content ++ [']']) ++ tail) =
      code ++ o ++ content ++ [']'] ++ tail := by simp
  have htail {tail : List Char} : tail ∈ [" */".toList, []] ↔
      tail ∈ ({" */".toList} + 1 : Language Char) := by
    rw [List.mem_cons, List.mem_singleton]
    exact Iff.rfl
  constructor
  · rintro ⟨_, ⟨_, ⟨_, ⟨code, rfl, o, ho, rfl⟩, content, hcontent, rfl⟩, _, rfl, rfl⟩, tail, h, rfl⟩
    exact ⟨o, ho, content, hcontent, tail, htail.mpr h, (hparts o content tail).symm⟩
  · rintro ⟨o, ho, content, hcontent, tail, h, rfl⟩
    rw [hparts]
    exact Language.append_mem_mul (Language.append_mem_mul (Language.append_mem_mul
      (Language.append_mem_mul rfl ho) hcontent) rfl) (htail.mp h)

/-- **A line is read as the patterns that are written in it.** -/
theorem patterns_of_mem_suppressing {code line : List Char} {pats : List String}
    (hcode : HasNoOpener code) (hne : pats ≠ []) (hpats : ∀ p ∈ pats, IsPattern p)
    (hline : line ∈ suppressing code pats) : patterns line = pats.eraseDups := by
  obtain ⟨o, ho, content, hcontent, tail, htail, rfl⟩ := mem_suppressing.mp hline
  have hpieces := pieces_of_mem_listing hpats hcontent
  have hbracket := bracket_not_mem_listing hpats hcontent
  have hnonempty : content ≠ [] := by
    rintro rfl
    exact hne hpieces.symm
  have hmatch := matchedInTurn_of_code hcode ho hnonempty hbracket
    ((by decide : ∀ tail ∈ [" */".toList, []], ']' ∉ tail) tail htail)
  rw [patterns, contents_eq_map hmatch (Nat.le_refl _), List.map_singleton,
    ofMatch_closed ho hbracket, List.flatMap_singleton, hpieces]

theorem intercalate_mem_listing (pats : List String) :
    [','].intercalate (pats.map String.toList) ∈ listing pats := by
  have hpadded (p : String) : p.toList ∈ padded p := by
    have hnone : [] ∈ blanks := Language.nil_mem_kstar _
    exact mem_padded.mpr ⟨[], hnone, [], hnone, by simp⟩
  induction pats using listing.induct with
  | case1 => rfl
  | case2 p =>
    rw [List.map_singleton, List.intercalate_singleton]
    exact hpadded p
  | case3 p q rest ih =>
    rw [List.map_cons, List.map_cons, List.intercalate_cons_cons]
    exact Language.append_mem_mul (Language.append_mem_mul (hpadded p) rfl) ih

theorem render_mem_suppressing (pats : List String) : render pats ∈ suppressing [] pats := by
  refine mem_suppressing.mpr ⟨"// stricteq: ignore[".toList, mem_opener_iff.mpr (by decide),
    [','].intercalate (pats.map String.toList), intercalate_mem_listing pats, [], by simp, ?_⟩
  rw [List.append_nil, ← List.append_assoc]
  rfl

theorem isPattern_of_mem_pieces {content : List Char} (hbracket : ']' ∉ content)
    (hnewline : '\n' ∉ content) {p : String} (hp : p ∈ pieces content) : IsPattern p := by
  obtain ⟨trimmed, htrimmed, rfl⟩ := List.mem_map.mp hp
  obtain ⟨htrimmed, hne⟩ := List.mem_filter.mp htrimmed
  obtain ⟨piece, hpiece, rfl⟩ := List.mem_map.mp htrimmed
  obtain ⟨hcomma, hsub⟩ := Text.not_mem_and_subset_of_mem_splitAt hpiece
  have hall : Text.trim piece ⊆ content := List.Subset.trans (Text.trim_subset piece) hsub
  constructor <;> rw [String.toList_ofList]
  case ne_nil => simpa using hne
  case head => exact fun c hc => Text.isBlank_of_mem_head?_trim hc
  case last => exact fun c hc => Text.isBlank_of_mem_getLast?_trim hc
  case noMark =>
    exact ⟨fun h => hcomma (Text.trim_subset piece h), fun h => hbracket (hall h),
      fun h => hnewline (hall h)⟩

theorem nil_not_mem_readComment : [] ∉ readComment := fun h =>
  absurd (bracket_mem_of_mem_readComment h) List.not_mem_nil

theorem isPattern_of_mem_patterns {line : List Char} (hline : '\n' ∉ line) {p : String}
    (hp : p ∈ patterns line) : IsPattern p := by
  obtain ⟨read, hread⟩ := MatchedInTurn.exists_matches nil_not_mem_readComment 0 line
  rw [patterns, contents_eq_map hread (Nat.le_refl _), List.mem_eraseDups, List.flatMap_map] at hp
  obtain ⟨⟨start, text⟩, hm, hp⟩ := List.mem_flatMap.mp hp
  obtain ⟨htext, hwithin⟩ := hread.mem_of_mem hm
  obtain ⟨o, ho, content, ⟨-, hbracket⟩, rfl⟩ := mem_readComment_iff.mp htext
  rw [ofMatch_closed ho hbracket] at hp
  exact isPattern_of_mem_pieces hbracket (fun h => hline (hwithin.subset (by simp [h]))) hp

end Suppression

namespace Suppressions

open Suppression

theorem patternsAt_one {line : List Char} (hline : '\n' ∉ line) :
    (ofText line).patternsAt 1 = patterns line := by
  simp only [patternsAt, ofText, Text.lines_of_not_mem hline]
  cases hpatterns : patterns line <;> simp [hpatterns]

/-- In a text of one line, every offset is on that line. -/
theorem covers_of_line {line : List Char} (hline : '\n' ∉ line) (rule : String) (offset : Int) :
    (ofText line).covers rule offset = (patterns line).any (fun p => globMatches p rule) := by
  have hlast := Text.lineAt_le_length_lines line offset
  rw [Text.lines_of_not_mem hline] at hlast
  have hone : Text.lineAt (ofText line).text offset = 1 :=
    Nat.le_antisymm hlast (Text.lineAt_pos line offset)
  rw [covers, hone, patternsAt_one hline]

/-- What a line in a text suppresses depends on nothing else in the text. -/
theorem covers_between {before line after : List Char} (hline : '\n' ∉ line)
    (hbefore : before = [] ∨ ∃ b, before = b ++ ['\n'])
    (hafter : after = [] ∨ ∃ a, after = '\n' :: a) (rule : String) {offset : Int}
    (hstart : Text.byteLength before ≤ offset)
    (hstop : offset ≤ Text.byteLength before + Text.byteLength line) :
    (ofText (before ++ (line ++ after))).covers rule offset =
      (patterns line).any (fun p => globMatches p rule) := by
  have hfront : ∀ offset : Int, offset ≤ Text.byteLength line →
      (ofText (line ++ after)).covers rule offset =
        (patterns line).any (fun p => globMatches p rule) := by
    intro offset hoffset
    rcases hafter with rfl | ⟨a, rfl⟩
    · rw [List.append_nil, covers_of_line hline]
    · rw [covers_append, if_pos hoffset, covers_of_line hline]
  rcases hbefore with rfl | ⟨b, rfl⟩
  · refine hfront offset ?_
    simpa [Text.byteLength] using hstop
  · have hlength : Text.byteLength (b ++ ['\n']) = Text.byteLength b + 1 := by
      rw [Text.byteLength_append]
      rfl
    rw [hlength] at hstart hstop
    have hbehind : ¬ offset ≤ Text.byteLength b := by omega
    rw [List.append_assoc, List.singleton_append, covers_append, if_neg hbehind]
    exact hfront _ (by omega)

theorem exists_line_of_mem_byLine {text : List Char} {e : Nat × List String}
    (h : e ∈ (ofText text).byLine) :
    e.2 ≠ [] ∧ ∃ line ∈ Text.lines text, e.2 = patterns line := by
  obtain ⟨he, hne⟩ := List.mem_filter.mp h
  obtain ⟨⟨line, n⟩, hline, rfl⟩ := List.mem_map.mp he
  exact ⟨by simpa using hne, line, List.fst_mem_of_mem_zipIdx hline, rfl⟩

/-- A line is read as some patterns: it has these and no others, and a finding on the line
is silenced, whatever else stands in the text, if one of them matches its rule. -/
structure IsReadAs (line : List Char) (pats : List String) : Prop where
  patterns_eq : patterns line = pats.eraseDups
  covers_iff : ∀ before after : List Char, (before = [] ∨ ∃ b, before = b ++ ['\n']) →
    (after = [] ∨ ∃ a, after = '\n' :: a) → ∀ (rule : String) (offset : Int),
      Text.byteLength before ≤ offset →
      offset ≤ Text.byteLength before + Text.byteLength line →
      ((ofText (before ++ (line ++ after))).covers rule offset ↔
        ∃ p ∈ pats, globMatches p rule)

theorem isReadAs_of_mem_suppressing {code line : List Char} {pats : List String}
    (hcode : HasNoOpener code) (hne : pats ≠ []) (hpats : ∀ p ∈ pats, IsPattern p)
    (hline : line ∈ suppressing code pats) (hnewline : '\n' ∉ line) : IsReadAs line pats := by
  have hpatterns := patterns_of_mem_suppressing hcode hne hpats hline
  refine ⟨hpatterns, ?_⟩
  intro before after hbefore hafter rule offset hstart hstop
  rw [covers_between hnewline hbefore hafter rule hstart hstop, hpatterns, List.any_eq_true]
  simp only [List.mem_eraseDups]

/-- **Suppression comments are read as they are written.** A line with a comment that lists
patterns, in any way that the grammar allows and behind any code without an opener, is read
as these patterns. Conversely, what is read from a line of a text are patterns that can be
listed in a comment, and such a comment is read as the same patterns again. -/
theorem byLine_roundTrip :
    (∀ (code line : List Char) (pats : List String), HasNoOpener code → pats ≠ [] →
      (∀ p ∈ pats, IsPattern p) → line ∈ suppressing code pats → '\n' ∉ line →
      IsReadAs line pats) ∧
    ∀ (text : List Char), ∀ e ∈ (ofText text).byLine,
      e.2 ≠ [] ∧ (1 ≤ e.1 ∧ e.1 ≤ (Text.lines text).length) ∧ (∀ p ∈ e.2, IsPattern p) ∧
      patterns (render e.2) = e.2 ∧
      ∀ code line : List Char, HasNoOpener code → line ∈ suppressing code e.2 →
        patterns line = e.2 := by
  refine ⟨fun code line pats => isReadAs_of_mem_suppressing, ?_⟩
  intro text e he
  obtain ⟨hne, line, hline, hpatterns⟩ := exists_line_of_mem_byLine he
  have hnewline : '\n' ∉ line := (Text.not_mem_and_subset_of_mem_splitAt hline).1
  have hpats : ∀ p ∈ e.2, IsPattern p := by
    rw [hpatterns]
    exact fun p => isPattern_of_mem_patterns hnewline
  have hagain : ∀ code line : List Char, HasNoOpener code → line ∈ suppressing code e.2 →
      patterns line = e.2 := by
    intro code again hcode hagain
    have hnodup : e.2.Nodup := hpatterns ▸ nodup_eraseDups _
    rw [patterns_of_mem_suppressing hcode hne hpats hagain, eraseDups_of_nodup hnodup]
  refine ⟨hne, line_of_mem_byLine he, hpats, ?_, hagain⟩
  refine hagain [] _ ?_ (render_mem_suppressing e.2)
  intro o ho hwithin
  exact ne_nil_of_mem_opener ho (List.infix_nil.mp hwithin)

/-- A comment behind code that ends in a slash, with blanks wherever they may stand. -/
def spacedLine : List Char :=
  "$a == $b; /".toList ++ ("/*\tStrictEq: IGNORE [".toList ++
    (" lang.* ".toList ++ [','] ++ " other.rule".toList ++ [']']) ++ " */".toList)

theorem spacedLine_mem_suppressing :
    spacedLine ∈ suppressing "$a == $b; /".toList ["lang.*", "other.rule"] := by
  have hblank : [' '] ∈ blanks := mem_blanks.mpr (List.forall_mem_singleton.mpr rfl)
  have hnone : [] ∈ blanks := mem_blanks.mpr (List.forall_mem_nil _)
  have hfirst : " lang.* ".toList ∈ padded "lang.*" :=
    mem_padded.mpr ⟨[' '], hblank, [' '], hblank, by decide⟩
  have hsecond : " other.rule".toList ∈ padded "other.rule" :=
    mem_padded.mpr ⟨[' '], hblank, [], hnone, by decide⟩
  have hcomma : [','] ∈ ({[',']} : Language Char) := rfl
  have hlisting := Language.append_mem_mul (Language.append_mem_mul hfirst hcomma) hsecond
  exact mem_suppressing.mpr
    ⟨_, mem_opener_iff.mpr (by decide), _, hlisting, _, List.mem_cons_self, rfl⟩

theorem byLine_roundTrip_spaced :
    HasNoOpener "$a == $b; /".toList ∧ ["lang.*", "other.rule"] ≠ [] ∧
      (∀ p ∈ ["lang.*", "other.rule"], IsPattern p) ∧
      spacedLine ∈ suppressing "$a == $b; /".toList ["lang.*", "other.rule"] ∧
      '\n' ∉ spacedLine ∧ IsReadAs spacedLine ["lang.*", "other.rule"] ∧
      ((ofText (['\n'] ++ (spacedLine ++ []))).covers "lang.strict" 3 ↔
        ∃ p ∈ ["lang.*", "other.rule"], globMatches p "lang.strict") ∧
      (2, ["lang.*", "other.rule"]) ∈ (ofText ('\n' :: spacedLine)).byLine ∧
      patterns (render ["lang.*", "other.rule"]) = ["lang.*", "other.rule"] ∧
      patterns spacedLine = ["lang.*", "other.rule"] := by
  have hcode : HasNoOpener "$a == $b; /".toList := by decide
  have hne : ["lang.*", "other.rule"] ≠ [] := List.cons_ne_nil _ _
  have hpats : ∀ p ∈ ["lang.*", "other.rule"], IsPattern p := by decide
  have hspaced := spacedLine_mem_suppressing
  have hnewline : '\n' ∉ spacedLine := by decide
  have hread := byLine_roundTrip.1 _ _ _ hcode hne hpats hspaced hnewline
  have hcovers := hread.covers_iff ['\n'] [] (.inr ⟨[], rfl⟩) (.inl rfl) "lang.strict" 3
    (by decide) (by decide)
  have hline : (2, ["lang.*", "other.rule"]) ∈ (ofText ('\n' :: spacedLine)).byLine := by decide
  obtain ⟨-, -, -, hrender, hagain⟩ := byLine_roundTrip.2 _ _ hline
  exact ⟨hcode, hne, hpats, hspaced, hnewline, hread, hcovers, hline, hrender,
    hagain _ _ hcode hspaced⟩

end Suppressions

end StrictEquality
