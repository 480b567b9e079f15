import Mathlib.Computability.Language
import Mathlib.Data.List.TakeWhile
import StrictEquality.Suppression

/-!
# The grammar of suppression comments

Suppression comments as languages: what opens one, and the two forms that the readings of
a line look for. The steps of the reader, each of which takes something off the front of a
text, are shown to take exactly the words of these languages.

## Main definitions

- `Suppression.opener` — a comment up to its opening bracket
- `Suppression.readComment` — a comment with something between its brackets
- `Suppression.anyComment` — a comment with or without contents or closing bracket
- `Suppression.Reads` — a step of the reader that takes the words of a language

Main statements: `Suppression.afterOpener?_eq_some_iff`,
`Suppression.afterOpener?_of_append_mem`.
-/

namespace StrictEquality

namespace Suppression

open Computability

/-- The texts of one character of a class. -/
def oneOf (p : Char → Bool) : Language Char :=
  {cs | ∃ c, p c ∧ cs = [c]}

def blanks : Language Char :=
  (oneOf Text.isBlank)∗

def sign : Language Char :=
  {['/', '/'], ['#'], ['/', '*']}

/-- The spellings of a keyword. -/
def keyword (letters : List Char) : Language Char :=
  {cs | List.Forall₂ (fun letter c => isLetter letter c) letters cs}

/-- What follows the comment sign, up to the opening bracket. -/
def directive : Language Char :=
  blanks * keyword "stricteq:".toList * blanks * keyword "ignore".toList * blanks * {['[']}

def opener : Language Char :=
  sign * directive

/-- The comments that the reading for patterns looks for. -/
def readComment : Language Char :=
  opener * blanks * (oneOf (· != ']') * (oneOf (· != ']'))∗) * blanks * {[']']}

/-- The comments that the check looks for. It takes as many characters as it can, so of
several at one place the longest is meant. -/
def anyComment : Language Char :=
  opener * (oneOf (fun c => c != ']' && c != '\n'))∗ * ({[']']} + 1)

theorem mem_kstar_oneOf {p : Char → Bool} {cs : List Char} :
    cs ∈ (oneOf p)∗ ↔ ∀ c ∈ cs, p c := by
  constructor
  · rintro ⟨words, rfl, hwords⟩ c hc
    obtain ⟨word, hword, hc⟩ := List.mem_flatten.mp hc
    obtain ⟨d, hd, rfl⟩ := hwords word hword
    exact List.mem_singleton.mp hc ▸ hd
  · intro h
    refine ⟨cs.map (fun c => [c]), ?_, ?_⟩
    · rw [← List.flatMap_def, List.flatMap_singleton']
    · intro word hword
      obtain ⟨c, hc, rfl⟩ := List.mem_map.mp hword
      exact ⟨c, h c hc, rfl⟩

theorem mem_blanks {cs : List Char} : cs ∈ blanks ↔ ∀ c ∈ cs, Text.isBlank c :=
  mem_kstar_oneOf

theorem mark_not_mem_blanks {mark : Char} (hmark : Text.isBlank mark = false) {b : List Char}
    (hb : b ∈ blanks) : mark ∉ b := by
  intro h
  have hblank := mem_blanks.mp hb mark h
  simp [hmark] at hblank

theorem forall_ne_bracket_iff {cs : List Char} : (∀ c ∈ cs, (c != ']') = true) ↔ ']' ∉ cs := by
  simp only [bne_iff_ne]
  exact ⟨fun h hmem => h _ hmem rfl, fun h c hc heq => h (heq ▸ hc)⟩

/-- Takes a word of the language off the front of a text, if there is one. -/
def Reads (f : List Char → Option (List Char)) (L : Language Char) : Prop :=
  ∀ cs rest, f cs = some rest ↔ ∃ v ∈ L, cs = v ++ rest

theorem Reads.bind {f g : List Char → Option (List Char)} {L M : Language Char}
    (hf : Reads f L) (hg : Reads g M) : Reads (fun cs => (f cs).bind g) (L * M) := by
  intro cs rest
  rw [Option.bind_eq_some_iff]
  constructor
  · rintro ⟨middle, hmiddle, hrest⟩
    obtain ⟨v, hv, rfl⟩ := (hf _ _).mp hmiddle
    obtain ⟨w, hw, rfl⟩ := (hg _ _).mp hrest
    exact ⟨v ++ w, Language.append_mem_mul hv hw, (List.append_assoc v w rest).symm⟩
  · rintro ⟨_, hvw, rfl⟩
    obtain ⟨v, hv, w, hw, rfl⟩ := Language.mem_mul.mp hvw
    exact ⟨w ++ rest, (hf _ _).mpr ⟨v, hv, List.append_assoc v w rest⟩, (hg _ _).mpr ⟨w, hw, rfl⟩⟩

/-- The words of a language have a first character, and it is not a blank. -/
def StartsDark (L : Language Char) : Prop :=
  ∀ v ∈ L, ∃ c cs, v = c :: cs ∧ Text.isBlank c = false

/-- Where the words do not start with blanks, skipping blanks first is no choice. -/
theorem Reads.skipBlanks {f : List Char → Option (List Char)} {L : Language Char}
    (hf : Reads f L) (hL : StartsDark L) :
    Reads (fun cs => f (Text.skipBlanks cs)) (blanks * L) := by
  intro cs rest
  rw [hf]
  constructor
  · rintro ⟨v, hv, hcs⟩
    refine ⟨cs.takeWhile Text.isBlank ++ v, Language.append_mem_mul ?_ hv, ?_⟩
    · exact mem_blanks.mpr (fun c hc => List.mem_takeWhile_imp hc)
    · rw [List.append_assoc, ← hcs, Text.skipBlanks, List.takeWhile_append_dropWhile]
  · rintro ⟨_, hbv, rfl⟩
    obtain ⟨b, hb, v, hv, rfl⟩ := Language.mem_mul.mp hbv
    refine ⟨v, hv, ?_⟩
    obtain ⟨c, cs, rfl, hc⟩ := hL v hv
    rw [List.append_assoc, Text.skipBlanks, List.dropWhile_append_of_pos (mem_blanks.mp hb),
      List.cons_append, List.dropWhile_cons_of_neg (by simp [hc])]

theorem StartsDark.mul {L M : Language Char} (hL : StartsDark L) : StartsDark (L * M) := by
  intro v hv
  obtain ⟨w, hw, x, -, rfl⟩ := Language.mem_mul.mp hv
  obtain ⟨c, cs, rfl, hc⟩ := hL w hw
  exact ⟨c, cs ++ x, rfl, hc⟩

theorem reads_sign : Reads afterSign? sign := by
  intro cs rest
  constructor
  · intro h
    unfold afterSign? at h
    split at h
    · exact ⟨['/', '/'], .inl rfl, Option.some.inj h ▸ rfl⟩
    · exact ⟨['/', '*'], .inr (.inr rfl), Option.some.inj h ▸ rfl⟩
    · exact ⟨['#'], .inr (.inl rfl), Option.some.inj h ▸ rfl⟩
    · simp at h
  · rintro ⟨v, rfl | rfl | rfl, rfl⟩ <;> rfl

theorem reads_keyword (letters : List Char) : Reads (afterWord? letters) (keyword letters) := by
  induction letters with
  | nil =>
    intro cs rest
    constructor
    · intro h
      exact ⟨[], .nil, Option.some.inj h⟩
    · rintro ⟨_, ⟨⟩, rfl⟩
      rfl
  | cons letter letters ih =>
    intro cs rest
    constructor
    · intro h
      cases cs with
      | nil => simp [afterWord?] at h
      | cons c cs =>
        rw [afterWord?] at h
        split at h
        · next hc =>
          obtain ⟨v, hv, rfl⟩ := (ih cs rest).mp h
          exact ⟨c :: v, .cons hc hv, rfl⟩
        · simp at h
    · rintro ⟨_, hv, rfl⟩
      cases hv with
      | cons hc hv =>
        rw [List.cons_append, afterWord?, if_pos hc]
        exact (ih _ rest).mpr ⟨_, hv, rfl⟩

def afterBracket? : List Char → Option (List Char)
  | '[' :: rest => some rest
  | _ => none

theorem reads_bracket : Reads afterBracket? {['[']} := by
  intro cs rest
  constructor
  · intro h
    unfold afterBracket? at h
    split at h
    · exact ⟨['['], rfl, Option.some.inj h ▸ rfl⟩
    · simp at h
  · rintro ⟨_, rfl, rfl⟩
    rfl

/-- The characters of a directive: none ends a comment's brackets, and none could be part
of a comment sign. -/
def isPlain (c : Char) : Bool :=
  c != '/' && c != '*' && c != '#' && c != ']'

/-- Letters of the keywords have no variant that is blank or stands in a sign. -/
theorem isBlank_and_isPlain_of_isLetter {letter c : Char}
    (hletter : letter ∈ "stricteq:ignore".toList) (h : isLetter letter c) :
    Text.isBlank c = false ∧ isPlain c := by
  have hcases : c = letter ∨ c = letter.toUpper ∨ c = '\u0130' ∨ c = '\u0131' ∨ c = '\u017F' := by
    simp only [isLetter, Bool.or_eq_true, Bool.and_eq_true, beq_iff_eq] at h
    tauto
  have hletters : "stricteq:ignore".toList.all (fun letter =>
      (!Text.isBlank letter && isPlain letter) &&
        (!Text.isBlank letter.toUpper && isPlain letter.toUpper)) := by decide
  have hboth := List.all_eq_true.mp hletters letter hletter
  simp only [Bool.and_eq_true, Bool.not_eq_true'] at hboth
  rcases hcases with rfl | rfl | rfl | rfl | rfl
  · exact hboth.1
  · exact hboth.2
  all_goals decide

theorem isPlain_of_isBlank {c : Char} (h : Text.isBlank c) : isPlain c := by
  have hmarks : ['/', '*', '#', ']'].all (fun mark => !Text.isBlank mark) := by decide
  have hc : c ∉ ['/', '*', '#', ']'] := by
    intro hc
    have hmark := List.all_eq_true.mp hmarks c hc
    simp [h] at hmark
  simpa [isPlain, and_assoc] using hc

theorem exists_isLetter_of_mem {letters cs : List Char} (h : cs ∈ keyword letters) {c : Char}
    (hc : c ∈ cs) : ∃ letter ∈ letters, isLetter letter c := by
  induction (h : List.Forall₂ _ letters cs) with
  | nil => exact absurd hc List.not_mem_nil
  | @cons letter d letters ds hd _ ih =>
    rcases List.mem_cons.mp hc with rfl | hc
    · exact ⟨letter, List.mem_cons_self, hd⟩
    · obtain ⟨l, hl, hc⟩ := ih hc
      exact ⟨l, List.mem_cons_of_mem _ hl, hc⟩

theorem isPlain_of_mem_directive {d : List Char} (hd : d ∈ directive) {c : Char} (hc : c ∈ d) :
    isPlain c := by
  have hkeyword {letters k : List Char} (hsub : letters ⊆ "stricteq:ignore".toList)
      (hk : k ∈ keyword letters) (hc : c ∈ k) : isPlain c := by
    obtain ⟨letter, hletter, hc⟩ := exists_isLetter_of_mem hk hc
    exact (isBlank_and_isPlain_of_isLetter (hsub hletter) hc).2
  have hblanks {b : List Char} (hb : b ∈ blanks) (hc : c ∈ b) : isPlain c :=
    isPlain_of_isBlank (mem_blanks.mp hb c hc)
  obtain ⟨_, ⟨_, ⟨_, ⟨_, ⟨b₁, hb₁, k₁, hk₁, rfl⟩, b₂, hb₂, rfl⟩, k₂, hk₂, rfl⟩, b₃, hb₃, rfl⟩,
    _, rfl, rfl⟩ := hd
  simp only [List.mem_append, List.mem_singleton] at hc
  rcases hc with ((((hc | hc) | hc) | hc) | hc) | rfl
  · exact hblanks hb₁ hc
  · exact hkeyword (by decide) hk₁ hc
  · exact hblanks hb₂ hc
  · exact hkeyword (by decide) hk₂ hc
  · exact hblanks hb₃ hc
  · rfl

theorem startsDark_keyword {letter : Char} {letters : List Char}
    (hletter : letter ∈ "stricteq:ignore".toList) : StartsDark (keyword (letter :: letters)) := by
  rintro v (_ | ⟨hc, -⟩)
  exact ⟨_, _, rfl, (isBlank_and_isPlain_of_isLetter hletter hc).1⟩

theorem startsDark_bracket : StartsDark {['[']} := by
  rintro v rfl
  exact ⟨'[', [], rfl, by decide⟩

/-- The reader of an opener takes the words of its language, step by step. -/
theorem reads_opener : Reads afterOpener? opener := by
  have hignore := (reads_keyword "ignore".toList).bind (reads_bracket.skipBlanks startsDark_bracket)
  have hname := (reads_keyword "stricteq:".toList).bind
    (hignore.skipBlanks (startsDark_keyword (by decide)).mul)
  have hall := reads_sign.bind (hname.skipBlanks (startsDark_keyword (by decide)).mul)
  rw [opener, directive]
  simp only [mul_assoc] at hall ⊢
  exact hall

theorem afterOpener?_eq_some_iff {cs rest : List Char} :
    afterOpener? cs = some rest ↔ ∃ o ∈ opener, cs = o ++ rest :=
  reads_opener cs rest

theorem afterOpener?_append {o : List Char} (ho : o ∈ opener) (rest : List Char) :
    afterOpener? (o ++ rest) = some rest :=
  afterOpener?_eq_some_iff.mpr ⟨o, ho, rfl⟩

theorem mem_opener_iff {o : List Char} : o ∈ opener ↔ afterOpener? o = some [] := by
  rw [afterOpener?_eq_some_iff]
  simp

theorem ne_nil_of_mem_opener {o : List Char} (ho : o ∈ opener) : o ≠ [] := by
  rintro rfl
  exact absurd (mem_opener_iff.mp ho) (by decide)

theorem bracket_not_mem_opener {o : List Char} (ho : o ∈ opener) : ']' ∉ o := by
  obtain ⟨s, hs, d, hd, rfl⟩ := ho
  rw [List.mem_append, not_or]
  refine ⟨?_, fun h => absurd (isPlain_of_mem_directive hd h) (by decide)⟩
  rcases hs with rfl | rfl | rfl <;> decide

theorem opener_append_inj {o o' cs cs' : List Char} (ho : o ∈ opener) (ho' : o' ∈ opener)
    (h : o ++ cs = o' ++ cs') : o = o' ∧ cs = cs' := by
  have hrest : some cs = some cs' := by
    rw [← afterOpener?_append ho, ← afterOpener?_append ho', h]
  obtain rfl := Option.some.inj hrest
  exact ⟨List.append_cancel_right h, rfl⟩

theorem afterSign?_of_isPlain {c : Char} (hc : isPlain c) (cs : List Char) :
    afterSign? (c :: cs) = none := by
  unfold afterSign?
  split <;> simp_all [isPlain]

/-- A plain character behind a part of a comment sign does not complete a sign. -/
theorem afterSign?_of_isPlain_second {c d : Char} (hc : c ∈ ['/', '*']) (hd : isPlain d)
    (cs : List Char) : afterSign? (c :: d :: cs) = none := by
  unfold afterSign?
  split <;> simp_all [isPlain]

theorem exists_cons_of_mem_directive {d : List Char} (hd : d ∈ directive) :
    ∃ c cs, d = c :: cs ∧ isPlain c := by
  have hne : d ≠ [] := by
    obtain ⟨_, -, _, rfl, rfl⟩ := hd
    exact List.concat_ne_nil _ _
  obtain ⟨c, cs, rfl⟩ := List.exists_cons_of_ne_nil hne
  exact ⟨c, cs, rfl, isPlain_of_mem_directive hd List.mem_cons_self⟩

/-- What is left of a sign behind its first character is one character at most. -/
theorem eq_nil_or_singleton_of_append_mem_sign {xs ys : List Char} (h : xs ++ ys ∈ sign)
    (hxs : xs ≠ []) : ys = [] ∨ ∃ c ∈ ['/', '*'], ys = [c] := by
  obtain ⟨x, xs, rfl⟩ := List.exists_cons_of_ne_nil hxs
  rcases h with h | h | h <;> obtain ⟨-, h⟩ := List.cons.inj h
  · rcases List.append_eq_singleton_iff.mp h with ⟨-, rfl⟩ | ⟨-, rfl⟩
    · exact .inr ⟨'/', by decide, rfl⟩
    · exact .inl rfl
  · exact .inl (List.append_eq_nil_iff.mp h).2
  · rcases List.append_eq_singleton_iff.mp h with ⟨-, rfl⟩ | ⟨-, rfl⟩
    · exact .inr ⟨'*', by decide, rfl⟩
    · exact .inl rfl

/-- No opener starts inside of another one. -/
theorem afterOpener?_of_append_mem {xs ys : List Char} (h : xs ++ ys ∈ opener) (hxs : xs ≠ [])
    (hys : ys ≠ []) (cs : List Char) : afterOpener? (ys ++ cs) = none := by
  suffices hsign : afterSign? (ys ++ cs) = none by
    rw [afterOpener?, hsign]
    rfl
  obtain ⟨s, hs, d, hd, heq⟩ := h
  rcases List.append_eq_append_iff.mp heq with ⟨before, rfl, rfl⟩ | ⟨inSign, rfl, rfl⟩
  · -- the rest of the opener lies in the directive, which has plain characters only
    obtain ⟨c, ys, rfl⟩ := List.exists_cons_of_ne_nil hys
    have hc : isPlain c :=
      isPlain_of_mem_directive hd (List.mem_append_right before List.mem_cons_self)
    exact afterSign?_of_isPlain hc (ys ++ cs)
  · -- the rest starts with what is left of the sign
    obtain ⟨c, d, rfl, hc⟩ := exists_cons_of_mem_directive hd
    rcases eq_nil_or_singleton_of_append_mem_sign hs hxs with rfl | ⟨mark, hmark, rfl⟩
    · exact afterSign?_of_isPlain hc (d ++ cs)
    · exact afterSign?_of_isPlain_second hmark hc (d ++ cs)

theorem mem_anyComment_iff {v : List Char} :
    v ∈ anyComment ↔ ∃ o ∈ opener, ∃ content : List Char,
      (']' ∉ content ∧ '\n' ∉ content) ∧ (v = o ++ (content ++ [']']) ∨ v = o ++ content) := by
  have hcontent {content : List Char} : content ∈ (oneOf (fun c => c != ']' && c != '\n'))∗ ↔
      ']' ∉ content ∧ '\n' ∉ content := by
    rw [mem_kstar_oneOf]
    simp only [Bool.and_eq_true, bne_iff_ne]
    constructor
    · intro h
      exact ⟨fun hc => (h _ hc).1 rfl, fun hc => (h _ hc).2 rfl⟩
    · rintro ⟨hbracket, hnewline⟩ c hc
      exact ⟨fun h => hbracket (h ▸ hc), fun h => hnewline (h ▸ hc)⟩
  constructor
  · rintro ⟨_, ⟨o, ho, content, h, rfl⟩, closing, rfl | rfl, rfl⟩
    · exact ⟨o, ho, content, hcontent.mp h, .inl (List.append_assoc _ _ _)⟩
    · exact ⟨o, ho, content, hcontent.mp h, .inr (List.append_nil _)⟩
  · rintro ⟨o, ho, content, h, rfl | rfl⟩
    · rw [← List.append_assoc]
      exact Language.append_mem_mul (Language.append_mem_mul ho (hcontent.mpr h)) (.inl rfl)
    · rw [← List.append_nil (o ++ content)]
      exact Language.append_mem_mul (Language.append_mem_mul ho (hcontent.mpr h)) (.inr rfl)

/-- Blanks around the contents are contents themselves. -/
theorem mem_readComment_iff {v : List Char} :
    v ∈ readComment ↔ ∃ o ∈ opener, ∃ content : List Char,
      (content ≠ [] ∧ ']' ∉ content) ∧ v = o ++ (content ++ [']']) := by
  constructor
  · rintro ⟨_, ⟨_, ⟨_, ⟨o, ho, b, hb, rfl⟩, _, ⟨_, ⟨c, hc, rfl⟩, cs, hcs, rfl⟩, rfl⟩, b', hb',
      rfl⟩, _, rfl, rfl⟩
    have hmiddle : ']' ∉ c :: cs := by
      refine forall_ne_bracket_iff.mp (List.forall_mem_cons.mpr ⟨hc, ?_⟩)
      exact mem_kstar_oneOf.mp hcs
    have hb : ']' ∉ b := mark_not_mem_blanks rfl hb
    have hb' : ']' ∉ b' := mark_not_mem_blanks rfl hb'
    refine ⟨o, ho, b ++ (c :: cs) ++ b', ⟨by simp, ?_⟩, by simp⟩
    simp only [List.mem_append, hb, hmiddle, hb', or_self, not_false_eq_true]
  · rintro ⟨o, ho, content, ⟨hne, hbracket⟩, rfl⟩
    obtain ⟨c, cs, rfl⟩ := List.exists_cons_of_ne_nil hne
    obtain ⟨hc, hcs⟩ := List.forall_mem_cons.mp (forall_ne_bracket_iff.mpr hbracket)
    have hmiddle : [c] ++ cs ∈ oneOf (· != ']') * (oneOf (· != ']'))∗ :=
      Language.append_mem_mul ⟨c, hc, rfl⟩ (mem_kstar_oneOf.mpr hcs)
    have hnone : [] ∈ blanks := Language.nil_mem_kstar _
    have hparts : o ++ (c :: cs ++ [']']) = o ++ [] ++ ([c] ++ cs) ++ [] ++ [']'] := by simp
    rw [hparts]
    exact Language.append_mem_mul (Language.append_mem_mul (Language.append_mem_mul
      (Language.append_mem_mul ho hnone) hmiddle) hnone) rfl

end Suppression

end StrictEquality
