/-!
# Shell patterns over identifiers

Patterns in which `*` stands for any run of characters, `?` for any character
and `[...]` for one character of a set. A pattern matches a whole text, case and
all.

## Main definitions

- `Glob.Token` — the pieces of a pattern
- `Glob.parse` — the pieces of a written pattern; every text is a pattern
- `Glob.accepts` — whether the pieces match a text
- `globMatches` — whether a written pattern matches a text

## Design notes

`accepts` works through the pieces from the last to the first and keeps, for each
suffix of the text, whether the pieces so far match it. The work is the product
of the two lengths, however many stars a pattern has.
-/

namespace StrictEquality

namespace Glob

/-- A member of a character set. -/
inductive Item
  | single (c : Char)
  | range (first last : Char)
  deriving DecidableEq, Repr

/-- A piece of a pattern. -/
inductive Token
  | star
  | any
  | literal (c : Char)
  | set (negated : Bool) (items : List Item)
  deriving DecidableEq, Repr

/-- The characters of a set member. -/
def Item.holds (c : Char) : Item → Bool
  | single d => c == d
  | range a b => a ≤ c && c ≤ b

/-- A range that runs backwards has no characters. -/
def Item.isEmpty : Item → Bool
  | single _ => false
  | range a b => b < a

/-- The single characters a piece other than a star stands for. -/
def Token.holds (c : Char) : Token → Bool
  | star => false
  | any => true
  | literal d => c == d
  | set negated items => items.any (Item.holds c) != negated

/-- The members of a written set. A dash between two characters makes a range. -/
def items : List Char → List Item
  | a :: '-' :: b :: rest => .range a b :: items rest
  | a :: rest => .single a :: items rest
  | [] => []

/-- The set with the given members. Backward ranges fall away; an exclamation mark
that comes to stand in front by that negates the rest. -/
def Token.ofItems (negated : Bool) (members : List Item) : Token :=
  let kept := members.filter (fun i => !i.isEmpty)
  if negated then .set true kept
  else
    match kept with
    | .single '!' :: rest => .set true rest
    | .range '!' b :: rest => .set true (.single '-' :: .single b :: rest)
    | _ => .set false kept

/-- The characters up to the first closing bracket and the rest after it. -/
def untilBracket? : List Char → Option (List Char × List Char)
  | [] => none
  | ']' :: rest => some ([], rest)
  | c :: rest => (untilBracket? rest).map (fun p => (c :: p.1, p.2))

/-- The body of a set: its first character may be a closing bracket. -/
def setBody? : List Char → Option (List Char × List Char)
  | [] => none
  | c :: rest => (untilBracket? rest).map (fun p => (c :: p.1, p.2))

/-- A set whose opening bracket has been read, with the rest of the pattern. -/
def set? : List Char → Option (Token × List Char)
  | '!' :: rest => (setBody? rest).map (fun p => (.ofItems true (items p.1), p.2))
  | rest => (setBody? rest).map (fun p => (.ofItems false (items p.1), p.2))

/-- The rest after a closing bracket is shorter. -/
theorem length_of_untilBracket? {cs : List Char} {p : List Char × List Char}
    (h : untilBracket? cs = some p) : p.2.length < cs.length := by
  fun_induction untilBracket? cs generalizing p with
  | case1 => simp at h
  | case2 rest => simp_all; subst h; simp
  | case3 c rest hc ih =>
    obtain ⟨q, hq, rfl⟩ := Option.map_eq_some_iff.1 h
    have := ih hq
    simp only [List.length_cons]
    omega

/-- The rest after a set body is shorter. -/
theorem length_of_setBody? {cs : List Char} {p : List Char × List Char}
    (h : setBody? cs = some p) : p.2.length < cs.length := by
  cases cs with
  | nil => simp [setBody?] at h
  | cons c rest =>
    obtain ⟨q, hq, rfl⟩ := Option.map_eq_some_iff.1 h
    have := length_of_untilBracket? hq
    simp only [List.length_cons]
    omega

/-- The rest after a set is shorter. -/
theorem length_of_set? {cs : List Char} {p : Token × List Char}
    (h : set? cs = some p) : p.2.length < cs.length := by
  unfold set? at h
  split at h
  · obtain ⟨q, hq, rfl⟩ := Option.map_eq_some_iff.1 h
    have := length_of_setBody? hq
    simp only [List.length_cons]
    omega
  · obtain ⟨q, hq, rfl⟩ := Option.map_eq_some_iff.1 h
    exact length_of_setBody? hq

/-- The pieces of a pattern. A bracket that is never closed stands for itself. -/
def parse (pattern : List Char) : List Token :=
  match pattern with
  | [] => []
  | '*' :: rest => .star :: parse rest
  | '?' :: rest => .any :: parse rest
  | '[' :: rest =>
    match h : set? rest with
    | some (token, tail) =>
      have := length_of_set? h
      token :: parse tail
    | none => .literal '[' :: parse rest
  | c :: rest => .literal c :: parse rest
termination_by pattern.length
decreasing_by all_goals simp_all <;> omega

/-- For each suffix, whether it or a later one is marked. -/
def orLater : List Bool → List Bool
  | [] => []
  | b :: bs =>
    let later := orLater bs
    (b || later.headD false) :: later

/-- From the suffixes that the later pieces match to those that match with one more
piece in front. -/
def extend (text : List Char) (token : Token) (marks : List Bool) : List Bool :=
  match token with
  | .star => orLater marks
  | t => List.zipWith (fun c later => t.holds c && later) text marks.tail ++ [false]

/-- The suffixes that an empty list of pieces matches: only the empty one. -/
def atEnd (text : List Char) : List Bool :=
  text.map (fun _ => false) ++ [true]

/-- Whether the pieces match the whole text. -/
def accepts (tokens : List Token) (text : List Char) : Bool :=
  (tokens.foldr (extend text) (atEnd text)).headD false

end Glob

/-- Whether a written pattern matches a whole text. -/
def globMatches (pattern text : String) : Bool :=
  Glob.accepts (Glob.parse pattern.toList) text.toList

end StrictEquality
