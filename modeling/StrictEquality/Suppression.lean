import StrictEquality.Text.Blank
import StrictEquality.Text.Glob
import StrictEquality.Text.Lines

/-!
# Suppression comments

Comments such as `// stricteq: ignore[lang.*, other.rule]` silence the findings
of the rules named there on the line where they stand.

## Main definitions

- `Suppression.afterOpener?` — recognises a comment up to its opening bracket
- `Suppression.patterns` — the rule patterns of a line
- `Suppression.complaints` — what is wrong with the comments of a line
- `Suppressions.ofText` — the patterns of each line of a text
- `Suppressions.covers` — whether a finding is silenced
- `Suppressions.filterFound` — the findings that are not

## Design notes

The two readings of a line look for comments from left to right. The one for
patterns passes over a comment whose bracket is empty or never closed and looks on
right behind its first character; the one for complaints takes every comment, up
to its closing bracket or the end of the line.
-/

namespace StrictEquality

namespace Suppression

/-- Whether a character is a letter of a keyword, in either case. The letters i and
s have case variants outside ASCII. -/
def isLetter (letter c : Char) : Bool :=
  c == letter || c == letter.toUpper ||
    (letter == 'i' && (c == '\u0130' || c == '\u0131')) || (letter == 's' && c == '\u017F')

/-- The text after a keyword. -/
def afterWord? : List Char → List Char → Option (List Char)
  | [], cs => some cs
  | _ :: _, [] => none
  | w :: ws, c :: cs => if isLetter w c then afterWord? ws cs else none

/-- The text after a comment sign. -/
def afterSign? : List Char → Option (List Char)
  | '/' :: '/' :: cs => some cs
  | '/' :: '*' :: cs => some cs
  | '#' :: cs => some cs
  | _ => none

/-- The text after the opening bracket of a suppression comment that starts here. -/
def afterOpener? (cs : List Char) : Option (List Char) := do
  let cs ← afterSign? cs
  let cs ← afterWord? "stricteq:".toList (Text.skipBlanks cs)
  let cs ← afterWord? "ignore".toList (Text.skipBlanks cs)
  match Text.skipBlanks cs with
  | '[' :: rest => some rest
  | _ => none

/-- The characters up to the first closing bracket, and from it on. -/
def splitBracket (cs : List Char) : List Char × List Char :=
  (cs.takeWhile (· != ']'), cs.dropWhile (· != ']'))

/-- The contents of the brackets that are closed and not empty, from left to right.
Each step takes a character at least. -/
def contents : Nat → List Char → List (List Char)
  | 0, _ => []
  | _, [] => []
  | fuel + 1, c :: cs =>
    match afterOpener? (c :: cs) with
    | none => contents fuel cs
    | some rest =>
      match splitBracket rest with
      | (d :: ds, _ :: tail) => (d :: ds) :: contents fuel tail
      -- an opener inside of this comment may still have a closed bracket
      | _ => contents fuel cs

/-- The rule patterns between two brackets: separated by commas, blank ones left
out. -/
def pieces (content : List Char) : List String :=
  (((Text.splitAt ',' content).map Text.trim).filter (fun p => !p.isEmpty)).map String.ofList

/-- The rule patterns of a line, each once. -/
def patterns (line : List Char) : List String :=
  ((contents line.length line).flatMap pieces).eraseDups

/-- A comment as the check sees it: what follows the bracket, and whether the
bracket is closed. -/
structure Comment where
  content : List Char
  closed : Bool
  deriving DecidableEq, Repr

/-- The comments of a line, from left to right. -/
def comments : Nat → List Char → List Comment
  | 0, _ => []
  | _, [] => []
  | fuel + 1, c :: cs =>
    match afterOpener? (c :: cs) with
    | none => comments fuel cs
    | some rest =>
      match splitBracket rest with
      | (content, _ :: tail) => { content, closed := true } :: comments fuel tail
      -- without a closing bracket the comment takes the rest of the line
      | (content, []) => [{ content, closed := false }]

/-- What is wrong with a suppression comment. -/
inductive Complaint
  | unclosed
  | empty
  deriving DecidableEq, Repr

namespace Complaint

/-- The wording of a complaint. -/
def message : Complaint → String
  | unclosed => "Unclosed suppression bracket"
  | empty => "Empty suppression pattern"

end Complaint

/-- Whether only blanks stand between some opening bracket and the closing one. -/
def hasBlankBrackets (content : List Char) : Bool :=
  ('[' :: content).reverse.dropWhile Text.isBlank |>.head? |>.any (· == '[')

/-- What is wrong with one comment. -/
def Comment.complaint? (c : Comment) : Option Complaint :=
  if !c.closed then some .unclosed
  else if hasBlankBrackets c.content then some .empty
  else none

/-- What is wrong with the comments of a line. -/
def complaints (line : List Char) : List Complaint :=
  (comments line.length line).filterMap Comment.complaint?

/-- What is wrong with the comments of a text, with the number of the line. -/
def validate (text : List Char) : List (Nat × Complaint) :=
  ((Text.lines text).zipIdx 1).flatMap (fun p => (complaints p.1).map (fun c => (p.2, c)))

end Suppression

/-- The suppression patterns of a text. -/
structure Suppressions where
  /-- The text they were read from. -/
  text : List Char
  /-- The lines with patterns, by number, and their patterns. -/
  byLine : List (Nat × List String)

namespace Suppressions

/-- Read the suppression comments of a text. -/
def ofText (text : List Char) : Suppressions where
  text := text
  byLine :=
    (((Text.lines text).zipIdx 1).map (fun p => (p.2, Suppression.patterns p.1))).filter
      (fun e => !e.2.isEmpty)

/-- The patterns of a line. -/
def patternsAt (s : Suppressions) (line : Nat) : List String :=
  ((s.byLine.find? (fun e => e.1 == line)).map Prod.snd).getD []

/-- Whether a finding of a rule at a byte offset is silenced. -/
def covers (s : Suppressions) (rule : String) (offset : Int) : Bool :=
  (s.patternsAt (Text.lineAt s.text offset)).any (fun p => globMatches p rule)

/-- What is left of things found in a text once the silenced ones are dropped, given the
rule and the byte offset of each. -/
def filterFound {α : Type} (rule : α → String) (offset : α → Int) (found : List α)
    (text : List Char) : List α :=
  if found.isEmpty then found
  else
    let s := ofText text
    found.filter (fun x => !s.covers (rule x) (offset x))

/-- How many different patterns there are. -/
def uniquePatterns (s : Suppressions) : Nat :=
  (s.byLine.flatMap Prod.snd).eraseDups.length

/-- How many patterns there are, counted for each line. -/
def totalPatterns (s : Suppressions) : Nat :=
  (s.byLine.flatMap Prod.snd).length

end Suppressions

end StrictEquality
