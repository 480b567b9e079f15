import StrictEquality.Yaml.Scalar.Plain
import StrictEquality.Yaml.Scalar.Block
import StrictEquality.Yaml.Token.Property

/-!
# From text to tokens

Tokens are read from left to right. Two kinds of them follow from the layout and
have no characters of their own. Block collections start where a token is further
to the right than the block around it, and end where one is further to the left.
And a key need not be marked: a token that may be a key is remembered, and a colon
after it makes it one, by putting the marks in front of it.

## Main definitions

- `KeyCandidate` — a token that a colon may still make a key
- `Lexer` — the state between two tokens
- `Lexer.next` — read one more token
- `Token.scan` — the tokens of a text
-/

namespace StrictEquality

namespace Yaml

/-- A token that a colon may still make a key. -/
structure KeyCandidate where
  /-- How many tokens come before it. -/
  position : Nat
  /-- Whether nothing but a key may stand there. -/
  required : Bool
  index : Nat
  line : Nat
  column : Nat

/-- The state between two tokens. -/
structure Lexer where
  cursor : Cursor
  /-- The tokens so far, the last one first. -/
  tokens : List Token := []
  /-- The number of tokens so far. -/
  count : Nat := 0
  /-- The columns of the block collections that are open, the innermost first. -/
  blocks : List Nat := []
  /-- Whether a key may start here. -/
  keyAllowed : Bool := true
  /-- The candidate for a key in the innermost flow collection. -/
  candidate : Option KeyCandidate := none
  /-- The candidates in the flow collections around it, the nearest first. -/
  outer : List (Option KeyCandidate) := []

/-- How far a key may be from its colon. -/
def maxKeyLength : Nat := 1024

namespace Lexer

def inFlow (s : Lexer) : Bool :=
  !s.outer.isEmpty

/-- The column that the lines of a scalar have to reach: one further than that of the
innermost block collection. -/
def margin (s : Lexer) : Nat :=
  match s.blocks with
  | [] => 0
  | column :: _ => column + 1

def emit (s : Lexer) (t : Token) : Lexer :=
  { s with tokens := t :: s.tokens, count := s.count + 1 }

/-- Put tokens in front of the one with the given number. -/
def insertAt (s : Lexer) (position : Nat) (ts : List Token) : Lexer :=
  let recent := s.count - position
  { s with
    tokens := s.tokens.take recent ++ ts.reverse ++ s.tokens.drop recent
    count := s.count + ts.length }

def moveTo (s : Lexer) (c : Cursor) : Lexer :=
  { s with cursor := c }

def pass (s : Lexer) (n : Nat) : Lexer :=
  s.moveTo (s.cursor.skip n)

/-- Say whether a key may start here. -/
def allowKey (s : Lexer) (allowed : Bool) : Lexer :=
  { s with keyAllowed := allowed }

/-- Close the block collections that satisfy a condition on their columns. -/
def closeWhile (s : Lexer) (closes : Nat → Bool) : List Nat → Lexer
  | [] => { s with blocks := [] }
  | column :: rest =>
    if closes column then (s.emit .blockEnd).closeWhile closes rest
    else { s with blocks := column :: rest }

/-- Close the block collections that a token at a column is outside of. Layout means
nothing inside of flow collections. -/
def closeTo (s : Lexer) (column : Nat) : Lexer :=
  if s.inFlow then s else s.closeWhile (column < ·) s.blocks

def closeAll (s : Lexer) : Lexer :=
  if s.inFlow then s else s.closeWhile (fun _ => true) s.blocks

/-- Whether a token at a column starts a block collection. -/
def opensAt (s : Lexer) (column : Nat) : Bool :=
  match s.blocks with
  | [] => true
  | inner :: _ => inner < column

/-- Open a block collection, if a token at a column starts one. -/
def openAt (s : Lexer) (column : Nat) (start : Token) : Lexer :=
  if s.opensAt column then ({ s with blocks := column :: s.blocks } : Lexer).emit start else s

/-- Give up a candidate. One that has to be a key cannot be given up. -/
def giveUp : Option KeyCandidate → Except Fault (Option KeyCandidate)
  | some k => if k.required then .error .malformed else .ok none
  | none => .ok none

/-- Give up the candidate of the innermost flow collection. -/
def dropCandidate (s : Lexer) : Except Fault Lexer := do
  return { s with candidate := ← giveUp s.candidate }

/-- Give up a candidate that is on another line or too far away. -/
def expire (c : Cursor) (candidate : Option KeyCandidate) :
    Except Fault (Option KeyCandidate) :=
  match candidate with
  | none => .ok none
  | some k =>
    if k.line != c.line || maxKeyLength < c.index - k.index then giveUp (some k)
    else .ok (some k)

/-- Give up the candidates that are on another line or too far away. -/
def expireCandidates (s : Lexer) : Except Fault Lexer := do
  return { s with
    candidate := ← expire s.cursor s.candidate
    outer := ← s.outer.mapM (expire s.cursor) }

/-- Remember the next token as a candidate, where a key may start. -/
def saveCandidate (s : Lexer) : Except Fault Lexer := do
  if s.keyAllowed then
    let s ← s.dropCandidate
    return { s with
      candidate := some
        { position := s.count
          required := !s.inFlow && s.blocks.head? == some s.cursor.column
          index := s.cursor.index
          line := s.cursor.line
          column := s.cursor.column } }
  else return s

/-- Pass spaces, comments and line breaks. Each line break takes a character. -/
def skipGaps (s : Lexer) : Nat → Lexer
  | 0 => s
  | fuel + 1 =>
    let c := s.cursor.spaces.comment
    match c.lineBreak? with
    | none => s.moveTo c
    | some (_, next) =>
      let s := s.moveTo next
      (if s.inFlow then s else s.allowKey true).skipGaps fuel

/-- Pass what lies in front of a token. A byte order mark may start the text. -/
def skipToToken (s : Lexer) : Lexer :=
  let s :=
    if s.cursor.index == 0 && s.cursor.rest.head? == some '\uFEFF' then s.pass 1 else s
  s.skipGaps (s.cursor.rest.length + 1)

/-- Read a marker of the start or the end of a document. -/
def readMarker (s : Lexer) (t : Token) : Except Fault Lexer := do
  let s ← s.closeAll.dropCandidate
  return ((s.allowKey false).pass 3).emit t

def readDirective (s : Lexer) : Except Fault Lexer := do
  let s := (← s.closeAll.dropCandidate).allowKey false
  let (d, rest) ← directive s.cursor.rest.tail
  let c := (s.cursor.goTo rest).spaces.comment
  if endsLine c.rest then return (s.moveTo c.lineBreak).emit (.directive d)
  else .error .malformed

def openFlow (s : Lexer) (t : Token) : Except Fault Lexer := do
  let s ← s.saveCandidate
  let s := { s with candidate := none, outer := s.candidate :: s.outer }
  return ((s.allowKey true).pass 1).emit t

def closeFlow (s : Lexer) (t : Token) : Except Fault Lexer := do
  let s ← s.dropCandidate
  match s.outer with
  | [] => .error .malformed
  | candidate :: outer =>
    return (({ s with candidate, outer } : Lexer).allowKey false |>.pass 1).emit t

/-- Read the comma between the items of a flow collection. -/
def readComma (s : Lexer) : Except Fault Lexer := do
  let s ← s.dropCandidate
  return ((s.allowKey true).pass 1).emit .comma

/-- Read the indicator of an item or of a key outside of flow collections, which may
open a block collection. -/
def readBlockMark (s : Lexer) (start t : Token) : Except Fault Lexer := do
  unless s.inFlow || s.keyAllowed do
    .error .malformed
  let opened := if s.inFlow then s else s.openAt s.cursor.column start
  let opened ← opened.dropCandidate
  return ((opened.allowKey (t == .entry || !s.inFlow)).pass 1).emit t

/-- Read the indicator of a value. It makes the candidate a key, if there is one. -/
def readValue (s : Lexer) : Except Fault Lexer := do
  match s.candidate with
  | some k =>
    let opens := !s.inFlow && s.opensAt k.column
    let marks := if opens then [.blockMapping, .key] else [.key]
    let blocks := if opens then k.column :: s.blocks else s.blocks
    let s := ({ s with candidate := none, blocks } : Lexer).insertAt k.position marks
    return ((s.allowKey false).pass 1).emit .value
  | none =>
    unless s.inFlow || s.keyAllowed do
      .error .malformed
    let opened := if s.inFlow then s else s.openAt s.cursor.column .blockMapping
    return ((opened.allowKey (!s.inFlow)).pass 1).emit .value

/-- Read a token that may be a key, given how to read it after its first character. -/
def readCandidate (s : Lexer) (read : List Char → Except Fault (Token × List Char)) :
    Except Fault Lexer := do
  let s := (← s.saveCandidate).allowKey false
  let (t, rest) ← read s.cursor.rest.tail
  return (s.moveTo (s.cursor.goTo rest)).emit t

def readBlockScalar (s : Lexer) (folded : Bool) : Except Fault Lexer := do
  let s := (← s.dropCandidate).allowKey true
  let (content, c) ← blockScalar folded s.margin (s.cursor.skip 1)
  return (s.moveTo c).emit (.scalar (String.ofList content) false)

/-- Read a plain scalar. A line end after it lets a key start. -/
def readPlain (s : Lexer) : Except Fault Lexer := do
  let s ← s.saveCandidate
  let scalar := plain s.inFlow s.margin s.cursor
  return ((s.allowKey scalar.broke).moveTo scalar.cursor).emit
    (.scalar (String.ofList scalar.content) true)

/-- Read an anchor or an alias, given the token for its name. -/
def readName (s : Lexer) (token : String → Token) : Except Fault Lexer :=
  s.readCandidate (fun cs => do
    let (name, rest) ← anchorName cs
    return (token name, rest))

/-- Read a quoted scalar. -/
def readQuoted (s : Lexer) (double : Bool) : Except Fault Lexer :=
  s.readCandidate (fun cs => do
    let (content, rest) ← quoted double cs
    return (.scalar (String.ofList content) false, rest))

/-- Read the token that starts with a character, which is followed by the given
text. -/
def readToken (s : Lexer) (c : Char) (after : List Char) : Except Fault Lexer :=
  let lineStart := s.cursor.column == 0
  if c == '%' && lineStart then s.readDirective
  else if lineStart && startsMarker '-' (c :: after) then s.readMarker .documentStart
  else if lineStart && startsMarker '.' (c :: after) then s.readMarker .documentEnd
  else if c == '[' then s.openFlow .flowSequence
  else if c == '\x7b' then s.openFlow .flowMapping
  else if c == ']' then s.closeFlow .flowSequenceEnd
  else if c == '\x7d' then s.closeFlow .flowMappingEnd
  else if c == ',' then s.readComma
  else if c == '-' && endsWord after then s.readBlockMark .blockSequence .entry
  else if c == '?' && (s.inFlow || endsWord after) then s.readBlockMark .blockMapping .key
  else if c == ':' && (s.inFlow || endsWord after) then s.readValue
  else if c == '*' then s.readName .alias
  else if c == '&' then s.readName .anchor
  else if c == '!' then s.readCandidate tagProperty
  else if c == '|' && !s.inFlow then s.readBlockScalar false
  else if c == '>' && !s.inFlow then s.readBlockScalar true
  else if c == '\'' then s.readQuoted false
  else if c == '"' then s.readQuoted true
  else if startsPlain s.inFlow (c :: after) then s.readPlain
  else .error .malformed

/-- Read one more token. None at the end of the text, where all blocks are closed. -/
def next (s : Lexer) : Except Fault (Lexer × Bool) := do
  let s ← s.skipToToken.expireCandidates
  match s.cursor.rest with
  | [] => return (← s.closeAll.dropCandidate, false)
  | c :: after => return (← (s.closeTo s.cursor.column).readToken c after, true)

/-- Read all tokens. Each takes a character at least. -/
def readAll (s : Lexer) : Nat → Except Fault Lexer
  | 0 => .error .malformed
  | fuel + 1 => do
    match ← s.next with
    | (s, true) => s.readAll fuel
    | (s, false) => return s

end Lexer

/-- The tokens of a text. -/
def Token.scan (cs : List Char) : Except Fault (List Token) := do
  let s ← Lexer.readAll { cursor := { rest := cs } } (cs.length + 1)
  return s.tokens.reverse

end Yaml

end StrictEquality
