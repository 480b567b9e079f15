import StrictEquality.Value.Order
import StrictEquality.Yaml.Document
import StrictEquality.Yaml.Library
import StrictEquality.Yaml.Style

/-!
# Written documents

The text of a value as a document. In block form every entry and every item has a
line of its own; keys are sorted, and the items of a list below a key are not
indented. In flow form everything is on one line, with all texts quoted.

## Main definitions

- `render` — a mapping in block form
- `renderLine` — a value in flow form
- `library` — reading and writing together

## Design notes

A key that is short and stands on one line is followed by a colon. Any other key
is marked by a question mark, and its value starts on a line of its own.

What is read and written here is a part of the format: dates are read as texts, and
bytes, ordered mappings and lists of pairs are not known at all.
-/

namespace StrictEquality

namespace Yaml

/-- The longest key, with its tag, that needs no mark. -/
def maxPlainKey : Nat := 127

/-- How many characters the short form of the tag of a key has. -/
def keyTagLength : Value → Nat
  | .bool _ | .null => 6
  | .float _ => 7
  | _ => 5

/-- A scalar. Bytes and collections have no such form and give an empty text. -/
def renderScalar (indent : Nat) : Value → String
  | .null => "null"
  | .bool b => if b then "true" else "false"
  | .int i => toString i
  | .float x => writtenNumber x
  | .text s => writtenText indent s
  | .date s _ => s
  | _ => ""

/-- The text that a key stands for. -/
def keyText : Value → String
  | .text s => s
  | v => renderScalar 0 v

/-- Whether a key needs no mark: it is neither empty nor too long and has one line. -/
def isPlainKey (key : Value) : Bool :=
  let cs := (keyText key).toList
  !cs.isEmpty && !cs.any isBreak && keyTagLength key + cs.length ≤ maxPlainKey

/-- Lines that start in a column, the first of which has been started already. -/
def stack (column : Nat) (ls : List String) : String :=
  ("\n" ++ String.ofList (spaces column)).intercalate ls

/-- A line that starts in a column. -/
def newLine (column : Nat) (s : String) : String :=
  "\n" ++ String.ofList (spaces column) ++ s

/-- An entry in a column, given the text of its value after a colon and after a mark. -/
def renderEntry (column : Nat) (key : Value) (afterColon afterMark : String) : String :=
  if isPlainKey key then renderScalar column key ++ ":" ++ afterColon
  else "? " ++ renderScalar (column + 2) key ++ newLine column (":" ++ afterMark)

/-- The entry of a set, which has no value. -/
def renderMember (column : Nat) (key : Value) : String :=
  renderEntry column key " null" " null"

/-- The texts of entries, in the order of their keys. -/
def renderSorted (entries : List (Value × String)) : List String :=
  (Entries.sorted entries).map Prod.snd

def renderMembers (column : Nat) (members : List Value) : String :=
  stack column (renderSorted (members.map (fun v => (v, renderMember column v))))

mutual

def renderItems (column : Nat) : List Value → List String
  | [] => []
  | v :: vs => ("-" ++ renderAfterMark column v) :: renderItems column vs

/-- The entries of a mapping in a column, under their keys. -/
def renderEntries (column : Nat) : List (Value × Value) → List (Value × String)
  | [] => []
  | (key, v) :: rest =>
    (key, renderEntry column key (renderAfterColon column v) (renderAfterMark column v)) ::
      renderEntries column rest

/-- A value after the mark of an item. A collection starts on the same line. -/
def renderAfterMark (column : Nat) : Value → String
  | .list [] => " []"
  | .list (v :: vs) => " " ++ stack (column + 2) (renderItems (column + 2) (v :: vs))
  | .map [] => " \x7b\x7d"
  | .map (e :: es) =>
    " " ++ stack (column + 2) (renderSorted (renderEntries (column + 2) (e :: es)))
  | .set [] => " !!set \x7b\x7d"
  | .set (v :: vs) => " !!set" ++ newLine (column + 2) (renderMembers (column + 2) (v :: vs))
  | v => " " ++ renderScalar (column + 2) v

/-- A value after the colon of a key. A collection starts on the next line. -/
def renderAfterColon (column : Nat) : Value → String
  | .list [] => " []"
  | .list (v :: vs) => newLine column (stack column (renderItems column (v :: vs)))
  | .map [] => " \x7b\x7d"
  | .map (e :: es) =>
    newLine (column + 2) (stack (column + 2) (renderSorted (renderEntries (column + 2) (e :: es))))
  | .set [] => " !!set \x7b\x7d"
  | .set (v :: vs) => " !!set" ++ newLine (column + 2) (renderMembers (column + 2) (v :: vs))
  | v => " " ++ renderScalar (column + 2) v

end

/-- A mapping in block form. -/
def render : List (Value × Value) → String
  | [] => "\x7b\x7d\n"
  | entries => stack 0 (renderSorted (renderEntries 0 entries)) ++ "\n"

mutual

/-- A value in flow form. -/
def renderLine : Value → String
  | .text s => doubleQuoted s
  | .list items => "[" ++ ", ".intercalate (renderLines items) ++ "]"
  | .map entries => "\x7b" ++ ", ".intercalate (renderPairs entries) ++ "\x7d"
  | .set items => "!!set \x7b" ++ ", ".intercalate ((renderLines items).map ("? " ++ ·)) ++ "\x7d"
  | v => renderScalar 0 v

def renderLines : List Value → List String
  | [] => []
  | v :: vs => renderLine v :: renderLines vs

/-- Entries in flow form, with marked keys. -/
def renderPairs : List (Value × Value) → List String
  | [] => []
  | (key, v) :: rest => ("? " ++ renderLine key ++ " : " ++ renderLine v) :: renderPairs rest

end

/-- Documents as they are read and written here. -/
def library : Library where
  load := read
  dump := render

end Yaml

end StrictEquality
