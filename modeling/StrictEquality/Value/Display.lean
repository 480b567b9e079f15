import StrictEquality.Value
import StrictEquality.Number.Decimal

/-!
# Values in messages

How messages show a value of a configuration.

## Main definitions

- `Value.display` — the form that tells a text from other values
- `Value.plain` — the same, but a text or a date as it is
-/

namespace StrictEquality

namespace Value

mutual

/-- The form of a value in a message, texts quoted. -/
def display : Value → String
  | null => "None"
  | bool b => if b then "True" else "False"
  | int i => toString i
  | float x => x.text
  | text s => Text.quote s
  | bytes bs => Text.quoteBytes bs
  | date _ shown => shown
  | list items => "[" ++ ", ".intercalate (displayAll items) ++ "]"
  | map entries => "\x7b" ++ ", ".intercalate (displayEntries entries) ++ "\x7d"
  | set [] => "set()"
  | set (v :: vs) => "\x7b" ++ ", ".intercalate (displayAll (v :: vs)) ++ "\x7d"

/-- The forms of several values. -/
def displayAll : List Value → List String
  | [] => []
  | v :: vs => display v :: displayAll vs

/-- The forms of several entries. -/
def displayEntries : List (Value × Value) → List String
  | [] => []
  | (k, v) :: rest => (display k ++ ": " ++ display v) :: displayEntries rest

end

/-- The form of a value inside a sentence: a text or a date as it is. -/
def plain : Value → String
  | text s => s
  | date s _ => s
  | v => v.display

end Value

end StrictEquality
