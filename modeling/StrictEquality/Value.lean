import StrictEquality.Fault
import StrictEquality.Number.Binary64

/-!
# Configuration values

The values a configuration document may hold. Users write them by hand, so a
setting may hold any of them, and each operation on a setting says which values
it is defined on.

## Main definitions

- `Value` — null, booleans, integers, floating-point numbers, texts, bytes, dates,
  lists, mappings and sets
- `Entries` — the entries of a mapping, in the order in which keys first came
- `Entries.find?`, `Entries.insert`, `Entries.merge` — look-up and update
- `Value.truthy`, `Value.elements?`, `Value.entries?`, `Value.contains?` — the
  readings of a value as a flag, a sequence, a mapping and a container

## Design notes

Keys are compared by value: the integer 1, the number 1.0 and the flag `true` are
one key. An update keeps the key that came first and its place. Lists, mappings
and sets cannot be keys.

A set has its items in the order in which they are visited, which need not be the one
in which they were written. A date, which may have a time of day, is known by how it is
written.
-/

namespace StrictEquality

/-- A value of a configuration document. -/
inductive Value
  | null
  | bool (b : Bool)
  | int (i : Int)
  | float (x : Binary64)
  | text (s : String)
  | bytes (bs : List UInt8)
  | date (text shown : String)
  | list (items : List Value)
  | map (entries : List (Value × Value))
  | set (items : List Value)
  deriving Repr, Inhabited

/-- The entries of a mapping, in the order in which their keys first came. -/
abbrev Entries := List (Value × Value)

namespace Value

/-- The number a value stands for as a key, if it is a number. -/
def integer? : Value → Option Int
  | bool b => some (if b then 1 else 0)
  | int i => some i
  | _ => none

/-- Whether two values are the same key. -/
def sameKey : Value → Value → Bool
  | null, null => true
  | text s, text t => s == t
  | bytes b, bytes c => b == c
  | date s _, date t _ => s == t
  | float .nan, float .nan => true
  | float x, float y => x.sameValue y
  | float x, v => v.integer?.any (fun i => x.compareInt? i == some .eq)
  | v, float x => v.integer?.any (fun i => x.compareInt? i == some .eq)
  | v, w =>
    match v.integer?, w.integer? with
    | some i, some j => i == j
    | _, _ => false

/-- Whether a value may be a key. -/
def isKey : Value → Bool
  | list _ | map _ | set _ => false
  | _ => true

/-- Whether a value counts as set when read as a flag. -/
def truthy : Value → Bool
  | null => false
  | bool b => b
  | int i => i != 0
  | float x => x.isNonzero
  | text s => s != ""
  | bytes bs => !bs.isEmpty
  | date _ _ => true
  | list items => !items.isEmpty
  | map entries => !entries.isEmpty
  | set items => !items.isEmpty

/-- Whether a value is the given text. -/
def isText (s : String) : Value → Bool
  | text t => t == s
  | _ => false

/-- The elements of a value read as a sequence: characters of a text, numbers of bytes,
keys of a mapping. -/
def elements? : Value → Except Fault (List Value)
  | text s => .ok (s.toList.map (fun c => text c.toString))
  | bytes bs => .ok (bs.map (fun b => int b.toNat))
  | list items => .ok items
  | map entries => .ok (entries.map Prod.fst)
  | set items => .ok items
  | _ => .error (.wrongType "a sequence")

end Value

namespace Entries

/-- The value under a key. -/
def find? (entries : Entries) (key : Value) : Option Value :=
  (List.find? (fun e => e.1.sameKey key) entries).map Prod.snd

/-- Put a value under a key. -/
def insert (entries : Entries) (key value : Value) : Entries :=
  match entries with
  | [] => [(key, value)]
  | e :: rest => if e.1.sameKey key then (e.1, value) :: rest else e :: insert rest key value

/-- What was put under a text is found there. -/
theorem find?_insert_text (entries : Entries) (s : String) (v : Value) :
    (entries.insert (.text s) v).find? (.text s) = some v := by
  induction entries with
  | nil => simp [insert, find?, Value.sameKey]
  | cons e rest ih =>
    rw [insert]
    by_cases hsame : e.1.sameKey (.text s)
    · rw [if_pos hsame]
      simp [find?, hsame]
    · rw [if_neg hsame]
      simpa [find?, hsame] using ih

/-- Put the entries of another mapping, in their order. -/
def merge (entries others : Entries) : Entries :=
  others.foldl (fun acc e => insert acc e.1 e.2) entries

/-- The entries written one after another as a mapping. -/
def ofPairs (pairs : List (Value × Value)) : Entries :=
  merge [] pairs

/-- A value that must be a key. -/
def key? (v : Value) : Except Fault Value :=
  if v.isKey then .ok v else .error (.wrongType "a key")

end Entries

namespace Value

/-- A value read as an entry: a sequence of two elements, the first of them a key. -/
def entry? (v : Value) : Except Fault (Value × Value) := do
  match ← v.elements? with
  | [k, x] => return (← Entries.key? k, x)
  | _ => .error (.wrongValue "a pair")

/-- A value read as a mapping: a mapping, or a sequence of entries. -/
def entries? : Value → Except Fault Entries
  | map entries => .ok entries
  | v => do return Entries.ofPairs (← (← v.elements?).mapM entry?)

/-- Whether one text is a part of another. -/
def occursIn (part : List Char) : List Char → Bool
  | [] => part.isEmpty
  | c :: cs => part.isPrefixOf (c :: cs) || occursIn part cs

/-- Whether a value holds a text: as a part of a text, an element of a list or a
set, or a key of a mapping. -/
def contains? (s : String) : Value → Except Fault Bool
  | text t => .ok (occursIn s.toList t.toList)
  | list items => .ok (items.any (isText s))
  | map entries => .ok (Entries.find? entries (text s)).isSome
  | set items => .ok (items.any (isText s))
  | _ => .error (.wrongType "a container")

/-- The value under a text. -/
def at? (s : String) : Value → Except Fault Value
  | map entries =>
    match Entries.find? entries (text s) with
    | some v => .ok v
    | none => .error .missingKey
  | _ => .error (.wrongType "a mapping")

/-- The value under a text, or another if the mapping has none. -/
def getD? (v : Value) (s : String) (default : Value) : Except Fault Value :=
  match v with
  | map entries => .ok ((Entries.find? entries (text s)).getD default)
  | _ => .error (.noMember "get")

end Value

end StrictEquality
