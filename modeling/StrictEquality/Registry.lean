import StrictEquality.Rule
import StrictEquality.Text.Glob

/-!
# The rule registry

The rules that are known, in the order in which they were registered, together with
an index by identifier.

## Main definitions

- `Registry` — the registered rules and their index
- `Registry.register` — add a rule, unless its identifier is taken
- `Registry.clear` — forget all rules
- `Registry.find?`, `Registry.ids`, `Registry.forLanguage` — look-up
- `Registry.enabled` — the rules that some of the given patterns name

## Design notes

The list and the index hold the same rules, each kept up to date by itself. Rules are
looked up by identifier in the index, and the list is what they are chosen from.
-/

namespace StrictEquality

/-- Rules by identifier, in the order in which the identifiers first came. -/
abbrev RuleIndex := List (String × Rule)

/-- Put a rule under an identifier, in the place of an earlier one if there is one. -/
def RuleIndex.insert (index : RuleIndex) (id : String) (rule : Rule) : RuleIndex :=
  match index with
  | [] => [(id, rule)]
  | e :: rest => if e.1 == id then (e.1, rule) :: rest else e :: RuleIndex.insert rest id rule

/-- The registered rules. -/
structure Registry where
  /-- The rules in the order in which they were registered. -/
  rules : List Rule := []
  /-- The rules by identifier. -/
  index : RuleIndex := []

namespace Registry

/-- A registry without rules. -/
def empty : Registry := {}

/-- The rule with an identifier. -/
def find? (r : Registry) (id : String) : Option Rule :=
  (List.find? (fun e => e.1 == id) r.index).map Prod.snd

/-- The identifiers of the registered rules. -/
def ids (r : Registry) : List String :=
  r.index.map Prod.fst

/-- Add a rule. If its identifier is taken the earlier rule stays. -/
def register (r : Registry) (rule : Rule) : Registry :=
  if r.ids.contains rule.id then r
  else { rules := r.rules ++ [rule], index := r.index.insert rule.id rule }

/-- Forget all rules. -/
def clear (r : Registry) : Registry :=
  { r with rules := [], index := [] }

/-- Add several rules, one after another. -/
def registerAll (r : Registry) (rules : List Rule) : Registry :=
  rules.foldl register r

/-- The rules that support a language. -/
def forLanguage (r : Registry) (language : String) : List Rule :=
  r.rules.filter (fun rule => rule.langs.contains language)

/-- The rules to choose from: those of a language, or all if none is given. -/
def candidates (r : Registry) (language : Option String) : List Rule :=
  match language with
  | none => r.rules
  | some l => if l = "" then r.rules else r.forLanguage l

/-- Whether one of the patterns matches an identifier. Patterns are looked at up to
the first match, and each must be a text. -/
def isEnabled (id : String) : List Value → Except Fault Bool
  | [] => .ok false
  | .text p :: rest => if globMatches p id then .ok true else isEnabled id rest
  | _ :: _ => .error (.wrongType "a text pattern")

/-- The rules of a list that the patterns enable. -/
def select (patterns : Value) : List Rule → Except Fault (List Rule)
  | [] => .ok []
  | rule :: rest => do
    let chosen ← isEnabled rule.id (← patterns.elements?)
    let others ← select patterns rest
    return if chosen then rule :: others else others

/-- The registered rules that the patterns enable, in the order of registration. -/
def enabled (r : Registry) (patterns : Value) (language : Option String) :
    Except Fault (List Rule) :=
  select patterns (r.candidates language)

end Registry

end StrictEquality
