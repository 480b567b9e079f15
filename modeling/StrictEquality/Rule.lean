import StrictEquality.Comparison
import StrictEquality.Finding
import StrictEquality.Policy

/-!
# Rules

A rule looks at the comparisons of a file and reports findings.

## Main definitions

- `RuleMeta` — what is known about a rule without running it
- `RuleContext` — what a rule is given
- `Visit` — what comes of running a rule on a file
- `Rule` — a rule

## Design notes

A rule may give up after some findings, and it may change the list of comparisons it
is given. So a `Visit` holds the findings up to that point and the comparisons as the
rule leaves them; who runs the rule decides what to do with them. The settings are made
for the rule alone, and nobody else sees what it does to them.
-/

namespace StrictEquality

/-- What is known about a rule without running it. -/
structure RuleMeta where
  id : String
  category : String := ""
  priority : String := ""
  autofixSafety : String := ""
  description : String := ""
  langs : List String := []
  inferredTypes : Bool := true

/-- What a rule is given: the file, its comparisons, the settings of the rule and
the policies it may choose from. -/
structure RuleContext where
  file : String
  text : String
  comparisons : List Comparison := []
  settings : Entries := []
  language : String := "php"
  policies : Policies := .builtin

/-- What comes of running a rule: the findings, in order, up to a fault if there is
one. -/
structure Visit where
  findings : List Finding
  log : List Event := []
  fault : Option Fault := none
  /-- The comparisons that the rule was given, as it leaves them. -/
  comparisons : List Comparison

namespace Visit

/-- The findings of a run that ended well. -/
def outcome (v : Visit) : Except Fault (List Finding) :=
  match v.fault with
  | none => .ok v.findings
  | some fault => .error fault

end Visit

/-- A rule. -/
structure Rule where
  about : RuleMeta
  visit : RuleContext → Visit

namespace Rule

/-- The identifier of a rule. -/
def id (r : Rule) : String := r.about.id

/-- The languages of a rule. -/
def langs (r : Rule) : List String := r.about.langs

end Rule

end StrictEquality
