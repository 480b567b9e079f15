import StrictEquality.Catalog
import StrictEquality.Config
import StrictEquality.Suppression

/-!
# Analysis of a file

Runs rules over the comparisons of one file and decides which findings are
reported.

## Main definitions

- `Job` — the file and its comparisons
- `Job.visitCopy` — a rule run on a copy of the comparisons
- `Job.run` — the findings of the given rules under a configuration
- `Registry.load` — the rules that a configuration enables, searched for first

## Design notes

A rule can change the list of comparisons that it is given, and the change is seen by
all who have the same list. So lists are kept by address, and every rule gets a copy at
an address of its own. A rule that gives up contributes nothing. The limit of findings
is looked at after each rule that ends well, and findings that a comment silences do
not count.
-/

namespace StrictEquality

/-- The limit of findings as a number of findings: whether so many reach it. -/
def Value.reachedBy (limit : Value) (count : Nat) : Except Fault Bool :=
  match limit with
  | .bool b => .ok ((if b then 1 else 0) ≤ count)
  | .int i => .ok (i ≤ count)
  | .float x =>
    .ok (match x.compareInt? count with
      | some .gt => false
      | some _ => true
      | none => false)
  | _ => .error (.wrongType "a number")

/-- The first findings up to a limit. A negative limit counts from the end. -/
def Value.cut (limit : Value) (findings : List Finding) : Except Fault (List Finding) :=
  match limit.integer? with
  | some (.ofNat n) => .ok (findings.take n)
  | some (.negSucc n) => .ok (findings.take (findings.length - (n + 1)))
  | none => .error (.wrongType "an integer")

/-- An integer limit is reached by as many findings as it says. -/
theorem Value.reachedBy_of_integer? {limit : Value} {i : Int} (h : limit.integer? = some i)
    (count : Nat) : limit.reachedBy count = .ok (decide (i ≤ count)) := by
  cases limit with
  | bool b =>
    obtain rfl : (if b then 1 else 0) = i := Option.some.inj h
    cases b with
    | false => simp [Value.reachedBy]
    | true =>
      have hcast : (1 : Int) ≤ count ↔ 1 ≤ count := by omega
      simp [Value.reachedBy, hcast]
  | int j =>
    obtain rfl : j = i := Option.some.inj h
    rfl
  | _ => simp [Value.integer?] at h

theorem Value.cut_of_integer? {limit : Value} {n : Nat} (h : limit.integer? = some (n : Int))
    (findings : List Finding) : limit.cut findings = .ok (findings.take n) := by
  rw [Value.cut, h]

/-- The file to analyse, with its comparisons. -/
structure Job where
  file : String
  text : String
  comparisons : List Comparison
  language : String := "php"

namespace Job

def context (job : Job) (policies : Policies) (settings : Entries) : RuleContext where
  file := job.file
  text := job.text
  comparisons := job.comparisons
  settings := settings
  language := job.language
  policies := policies

/-- A finding with the severity that the configuration gives its rule. -/
def withSeverity (config : Config) (f : Finding) : Except Fault Finding := do
  if ← config.severities.contains? f.rule then
    return { f with severity := ← config.severities.at? f.rule }
  else return f

/-- Add the findings of a rule to those so far: silenced ones are left out, severities are
overridden. -/
def addFindings (config : Config) (suppressions : Suppressions) (found : List Finding) :
    List Finding → Except Fault (List Finding)
  | [] => .ok found
  | f :: rest =>
    if suppressions.covers f.rule f.start then addFindings config suppressions found rest
    else do addFindings config suppressions (found ++ [← withSeverity config f]) rest

/-- How far an analysis has come. -/
structure Progress where
  found : List Finding
  /-- The lists of comparisons in use, by address. The one to analyse has the first. -/
  lists : List (List Comparison)

/-- Run a rule on the list of comparisons at an address. What the rule does to the list is
seen at that address from then on. -/
def visitAt (job : Job) (policies : Policies) (settings : Entries) (rule : Rule)
    (lists : List (List Comparison)) (address : Nat) : List (List Comparison) × Visit :=
  let comparisons := lists.getD address []
  let visit := rule.visit { job.context policies settings with comparisons }
  (lists.set address visit.comparisons, visit)

/-- Run a rule on a copy of the comparisons, which gets an address of its own. -/
def visitCopy (job : Job) (policies : Policies) (settings : Entries) (rule : Rule)
    (lists : List (List Comparison)) : List (List Comparison) × Visit :=
  job.visitAt policies settings rule (lists ++ [lists.getD 0 []]) lists.length

/-- Run rules, from some progress on. -/
def runFrom (job : Job) (config : Config) (policies : Policies) (suppressions : Suppressions)
    (p : Progress) : List Rule → Report Progress
  | [] => pure p
  | rule :: rest => do
    let given ← .ofExcept (config.ruleConfigs.getD? rule.id (.map []))
    let settings ← .ofExcept given.entries?
    let (lists, visit) := job.visitCopy policies settings rule p.lists
    { log := visit.log, outcome := .ok () }
    match visit.fault with
    | some fault =>
      .note (.ruleFailed rule.id job.file fault)
      job.runFrom config policies suppressions { p with lists } rest
    | none =>
      let found ← .ofExcept (addFindings config suppressions p.found visit.findings)
      if ← .ofExcept (config.maxFindings.reachedBy found.length) then
        return { found := ← .ofExcept (config.maxFindings.cut found), lists }
      else job.runFrom config policies suppressions { found, lists } rest

/-- The findings of the given rules for a file. -/
def run (job : Job) (config : Config) (policies : Policies) (rules : List Rule) :
    Report (List Finding) := do
  let start : Progress := { found := [], lists := [job.comparisons] }
  let p ← job.runFrom config policies (.ofText job.text.toList) start rules
  .note (.analyzed job.file p.found.length (p.lists.getD 0 []).length)
  return p.found

end Job

namespace Registry

/-- Search rule packages, the default ones where none are given. -/
def search (r : Registry) (catalog : Catalog) (packages : List String) :
    Registry × Report Nat :=
  r.discover catalog (if packages.isEmpty then Catalog.defaultPackages else packages)

/-- The rules that a configuration enables, after a search of rule packages. -/
def load (r : Registry) (catalog : Catalog) (config : Config) (language : Option String)
    (packages : List String) : Registry × Report (List Rule) :=
  let (grown, report) := r.search catalog packages
  (grown, report.andThen (fun _ => .ofExcept (grown.enabled config.enabledRules language)))

/-- Analyse a file with the rules that a configuration enables for its language. -/
def analyze (r : Registry) (catalog : Catalog) (job : Job) (config : Config)
    (policies : Policies) : Registry × Report (List Finding) :=
  let (grown, rules) := r.load catalog config (some job.language) []
  (grown, rules.andThen (job.run config policies))

end Registry

end StrictEquality
