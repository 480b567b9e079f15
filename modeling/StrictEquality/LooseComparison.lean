import StrictEquality.Decision
import StrictEquality.Rule

/-!
# The loose comparison rule

Reports every loose comparison. Where the operand types show that the strict
operator gives the same result, and the settings allow it, the finding has an edit
that puts the strict operator in place.

## Main definitions

- `LooseComparison.Settings` — the settings, read once for each file
- `LooseComparison.finding` — the finding for one comparison
- `LooseComparison.rule` — the rule
-/

namespace StrictEquality

namespace LooseComparison

def ruleId : String := "lang.strict_equality"

/-- The settings of the rule. -/
structure Settings where
  policy : Policy
  alterCode : Bool
  allowAnnotated : Bool

/-- A setting as a flag. -/
def flag (settings : Entries) (name : String) (default : Bool) : Bool :=
  ((settings.find? (.text name)).getD (.bool default)).truthy

/-- The policy named in the settings. One that is not registered is replaced by the
default policy, with a warning. -/
def choosePolicy (policies : Policies) (settings : Entries) (file : String) : Report Policy :=
  match policies.get ((settings.find? (.text "policy")).getD (.text Policy.defaultName)) with
  | .ok policy => pure policy
  | .error (.unknownPolicy name available) => do
    .note (.policyUnavailable (.unknownPolicy name available) file)
    .ofExcept (policies.named Policy.defaultName)
  | .error fault => .fail fault

def readSettings (ctx : RuleContext) : Report Settings := do
  let policy ← choosePolicy ctx.policies ctx.settings ctx.file
  return { policy
           alterCode := flag ctx.settings "alter_code" true
           allowAnnotated := flag ctx.settings "allow_annotated_types" false }

/-- Whether the rule reports a comparison: it is in the source and loose. -/
def isReported (c : Comparison) : Bool :=
  !c.isVirtual && Polarity.isLoose c.operator

/-- The meaning of the operator of a reported comparison. -/
def polarity (c : Comparison) : Polarity :=
  if c.operator = "==" then .equal else .notEqual

/-- The decision on a comparison, if one is made: code may be altered and both
types are known. -/
def decision? (s : Settings) (c : Comparison) : Option Decision :=
  match s.alterCode, c.leftType, c.rightType with
  | true, some left, some right =>
    some (.evaluate s.policy s.allowAnnotated left right (polarity c))
  | _, _, _ => none

/-- What is logged about a comparison. -/
def events (s : Settings) (c : Comparison) : List Event :=
  match s.alterCode, c.leftType, c.rightType with
  | false, _, _ => []
  | true, some left, some right =>
    [Decision.event s.policy s.allowAnnotated left right (polarity c)]
  | true, _, _ => [.untypedOperand c.whole.start c.whole.stop]

/-- The edits for a comparison: the strict operator between the operands. -/
def fixes (s : Settings) (c : Comparison) : List Edit :=
  match (decision? s c).bind Decision.replacement? with
  | some replacement => [{ start := c.gap.start, stop := c.gap.stop, replacement }]
  | none => []

def details (s : Settings) (c : Comparison) : Entries :=
  [(.text "operator", .text c.operator), (.text "policy", .text s.policy.name)] ++
    match decision? s c with
    | some d => [(.text "verdict", .text d.verdict)]
    | none => []

/-- The finding for a comparison. -/
def finding (s : Settings) (file : String) (c : Comparison) : Finding where
  rule := ruleId
  message := "Using " ++ c.operator ++ " is deprecated, prefer " ++ (polarity c).strict
  file := file
  start := c.whole.start
  stop := c.whole.stop
  severity := .text "warn"
  fixes := fixes s c
  details := details s c

/-- Report the loose comparisons of a file. -/
def visit (ctx : RuleContext) : Visit :=
  let settings := readSettings ctx
  match settings.outcome with
  | .error fault =>
    { findings := [], log := settings.log, fault := some fault, comparisons := ctx.comparisons }
  | .ok s =>
    let reported := ctx.comparisons.filter isReported
    { findings := reported.map (finding s ctx.file)
      log := settings.log ++ reported.flatMap (events s)
      comparisons := ctx.comparisons }

def rule : Rule where
  about :=
    { id := ruleId
      category := "lang"
      priority := "P1"
      autofixSafety := "safe"
      description := "Use strict comparison ===/!== instead of ==/!="
      langs := ["php"] }
  visit := visit

end LooseComparison

end StrictEquality
