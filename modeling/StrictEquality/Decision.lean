import StrictEquality.Policy
import StrictEquality.Report

/-!
# Rewrite decisions

Whether a loose comparison can be made strict, given the types of its operands.

## Main definitions

- `Decision` — put a text between the operands, or leave the comparison alone
- `Decision.evaluate` — the decision of a policy
- `Decision.event` — what is logged about it
-/

namespace StrictEquality

/-- The outcome for one comparison. -/
inductive Decision
  | rewrite (replacement : String)
  | leave
  deriving DecidableEq, Repr

namespace Decision

def isSafe : Decision → Bool
  | rewrite _ => true
  | leave => false

/-- The text to put between the operands. -/
def replacement? : Decision → Option String
  | rewrite text => some text
  | leave => none

def verdict : Decision → String
  | rewrite _ => "safe"
  | leave => "unsafe"

/-- Whether a comparison may not be touched because a type is only annotated. -/
def isRefused (allowAnnotated : Bool) (left right : TypeDescriptor) : Bool :=
  (left.isAnnotated || right.isAnnotated) && !allowAnnotated

/-- Whether a policy finds the operand types compatible. -/
def isCompatible (policy : Policy) (left right : TypeDescriptor) (p : Polarity) : Bool :=
  if left.isSingle && right.isSingle then policy.compatible p left.single right.single
  else policy.unionCompatible p left.members right.members

/-- The decision of a policy on one comparison. -/
def evaluate (policy : Policy) (allowAnnotated : Bool) (left right : TypeDescriptor)
    (p : Polarity) : Decision :=
  if isRefused allowAnnotated left right then leave
  else if isCompatible policy left right p then rewrite p.replacement
  else leave

/-- A comparison is rewritten when it may be touched and the policy agrees. -/
theorem isSafe_evaluate (policy : Policy) (allowAnnotated : Bool) (left right : TypeDescriptor)
    (p : Polarity) :
    (evaluate policy allowAnnotated left right p).isSafe =
      (!isRefused allowAnnotated left right && isCompatible policy left right p) := by
  unfold evaluate
  cases isRefused allowAnnotated left right <;> cases isCompatible policy left right p <;> rfl

/-- A comparison that is rewritten gets the strict operator of its polarity. -/
theorem replacement?_evaluate (policy : Policy) (allowAnnotated : Bool)
    (left right : TypeDescriptor) (p : Polarity) :
    (evaluate policy allowAnnotated left right p).replacement? =
      if (evaluate policy allowAnnotated left right p).isSafe then some p.replacement
      else none := by
  unfold evaluate
  cases isRefused allowAnnotated left right <;> cases isCompatible policy left right p <;> rfl

/-- What is logged about a decision. -/
def event (policy : Policy) (allowAnnotated : Bool) (left right : TypeDescriptor)
    (p : Polarity) : Event :=
  if isRefused allowAnnotated left right then .annotatedOperand left p right
  else .decided left p right (isCompatible policy left right p) policy.name

end Decision

end StrictEquality
