import StrictEquality.Descriptor
import StrictEquality.Polarity
import StrictEquality.Value.Display

/-!
# Log events

What the parts of the engine report while they work, apart from their results.

## Main definitions

- `Event` — the events, with the data they are about
- `Event.level`, `Event.source` — their weight and the part they come from
- `Event.text` — their wording
-/

namespace StrictEquality

/-- How much an event matters. -/
inductive Level
  | debug
  | warning
  deriving DecidableEq, Repr

/-- The part of the engine that an event comes from. -/
inductive Source
  | configuration
  | decision
  | registry
  | analysis
  | looseComparison
  deriving DecidableEq, Repr

/-- An entry of a rule list as messages show it: a value, or an object of no known
form. -/
inductive Shown
  | value (v : Value)
  | object
  deriving Repr

namespace Shown

def text : Shown → String
  | value v => v.display
  | object => "<object>"

end Shown

/-- Something worth logging. -/
inductive Event
  /-- A comparison is left alone because an operand type is only annotated. -/
  | annotatedOperand (left : TypeDescriptor) (polarity : Polarity) (right : TypeDescriptor)
  /-- A policy has decided on a comparison. -/
  | decided (left : TypeDescriptor) (polarity : Polarity) (right : TypeDescriptor) (safe : Bool)
      (policy : String)
  /-- An operand of a comparison has no known type. -/
  | untypedOperand (start stop : Int)
  /-- The configured policy is not registered. -/
  | policyUnavailable (fault : Fault) (file : String)
  /-- A rule package cannot be imported. -/
  | packageUnavailable (name : String) (fault : Fault)
  /-- A module of a rule package cannot be imported. -/
  | moduleUnavailable (name : String) (fault : Fault)
  /-- An entry of a rule list is not a rule. -/
  | entryIgnored (entry : Shown) (module : String)
  /-- Rule packages have been searched. -/
  | discovered (count : Nat) (packages : List String)
  /-- A rule gave up on a file. -/
  | ruleFailed (rule file : String) (fault : Fault)
  /-- A file has been analysed. -/
  | analyzed (file : String) (findings comparisons : Nat)
  /-- An edit overlaps one that comes before it. -/
  | editSkipped (start stop : Int)
  /-- A limit of findings is replaced by the default. -/
  | limitReplaced (limit : Value) (path : String) (replacement : Int)
  /-- A policy name is replaced by the default. -/
  | policyReplaced (policy rule : Value) (path replacement : String)
  /-- A configuration has keys that mean nothing. -/
  | unknownKeys (path : String) (keys : List String)
  /-- A configuration could not be read. -/
  | loadFailed (path : String) (fault : Fault)

namespace Event

def level : Event → Level
  | annotatedOperand .. | decided .. | untypedOperand .. | discovered .. | analyzed ..
  | editSkipped .. => .debug
  | _ => .warning

def source : Event → Source
  | annotatedOperand .. | decided .. => .decision
  | untypedOperand .. | policyUnavailable .. => .looseComparison
  | packageUnavailable .. | moduleUnavailable .. | entryIgnored .. | discovered .. => .registry
  | ruleFailed .. | analyzed .. | editSkipped .. => .analysis
  | limitReplaced .. | policyReplaced .. | unknownKeys .. | loadFailed .. => .configuration

/-- The wording of an event, for a wording of faults. -/
def text (describe : Fault → String) : Event → String
  | annotatedOperand l p r =>
    "Refusing rewrite of " ++ l.text ++ " " ++ p.symbol ++ " " ++ r.text ++
      ": annotated operand type"
  | decided l p r safe policy =>
    l.text ++ " " ++ p.symbol ++ " " ++ r.text ++ " -> " ++ (if safe then "safe" else "unsafe") ++
      " (policy=" ++ policy ++ ")"
  | untypedOperand start stop =>
    "No inferred type for an operand at " ++ toString start ++ "-" ++ toString stop
  | policyUnavailable fault file =>
    describe fault ++ " in " ++ file ++ "; using 'lattice'"
  | packageUnavailable name fault =>
    "Could not import rule package " ++ name ++ ": " ++ describe fault
  | moduleUnavailable name fault => "Failed to import " ++ name ++ ": " ++ describe fault
  | entryIgnored entry module =>
    "Ignoring non-rule entry " ++ entry.text ++ " in " ++ module ++ ".RULES"
  | discovered count packages =>
    "Discovered " ++ toString count ++ " rules from " ++ ", ".intercalate packages
  | ruleFailed rule file fault =>
    "Rule '" ++ rule ++ "' failed on " ++ file ++ ": " ++ describe fault
  | analyzed file findings comparisons =>
    file ++ ": " ++ toString findings ++ " findings from " ++ toString comparisons ++
      " comparisons"
  | editSkipped start stop =>
    "Skipping overlapping edit at " ++ toString start ++ "-" ++ toString stop
  | limitReplaced limit path replacement =>
    "Invalid max_findings_per_file " ++ limit.display ++ " in " ++ path ++ "; using " ++
      toString replacement
  | policyReplaced policy rule path replacement =>
    "Unknown policy " ++ policy.display ++ " for " ++ rule.plain ++ " in " ++ path ++
      "; using '" ++ replacement ++ "'"
  | unknownKeys path keys =>
    "Ignoring unknown config keys in " ++ path ++ ": " ++ ", ".intercalate keys
  | loadFailed path fault =>
    "Failed to load config from " ++ path ++ ": " ++ describe fault ++
      "; using default configuration"

end Event

end StrictEquality
