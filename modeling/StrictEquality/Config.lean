import StrictEquality.LooseComparison
import StrictEquality.Value.Assign

/-!
# Configurations

The configuration of the engine. Its parts are values that a user wrote, so each
is read as needed and may turn out to be of the wrong type then.

## Main definitions

- `Config` — enabled rules, limit of findings, severities, settings of the rules
- `Config.default` — the configuration where none is given
- `Config.ofFields` — a configuration from named parts, as they are
- `Config.severity`, `Config.settings` — what is configured for a rule
-/

namespace StrictEquality

/-- The configuration of the engine, its parts as a user wrote them. -/
structure Config where
  /-- Patterns over rule identifiers. -/
  enabledRules : Value
  /-- How many findings are reported for one file. -/
  maxFindings : Value
  /-- Severities by rule identifier. -/
  severities : Value
  /-- Settings by rule identifier. -/
  ruleConfigs : Value

namespace Config

def keys : List String :=
  ["enabled_rules", "max_findings_per_file", "rule_severities", "rule_configs"]

/-- The limit of findings where none is given. -/
def defaultLimit : Int := 200

/-- The pattern list that enables every rule. -/
def everyRule : Value := .list [.text "*"]

def defaultSettings : Entries :=
  [(.text "allow_annotated_types", .bool false), (.text "alter_code", .bool true),
    (.text "policy", .text Policy.defaultName)]

def defaultSeverities : Entries :=
  [(.text LooseComparison.ruleId, .text "warn")]

def defaultRuleConfigs : Entries :=
  [(.text LooseComparison.ruleId, .map defaultSettings)]

def default : Config where
  enabledRules := everyRule
  maxFindings := .int defaultLimit
  severities := .map defaultSeverities
  ruleConfigs := .map defaultRuleConfigs

/-- A value, or another in place of null. -/
def orElse (v replacement : Value) : Value :=
  match v with
  | .null => replacement
  | v => v

/-- Fill in what a part may leave open: null enables every rule, and stands for the
empty mapping of severities or settings. -/
def complete (c : Config) : Config where
  enabledRules := orElse c.enabledRules everyRule
  maxFindings := c.maxFindings
  severities := orElse c.severities (.map [])
  ruleConfigs := orElse c.ruleConfigs (.map [])

def setPart (c : Config) (name : String) (v : Value) : Except Fault Config :=
  match name with
  | "enabled_rules" => .ok { c with enabledRules := v }
  | "max_findings_per_file" => .ok { c with maxFindings := v }
  | "rule_severities" => .ok { c with severities := v }
  | "rule_configs" => .ok { c with ruleConfigs := v }
  | name => .error (.noMember name)

def part (c : Config) (name : String) : Except Fault Value :=
  match name with
  | "enabled_rules" => .ok c.enabledRules
  | "max_findings_per_file" => .ok c.maxFindings
  | "rule_severities" => .ok c.severities
  | "rule_configs" => .ok c.ruleConfigs
  | name => .error (.noMember name)

/-- A configuration in which nothing is configured yet. -/
def blank : Config where
  enabledRules := .null
  maxFindings := .int defaultLimit
  severities := .null
  ruleConfigs := .null

/-- A configuration from named parts, as they are. A name that is no part is refused. -/
def ofFields (fields : List (String × Value)) : Except Fault Config := do
  let c ← fields.foldlM (fun (c : Config) f =>
    if keys.contains f.1 then c.setPart f.1 f.2
    else .error (.wrongType "the name of a part")) blank
  return c.complete

/-- The parts under their names. -/
def entries (c : Config) : Entries :=
  [(.text "enabled_rules", c.enabledRules), (.text "max_findings_per_file", c.maxFindings),
    (.text "rule_severities", c.severities), (.text "rule_configs", c.ruleConfigs)]

/-- Set a part, or what is at the end of a path inside of a part. Setting something
that is no part changes nothing. -/
def assign (c : Config) (name : String) (path : List Value) (v : Value) :
    Except Fault Config := do
  if path.isEmpty && !keys.contains name then return c
  else
    let part ← c.part name
    c.setPart name (← part.assign path v)

/-- The severity configured for a rule, or another if there is none. -/
def severity (c : Config) (rule : String) (fallback : Value) : Except Fault Value := do
  if c.severities.truthy then
    if ← c.severities.contains? rule then c.severities.at? rule else return fallback
  else return fallback

/-- The settings configured for a rule. -/
def settings (c : Config) (rule : String) : Except Fault Entries := do
  (← c.ruleConfigs.getD? rule (.map [])).entries?

end Config

end StrictEquality
