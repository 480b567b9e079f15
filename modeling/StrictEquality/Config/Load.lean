import StrictEquality.Config
import StrictEquality.FileTree
import StrictEquality.Report
import StrictEquality.Yaml.Library

/-!
# Reading configurations

A configuration document is merged into the default configuration: severities and
settings add to the defaults, other parts take their place. What is not valid is
replaced by its default, or ends in a fault. A fault is logged, and then the
default configuration is used.

## Main definitions

- `Config.merged` — the default configuration with the entries of a document
- `Config.validated` — the configuration with invalid values replaced
- `Config.ofValue` — the configuration that the value of a document describes
- `Config.ofDocument` — the same, or the default configuration after a fault
- `Config.load` — the configuration in a file
-/

namespace StrictEquality

namespace Config

/-- Whether a key names a part of a configuration. -/
def isKnownKey (key : Value) : Bool :=
  keys.any (fun name => key.isText name)

def keyName (key : Value) : Except Fault String :=
  match key with
  | .text s => .ok s
  | _ => .error (.wrongType "a text key")

/-- Keep the entries whose keys name a part. Other keys are logged in ascending order,
and have to be texts for that. -/
def knownEntries (path : String) (file : Entries) : Report Entries := do
  let unknown := (file.filter (fun e => !isKnownKey e.1)).map Prod.fst
  if unknown.isEmpty then return file
  else
    let names ← .ofExcept (unknown.mapM keyName)
    .note (.unknownKeys path (names.mergeSort (fun a b => decide (a ≤ b))))
    return file.filter (fun e => isKnownKey e.1)

/-- The settings that a value gives for a rule. A value that does not count as set
gives none. -/
def givenSettings (v : Value) : Except Fault Entries :=
  if v.truthy then v.entries? else .ok []

/-- Add the settings for a rule to those there are. -/
def addSettings (acc : Entries) (e : Value × Value) : Except Fault Entries := do
  let given ← givenSettings e.2
  let present : Entries := match acc.find? e.1 with
    | some (.map settings) => settings
    | _ => []
  return acc.insert e.1 (.map (present.merge given))

def partOr (file : Entries) (name : String) (fallback : Value) : Value :=
  (file.find? (.text name)).getD fallback

/-- The severities of a document. A mapping adds to the defaults. -/
def mergedSeverities (file : Entries) : Value :=
  match file.find? (.text "rule_severities") with
  | some (.map given) => .map (defaultSeverities.merge given)
  | some v => v
  | none => .map defaultSeverities

/-- The settings by rule of a document. A mapping adds to the defaults, setting by
setting. -/
def mergedRuleConfigs (file : Entries) : Except Fault Value :=
  match file.find? (.text "rule_configs") with
  | some (.map given) => Value.map <$> given.foldlM addSettings defaultRuleConfigs
  | some v => .ok v
  | none => .ok (.map defaultRuleConfigs)

/-- The default configuration with the entries of a document. -/
def merged (file : Entries) : Except Fault Config := do
  return { enabledRules := partOr file "enabled_rules" everyRule
           maxFindings := partOr file "max_findings_per_file" (.int defaultLimit)
           severities := mergedSeverities file
           ruleConfigs := ← mergedRuleConfigs file }

/-- Whether a value is a limit of findings: an integer from 1 on. -/
def isLimit : Value → Bool
  | .int i => 1 ≤ i
  | _ => false

/-- A limit of findings. An invalid one is replaced by the default. -/
def validLimit (path : String) (v : Value) : Report Value := do
  if isLimit v then return v
  else
    .note (.limitReplaced v path defaultLimit)
    return .int defaultLimit

def mapping (subject : String) (v : Value) : Except Fault Entries :=
  match v with
  | .map entries => .ok entries
  | _ => .error (.notMapping subject)

/-- Whether settings name a policy that is not registered. -/
def unknownPolicy? (policies : Policies) (settings : Entries) : Option Value :=
  match settings.find? (.text "policy") with
  | none | some .null => none
  | some (.text name) => if policies.names.contains name then none else some (.text name)
  | some v => some v

/-- The settings of a rule. A policy that is not registered is replaced by the default
policy. -/
def validSettings (policies : Policies) (path : String) (e : Value × Value) :
    Report (Value × Value) := do
  let settings ← .ofExcept (mapping ("rule_configs." ++ e.1.plain) e.2)
  match unknownPolicy? policies settings with
  | none => return e
  | some policy =>
    .note (.policyReplaced policy e.1 path Policy.defaultName)
    return (e.1, .map (settings.insert (.text "policy") (.text Policy.defaultName)))

def validRuleConfigs (policies : Policies) (path : String) : Entries → Report Entries
  | [] => return []
  | e :: rest => do
    let first ← validSettings policies path e
    return first :: (← validRuleConfigs policies path rest)

/-- The configuration with invalid values replaced. Severities and settings have to be
mappings. -/
def validated (policies : Policies) (path : String) (c : Config) : Report Config := do
  let maxFindings ← validLimit path c.maxFindings
  let severities ← .ofExcept (mapping "rule_severities" c.severities)
  let ruleConfigs ← .ofExcept (mapping "rule_configs" c.ruleConfigs)
  let ruleConfigs ← validRuleConfigs policies path ruleConfigs
  return { c with maxFindings, severities := .map severities, ruleConfigs := .map ruleConfigs }

/-- The entries of a document. A value that does not count as set has none. -/
def topLevel (v : Value) : Except Fault Entries :=
  if v.truthy then mapping "top-level YAML value" v else .ok []

/-- The configuration that the value of a document describes. -/
def ofValue (policies : Policies) (path : String) (v : Value) : Report Config := do
  let file ← .ofExcept (topLevel v)
  let known ← knownEntries path file
  let c ← .ofExcept (merged known)
  let c ← validated policies path c
  return c.complete

/-- Whether a fault of reading a configuration is made up for by the defaults. -/
def isExpected : Fault → Bool
  | .missingKey | .outOfRange | .noMember _ => false
  | _ => true

/-- The default configuration in place of one that could not be read. -/
def orDefault (path : String) (r : Report Config) : Report Config :=
  match r.outcome with
  | .ok _ => r
  | .error fault =>
    if isExpected fault then
      { log := r.log ++ [.loadFailed path fault], outcome := .ok default }
    else r

/-- The text of a file, with newlines for line ends. -/
def decode (bytes : ByteArray) : Except Fault String :=
  match String.fromUTF8? bytes with
  | some text => .ok (String.ofList (Text.unifyLineEnds text.toList))
  | none => .error .undecodable

/-- The value of the document in a file. -/
def document (yaml : Yaml.Library) (files : FileTree) (p : Path) : Except Fault Value := do
  yaml.load (← decode (← files.read p))

/-- The configuration that a document describes, given its value or the fault of reading
it. -/
def ofDocument (policies : Policies) (path : String) (doc : Except Fault Value) :
    Report Config :=
  orDefault path (do
    let v ← .ofExcept doc
    ofValue policies path v)

/-- The configuration in the file that a written path leads to, seen from a working
directory. Where there is nothing it is the default one. -/
def load (yaml : Yaml.Library) (policies : Policies) (files : FileTree)
    (directory : AbsolutePath) (path : String) : Report Config :=
  if path = "" then pure default
  else
    match files.locate (directory.join path) with
    | .ok p => ofDocument policies path (document yaml files p)
    | .error _ => pure default

end Config

end StrictEquality
