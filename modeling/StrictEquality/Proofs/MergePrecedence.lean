import StrictEquality.Proofs.FilledDefaults

/-!
# Precedence in merged configurations

What a document gives for a configuration counts before the defaults, part by part,
severity by severity and setting by setting. Nothing that is given is lost, and nothing
is there that is neither given nor a default, apart from what takes the place of an
invalid value.

## Main definitions

- `Entries.Overlays` — given entries over the default ones
- `Policies.allows`, `Policies.usable` — a policy setting that stays, and what stays of a
  setting
- `Config.SettingsFrom`, `Config.ComesFrom` — what a document and the defaults make of the
  settings of a rule, and of a configuration

Main statement: `Config.exists_comesFrom_of_load`.
-/

namespace StrictEquality

namespace Entries

variable {entries given defaults : Entries}

/-- Under each key there is the given value, else the default one, and there are no other
keys. -/
structure Overlays (given defaults result : Entries) : Prop where
  distinctKeys : result.HasDistinctKeys
  keys : ∀ k, k ∈ result.map Prod.fst ↔ k ∈ given.map Prod.fst ∨ k ∈ defaults.map Prod.fst
  values : ∀ k, result.find? k = (given.find? k).or (defaults.find? k)

theorem overlays_merge (htext : defaults.HasTextKeys) (hdefaults : defaults.HasDistinctKeys)
    (hgiven : given.HasDistinctKeys) : given.Overlays defaults (defaults.merge given) := by
  rw [merge_eq_updateAll]
  refine {
    distinctKeys := hdefaults.updateAll hgiven.isKey
    keys := fun k => (mem_keys_updateAll htext hgiven).trans or_comm
    values := fun k => ?_ }
  rw [find?_updateAll htext hgiven]
  cases given.find? k <;> rfl

theorem find?_map_values (f : Value → Value) (entries : Entries) (k : Value) :
    find? (entries.map (fun e => (e.1, f e.2))) k = (entries.find? k).map f := by
  rw [find?, List.find?_map, Option.map_map, find?, Option.map_map]
  rfl

theorem HasDistinctKeys.map_values (h : entries.HasDistinctKeys) (f : Value → Value) :
    HasDistinctKeys (entries.map (fun e => (e.1, f e.2))) where
  isKey := by
    intro e he
    obtain ⟨old, hold, rfl⟩ := List.mem_map.mp he
    exact h.isKey old hold
  pairwise := List.pairwise_map.mpr h.pairwise

end Entries

namespace Policies

variable {policies : Policies}

/-- Whether a policy setting may stay: it is null or the name of a registered policy. -/
def allows (policies : Policies) : Value → Bool
  | .null => true
  | .text name => policies.names.contains name
  | _ => false

/-- What stays of a setting: the default policy takes the place of one that may not
stay. -/
def usable (policies : Policies) (option v : Value) : Value :=
  if option.isText "policy" && !policies.allows v then .text Policy.defaultName else v

theorem usable_policy (policies : Policies) (v : Value) :
    policies.usable (.text "policy") v =
      if policies.allows v then v else .text Policy.defaultName := by
  cases h : policies.allows v <;> simp [usable, h, Value.isText]

theorem usable_of_ne {option : Value} (h : option ≠ .text "policy") (v : Value) :
    policies.usable option v = v := by
  have hother : option.isText "policy" = false := by
    cases option with
    | text s => simpa [Value.isText] using h
    | _ => rfl
  rw [usable, hother]
  rfl

end Policies

namespace Config

open LooseComparison Entries

variable {policies : Policies} {path : String} {file : Entries}

theorem hasDistinctKeys_defaultSettings : HasDistinctKeys defaultSettings where
  isKey := by simp [defaultSettings, Value.isKey]
  pairwise := by simp [defaultSettings, Value.sameKey]

theorem hasDistinctKeys_defaultSeverities : HasDistinctKeys defaultSeverities where
  isKey := by simp [defaultSeverities, Value.isKey]
  pairwise := List.pairwise_singleton _ _

/-- The limit of findings that is given, if it is one, or else the default. -/
def limitFrom : Option Value → Value
  | some (.int i) => .int (if 1 ≤ i then i else defaultLimit)
  | _ => .int defaultLimit

/-- The patterns that are given, unless they are null, or else those for every rule. -/
def patternsFrom : Option Value → Value
  | none | some .null => everyRule
  | some v => v

/-- Each setting of a rule is the given one, else the default one, and a policy is one that
can be used. -/
structure SettingsFrom (policies : Policies) (given defaults settings : Entries) : Prop where
  distinctKeys : settings.HasDistinctKeys
  values : ∀ option, settings.find? option =
    ((given.find? option).or (defaults.find? option)).map (policies.usable option)

/-- A configuration has what the entries of a document give, else what the defaults give,
and nothing besides. -/
structure ComesFrom (policies : Policies) (file : Entries) (c : Config) : Prop where
  enabledRules : c.enabledRules = patternsFrom (file.find? (.text "enabled_rules"))
  maxFindings : c.maxFindings = limitFrom (file.find? (.text "max_findings_per_file"))
  severities : ∃ severities, c.severities = .map severities ∧
    (entriesIn (file.find? (.text "rule_severities"))).Overlays defaultSeverities severities
  ruleConfigs : ∃ ruleConfigs : Entries, c.ruleConfigs = .map ruleConfigs ∧
    ruleConfigs.HasDistinctKeys ∧
    (∀ rule, rule ∈ ruleConfigs.map Prod.fst ↔
      rule ∈ (entriesIn (file.find? (.text "rule_configs"))).map Prod.fst ∨
        rule ∈ defaultRuleConfigs.map Prod.fst) ∧
    ∀ rule v, ruleConfigs.find? rule = some v → ∃ settings, v = .map settings ∧
      SettingsFrom policies
        (entriesIn ((entriesIn (file.find? (.text "rule_configs"))).find? rule))
        (entriesIn (find? defaultRuleConfigs rule)) settings

/-- The parts of a document that have to be mappings are, and so are the settings of each
rule, which may be left open too. -/
structure HasMappings (file : Entries) : Prop where
  severities : ∀ v, file.find? (.text "rule_severities") = some v → ∃ given, v = .map given
  ruleConfigs : ∀ v, file.find? (.text "rule_configs") = some v →
    ∃ given : Entries, v = .map given ∧
      ∀ e ∈ given, e.2 = .null ∨ ∃ settings, e.2 = .map settings

/-- The parts of a document merged into the defaults, where they can be merged. -/
def mergedFrom (file : Entries) : Config where
  enabledRules := partOr file "enabled_rules" everyRule
  maxFindings := partOr file "max_findings_per_file" (.int defaultLimit)
  severities := .map (defaultSeverities.merge (entriesIn (file.find? (.text "rule_severities"))))
  ruleConfigs := .map (updateAll addedSettings defaultRuleConfigs
    (entriesIn (file.find? (.text "rule_configs"))))

theorem HasMappings.merged_eq (h : HasMappings file) : merged file = .ok (mergedFrom file) := by
  have hseverities : mergedSeverities file = (mergedFrom file).severities := by
    rw [mergedSeverities, mergedFrom]
    cases hfind : file.find? (.text "rule_severities") with
    | none => rfl
    | some v =>
      obtain ⟨given, rfl⟩ := h.severities v hfind
      rfl
  have hruleConfigs : mergedRuleConfigs file = .ok (mergedFrom file).ruleConfigs := by
    rw [mergedRuleConfigs, mergedFrom]
    cases hfind : file.find? (.text "rule_configs") with
    | none => rfl
    | some v =>
      obtain ⟨given, rfl, hsettings⟩ := h.ruleConfigs v hfind
      have hgiven : ∀ e ∈ given, givenSettings e.2 = .ok (entriesIn (some e.2)) := by
        intro e he
        rcases hsettings e he with hnull | ⟨settings, hmap⟩
        · rw [hnull]
          rfl
        · rw [hmap]
          exact givenSettings_map settings
      dsimp only
      rw [foldlM_addSettings hgiven]
      rfl
  rw [merged, hseverities, hruleConfigs]
  rfl

/-- Validation replaces a policy that is not allowed. -/
def usableSettings (policies : Policies) (settings : Entries) : Entries :=
  match unknownPolicy? policies settings with
  | none => settings
  | some _ => settings.insert (.text "policy") (.text Policy.defaultName)

theorem unknownPolicy?_eq_filter (policies : Policies) (settings : Entries) :
    unknownPolicy? policies settings =
      (settings.find? (.text "policy")).filter (fun v => !policies.allows v) := by
  unfold unknownPolicy?
  split
  · next hnone => rw [hnone]; rfl
  · next hnull => rw [hnull]; rfl
  · next name htext =>
    rw [htext, Option.filter, Policies.allows]
    cases policies.names.contains name <;> rfl
  · next v hnull htext hv =>
    rw [hv]
    cases v with
    | null => exact absurd rfl hnull
    | text name => exact absurd rfl (htext name)
    | _ => rfl

theorem find?_usableSettings (policies : Policies) (settings : Entries) (option : Value) :
    (usableSettings policies settings).find? option =
      (settings.find? option).map (policies.usable option) := by
  rw [usableSettings, unknownPolicy?_eq_filter]
  by_cases hoption : option = .text "policy"
  · subst hoption
    rw [funext (policies.usable_policy)]
    cases hfind : settings.find? (.text "policy") with
    | none => exact hfind
    | some v =>
      cases hallows : policies.allows v with
      | true => simp [Option.filter, hallows, hfind]
      | false => simp [Option.filter, hallows, find?_insert_text]
  · have hkept : ∀ found : Option Value, found.map (policies.usable option) = found := by
      intro found
      cases found with
      | none => rfl
      | some v => exact congrArg some (Policies.usable_of_ne hoption v)
    rw [hkept]
    split
    · rfl
    · exact find?_insert_text_other hoption

theorem hasDistinctKeys_usableSettings {settings : Entries} (h : settings.HasDistinctKeys) :
    (usableSettings policies settings).HasDistinctKeys := by
  unfold usableSettings
  split
  · exact h
  · exact h.insert rfl _

/-- Settings as validation leaves them, as a value. -/
def usableIn (policies : Policies) (v : Value) : Value :=
  .map (usableSettings policies (entriesIn (some v)))

theorem outcome_validSettings {e : Value × Value} (h : ∃ settings, e.2 = .map settings) :
    (validSettings policies path e).outcome = .ok (e.1, usableIn policies e.2) := by
  obtain ⟨rule, v⟩ := e
  obtain ⟨settings, rfl⟩ : ∃ settings, v = .map settings := h
  rw [validSettings, mapping, Report.ofExcept_ok, Report.pure_bind, usableIn, entriesIn,
    usableSettings]
  cases unknownPolicy? policies settings <;> rfl

/-- Settings that are mappings pass validation, each by itself. -/
theorem outcome_validRuleConfigs {ruleConfigs : Entries}
    (h : ∀ e ∈ ruleConfigs, ∃ settings, e.2 = .map settings) :
    (validRuleConfigs policies path ruleConfigs).outcome =
      .ok (ruleConfigs.map (fun e => (e.1, usableIn policies e.2))) := by
  induction ruleConfigs with
  | nil => rfl
  | cons e rest ih =>
    rw [validRuleConfigs, Report.outcome_bind, outcome_validSettings (h e List.mem_cons_self),
      Fault.ok_bind, Report.outcome_bind, ih fun e he => h e (List.mem_cons_of_mem _ he)]
    rfl

theorem keys_of_defaultRuleConfigs (rule : Value) :
    HasTextKeys (entriesIn (find? defaultRuleConfigs rule)) ∧
      HasDistinctKeys (entriesIn (find? defaultRuleConfigs rule)) := by
  by_cases hrule : rule = .text ruleId
  · have hfind : find? defaultRuleConfigs rule = some (.map defaultSettings) := by
      rw [hrule]
      rfl
    rw [hfind]
    exact ⟨hasTextKeys_defaultSettings, hasDistinctKeys_defaultSettings⟩
  · rw [find?_defaultRuleConfigs_of_ne hrule]
    exact ⟨by simp [HasTextKeys, entriesIn], .nil⟩

/-- The mappings in what is found in a mapping have distinct keys. -/
theorem isWellKeyed_entriesIn {entries : Entries} (h : (Value.map entries).IsWellKeyed)
    (k : Value) : (Value.map (entriesIn (entries.find? k))).IsWellKeyed := by
  unfold entriesIn
  split
  · next inner hfind =>
    obtain ⟨e, he, -, hvalue⟩ := exists_mem_of_find? hfind
    rw [← hvalue]
    exact h.of_mem he
  · exact .map .nil (by simp)

/-- The settings that the merge has for a rule are the given ones merged into the default
ones, whether there are any or not. -/
theorem eq_map_of_find?_updateAll {given : Entries} (hgiven : given.HasDistinctKeys)
    {rule v : Value}
    (h : (updateAll addedSettings defaultRuleConfigs given).find? rule = some v) :
    v = .map ((entriesIn (find? defaultRuleConfigs rule)).merge
      (entriesIn (given.find? rule))) := by
  rw [find?_updateAll hasTextKeys_defaultRuleConfigs hgiven] at h
  cases hfound : given.find? rule with
  | some found =>
    rw [hfound] at h
    exact (Option.some.inj h).symm
  | none =>
    rw [hfound] at h
    obtain ⟨e, he, -, rfl⟩ := exists_mem_of_find? h
    obtain rfl := List.mem_singleton.mp he
    rw [show find? defaultRuleConfigs rule = some _ from h]
    rfl

/-- What validation makes of the merged settings of a rule. -/
theorem settingsFrom_usableSettings {given defaults : Entries} (htext : defaults.HasTextKeys)
    (hdefaults : defaults.HasDistinctKeys) (hgiven : given.HasDistinctKeys) :
    SettingsFrom policies given defaults (usableSettings policies (defaults.merge given)) := by
  have hmerged := overlays_merge htext hdefaults hgiven
  refine { distinctKeys := hasDistinctKeys_usableSettings hmerged.distinctKeys, values := ?_ }
  intro option
  rw [find?_usableSettings, hmerged.values]

/-- What validation makes of the parts that are merged. -/
def validFrom (policies : Policies) (file : Entries) : Config where
  enabledRules := partOr file "enabled_rules" everyRule
  maxFindings := limitFrom (file.find? (.text "max_findings_per_file"))
  severities := (mergedFrom file).severities
  ruleConfigs := .map ((updateAll addedSettings defaultRuleConfigs
    (entriesIn (file.find? (.text "rule_configs")))).map
      (fun e => (e.1, usableIn policies e.2)))

theorem outcome_validLimit (path : String) (file : Entries) :
    (validLimit path (partOr file "max_findings_per_file" (.int defaultLimit))).outcome =
      .ok (limitFrom (file.find? (.text "max_findings_per_file"))) := by
  rw [partOr, validLimit]
  cases hfind : file.find? (.text "max_findings_per_file") with
  | none => rfl
  | some v =>
    cases v with
    | int i =>
      by_cases hpos : 1 ≤ i
      · simp [isLimit, limitFrom, hpos]
      · simp [isLimit, limitFrom, hpos]
    | _ => rfl

theorem outcome_validated_mergedFrom
    (hgiven : (entriesIn (file.find? (.text "rule_configs"))).HasDistinctKeys) :
    (validated policies path (mergedFrom file)).outcome = .ok (validFrom policies file) := by
  have hmaps : ∀ e ∈ updateAll addedSettings defaultRuleConfigs
      (entriesIn (file.find? (.text "rule_configs"))), ∃ settings, e.2 = .map settings := by
    intro e he
    have hdistinct : HasDistinctKeys (updateAll addedSettings defaultRuleConfigs _) :=
      hasDistinctKeys_defaultRuleConfigs.updateAll hgiven.isKey
    exact ⟨_, eq_map_of_find?_updateAll hgiven (hdistinct.find?_of_mem he)⟩
  rw [validated, Report.outcome_bind, mergedFrom, outcome_validLimit, Fault.ok_bind, mapping,
    mapping, Report.ofExcept_ok, Report.ofExcept_ok, Report.pure_bind, Report.pure_bind,
    Report.outcome_bind, outcome_validRuleConfigs hmaps]
  rfl

theorem complete_validFrom (policies : Policies) (file : Entries) :
    (validFrom policies file).complete =
      { validFrom policies file with
        enabledRules := patternsFrom (file.find? (.text "enabled_rules")) } := by
  rw [complete, validFrom, mergedFrom, partOr]
  cases hfind : file.find? (.text "enabled_rules") with
  | none => rfl
  | some v => cases v <;> rfl

theorem comesFrom_complete_validFrom (hkeys : (Value.map file).IsWellKeyed) :
    ComesFrom policies file (validFrom policies file).complete := by
  have hgiven := isWellKeyed_entriesIn hkeys (.text "rule_configs")
  rw [complete_validFrom]
  refine {
    enabledRules := rfl
    maxFindings := rfl
    severities := ⟨_, rfl, overlays_merge hasTextKeys_defaultSeverities
      hasDistinctKeys_defaultSeverities
      (isWellKeyed_entriesIn hkeys (.text "rule_severities")).distinctKeys⟩
    ruleConfigs := ⟨_, rfl, ?_, ?_, ?_⟩ }
  · exact (hasDistinctKeys_defaultRuleConfigs.updateAll hgiven.distinctKeys.isKey).map_values
      (usableIn policies)
  · intro rule
    rw [List.map_map, or_comm]
    exact mem_keys_updateAll hasTextKeys_defaultRuleConfigs hgiven.distinctKeys
  · intro rule v hv
    rw [find?_map_values (usableIn policies)] at hv
    obtain ⟨merged, hmerged, rfl⟩ := Option.map_eq_some_iff.mp hv
    obtain ⟨htext, hdefaults⟩ := keys_of_defaultRuleConfigs rule
    rw [eq_map_of_find?_updateAll hgiven.distinctKeys hmerged]
    exact ⟨_, rfl, settingsFrom_usableSettings htext hdefaults
      (isWellKeyed_entriesIn hgiven rule).distinctKeys⟩

/-- **A loaded configuration has what its document gives and what the defaults give
besides.** Patterns and limit are the given ones where they count, every rule has its given
severity or else the default one, and every setting of every rule is the given one or else
the default one. A policy that is not registered is replaced by the default policy. -/
theorem exists_comesFrom_of_load (registered : List Policy) (path : String)
    (hkeys : (Value.map file).IsWellKeyed) (hknown : ∀ e ∈ file, isKnownKey e.1 = true)
    (hmappings : HasMappings file) :
    let policies := Policies.builtin.registerAll registered
    ∃ c, ComesFrom policies file c ∧
      (ofDocument policies path (.ok (.map file))).outcome = .ok c ∧
      ∀ yaml files directory, Holds yaml files directory path (.map file) →
        (load yaml policies files directory path).outcome = .ok c := by
  intro policies
  have hgiven := (isWellKeyed_entriesIn hkeys (.text "rule_configs")).distinctKeys
  have hvalue : (ofValue policies path (.map file)).outcome =
      .ok (validFrom policies file).complete := by
    rw [ofValue_map, knownEntries_eq_pure path hknown, Report.pure_bind, hmappings.merged_eq,
      Report.ofExcept_ok, Report.pure_bind, Report.outcome_bind,
      outcome_validated_mergedFrom hgiven]
    rfl
  have hdocument := outcome_ofDocument_of_ok hvalue
  refine ⟨_, comesFrom_complete_validFrom hkeys, hdocument, ?_⟩
  intro yaml files directory hholds
  rw [load_of_holds hholds]
  exact hdocument

/-- A flag is no limit, a number is no policy, and a rule without settings is configured
nevertheless. -/
theorem exists_comesFrom_of_load_invalid :
    let policies := Policies.builtin.registerAll []
    let settings : Entries := [(.text "policy", .int 5), (.text "level", .int 2)]
    let given : Entries := [(.text ruleId, .map settings), (.int 7, .null)]
    let file : Entries :=
      [(.text "max_findings_per_file", .bool true), (.text "rule_configs", .map given)]
    (Value.map file).IsWellKeyed ∧ (∀ e ∈ file, isKnownKey e.1 = true) ∧ HasMappings file ∧
      ∃ c, ComesFrom policies file c ∧
        (ofDocument policies "stricteq.yml" (.ok (.map file))).outcome = .ok c ∧
        c.maxFindings = .int 200 ∧
        ∃ ruleConfigs : Entries, c.ruleConfigs = .map ruleConfigs ∧
          .int 7 ∈ ruleConfigs.map Prod.fst ∧
          ∀ settings : Entries, ruleConfigs.find? (.text ruleId) = some (.map settings) →
            settings.find? (.text "policy") = some (.text "lattice") ∧
              settings.find? (.text "level") = some (.int 2) ∧
              settings.find? (.text "alter_code") = some (.bool true) := by
  intro policies settings given file
  have hsettings : (Value.map settings).IsWellKeyed := by
    refine .map ⟨?_, ?_⟩ ?_
    · simp [settings, Value.isKey]
    · simp [settings, Value.sameKey]
    · simpa [settings] using And.intro (.scalar rfl) (.scalar rfl)
  have hgiven : (Value.map given).IsWellKeyed := by
    refine .map ⟨?_, ?_⟩ ?_
    · simp [given, Value.isKey]
    · simp [given, Value.sameKey, Value.integer?]
    · simpa [given] using And.intro hsettings (.scalar rfl)
  have hkeys : (Value.map file).IsWellKeyed := by
    refine .map ⟨?_, ?_⟩ ?_
    · simp [file, Value.isKey]
    · simp [file, Value.sameKey]
    · simpa [file] using And.intro (.scalar rfl) hgiven
  have hknown : ∀ e ∈ file, isKnownKey e.1 = true := by
    simp [file, isKnownKey, keys, Value.isText]
  have hmappings : HasMappings file := {
    severities := by
      intro v hv
      cases hv
    ruleConfigs := by
      intro v hv
      refine ⟨given, (Option.some.inj hv).symm, ?_⟩
      simp [given] }
  obtain ⟨c, hc, hdocument, -⟩ := exists_comesFrom_of_load [] "stricteq.yml" hkeys hknown hmappings
  obtain ⟨ruleConfigs, hruleConfigs, -, hrules, hfrom⟩ := hc.ruleConfigs
  refine ⟨hkeys, hknown, hmappings, c, hc, hdocument, hc.maxFindings, ruleConfigs, hruleConfigs,
    ?_, ?_⟩
  · rw [hrules]
    exact .inl (List.mem_cons_of_mem _ List.mem_cons_self)
  · intro found hfound
    obtain ⟨settings', hmap, hvalues⟩ := hfrom _ _ hfound
    obtain rfl := Value.map.inj hmap
    exact ⟨hvalues.values _, hvalues.values _, hvalues.values _⟩

end Config

end StrictEquality
