import StrictEquality.Config.Load
import StrictEquality.Proofs.PlainAnalysis
import StrictEquality.Proofs.PolicyRegistry

/-!
# Validity of loaded configurations

Whatever is in a configuration file, what is loaded has a positive limit of findings,
severities and settings that are mappings, and no policy setting that a rule could
stumble over later.

## Main definitions

- `PolicySetting` — the policy setting is null or the name of a registered policy
- `Config.IsValid` — what a loaded configuration keeps to
- `Config.Holds` — the file that a path leads to holds a document with a value
- `Config.Loaded` — what a document or a file gives

Main statement: `Config.Loaded.isValid`.
-/

namespace StrictEquality

/-- The policy setting, if there is one, is null or the name of a registered policy. -/
def PolicySetting (policies : Policies) (settings : Entries) : Prop :=
  ∀ v, settings.find? (.text "policy") = some v →
    v = .null ∨ ∃ name ∈ policies.names, v = .text name

/-- The limit of findings is a positive integer, severities are a mapping, and settings
are a mapping of mappings whose policies are registered. -/
structure Config.IsValid (policies : Policies) (c : Config) : Prop where
  maxFindings : ∃ limit : Nat, c.maxFindings = .int limit ∧ 1 ≤ limit
  severities : ∃ entries, c.severities = .map entries
  ruleConfigs : ∃ entries, c.ruleConfigs = .map entries ∧
    ∀ e ∈ entries, ∃ settings, e.2 = .map settings ∧ PolicySetting policies settings

namespace Config

variable {policies : Policies}

theorem policySetting_of_unknownPolicy? {settings : Entries}
    (h : unknownPolicy? policies settings = none) : PolicySetting policies settings := by
  intro v hfind
  rw [unknownPolicy?, hfind] at h
  split at h
  · next hnone => cases hnone
  · next hnull => exact .inl (Option.some.inj hnull)
  · next name htext =>
    refine .inr ⟨name, ?_, Option.some.inj htext⟩
    split at h
    · next hname => exact List.contains_iff_mem.mp hname
    · cases h
  · cases h

theorem policySetting_of_find? {settings : Entries} {v : Value}
    (hfind : settings.find? (.text "policy") = some v)
    (hv : v = .null ∨ ∃ name ∈ policies.names, v = .text name) :
    PolicySetting policies settings := by
  intro found hfound
  obtain rfl := Option.some.inj (hfind.symm.trans hfound)
  exact hv

theorem policySetting_insert {settings : Entries} {name : String} (h : name ∈ policies.names) :
    PolicySetting policies (settings.insert (.text "policy") (.text name)) :=
  policySetting_of_find? (Entries.find?_insert_text _ _ _) (.inr ⟨name, h, rfl⟩)

theorem eq_map_of_mapping {subject : String} {v : Value} {entries : Entries}
    (h : mapping subject v = .ok entries) : v = .map entries := by
  unfold mapping at h
  split at h
  · rw [Except.ok.inj h]
  · cases h

/-- A limit of findings is a positive integer, if only by its default. -/
theorem exists_limit_of_validLimit {path : String} {v limit : Value}
    (h : (validLimit path v).outcome = .ok limit) :
    ∃ n : Nat, limit = .int n ∧ 1 ≤ n := by
  unfold validLimit at h
  split at h
  · next hvalid =>
    obtain rfl := Except.ok.inj h
    unfold isLimit at hvalid
    split at hvalid
    · next i =>
      have hpos : 1 ≤ i := of_decide_eq_true hvalid
      refine ⟨i.toNat, ?_, by omega⟩
      rw [Int.toNat_of_nonneg (by omega)]
    · cases hvalid
  · obtain rfl := Except.ok.inj h
    exact ⟨200, rfl, by decide⟩

/-- Validation keeps the settings of a rule, or puts the default policy in place of one
that is not registered. -/
theorem validSettings_cases {path : String} {e e' : Value × Value}
    (h : (validSettings policies path e).outcome = .ok e') :
    ∃ settings : Entries, e.2 = .map settings ∧
      (unknownPolicy? policies settings = none ∧ e' = e ∨
        e' = (e.1, .map (settings.insert (.text "policy") (.text Policy.defaultName)))) := by
  obtain ⟨settings, hmap, hchecked⟩ := Report.outcome_bind_eq_ok.mp h
  refine ⟨settings, eq_map_of_mapping hmap, ?_⟩
  cases hpolicy : unknownPolicy? policies settings with
  | none =>
    rw [hpolicy] at hchecked
    exact .inl ⟨rfl, (Except.ok.inj hchecked).symm⟩
  | some policy =>
    -- the warning does not stop validation
    rw [hpolicy] at hchecked
    exact .inr (Except.ok.inj hchecked).symm

theorem exists_settings_of_validSettings {path : String} {e e' : Value × Value}
    (hdefault : Policy.defaultName ∈ policies.names)
    (h : (validSettings policies path e).outcome = .ok e') :
    ∃ settings, e'.2 = .map settings ∧ PolicySetting policies settings := by
  obtain ⟨settings, hmap, ⟨hpolicy, rfl⟩ | rfl⟩ := validSettings_cases h
  · exact ⟨settings, hmap, policySetting_of_unknownPolicy? hpolicy⟩
  · exact ⟨_, rfl, policySetting_insert hdefault⟩

theorem validRuleConfigs_cons_cases {path : String} {first : Value × Value}
    {rest entries' : Entries}
    (h : (validRuleConfigs policies path (first :: rest)).outcome = .ok entries') :
    ∃ first' rest', (validSettings policies path first).outcome = .ok first' ∧
      (validRuleConfigs policies path rest).outcome = .ok rest' ∧ entries' = first' :: rest' := by
  obtain ⟨first', hfirst, h⟩ := Report.outcome_bind_eq_ok.mp h
  obtain ⟨rest', hrest, h⟩ := Report.outcome_bind_eq_ok.mp h
  exact ⟨first', rest', hfirst, hrest, (Except.ok.inj h).symm⟩

theorem exists_settings_of_validRuleConfigs {path : String} {entries entries' : Entries}
    (hdefault : Policy.defaultName ∈ policies.names)
    (h : (validRuleConfigs policies path entries).outcome = .ok entries') :
    ∀ e ∈ entries', ∃ settings, e.2 = .map settings ∧ PolicySetting policies settings := by
  induction entries generalizing entries' with
  | nil =>
    obtain rfl := Except.ok.inj h
    intro e he
    cases he
  | cons first rest ih =>
    obtain ⟨first', rest', hfirst, hrest, rfl⟩ := validRuleConfigs_cons_cases h
    intro e he
    rcases List.mem_cons.mp he with rfl | he
    · exact exists_settings_of_validSettings hdefault hfirst
    · exact ih hrest e he

/-- What is validated has mappings, and validation replaces the limit and the settings. -/
theorem validated_cases {path : String} {c c' : Config}
    (h : (validated policies path c).outcome = .ok c') :
    ∃ (maxFindings : Value) (severities ruleConfigs valid : Entries),
      (validLimit path c.maxFindings).outcome = .ok maxFindings ∧
        c.severities = .map severities ∧ c.ruleConfigs = .map ruleConfigs ∧
        (validRuleConfigs policies path ruleConfigs).outcome = .ok valid ∧
        c' = { c with maxFindings, severities := .map severities, ruleConfigs := .map valid } := by
  obtain ⟨maxFindings, hlimit, h⟩ := Report.outcome_bind_eq_ok.mp h
  obtain ⟨severities, hseverities, h⟩ := Report.outcome_bind_eq_ok.mp h
  obtain ⟨ruleConfigs, hruleConfigs, h⟩ := Report.outcome_bind_eq_ok.mp h
  obtain ⟨valid, hvalid, h⟩ := Report.outcome_bind_eq_ok.mp h
  exact ⟨maxFindings, severities, ruleConfigs, valid, hlimit, eq_map_of_mapping hseverities,
    eq_map_of_mapping hruleConfigs, hvalid, (Except.ok.inj h).symm⟩

theorem isValid_of_validated {path : String} {c c' : Config}
    (hdefault : Policy.defaultName ∈ policies.names)
    (h : (validated policies path c).outcome = .ok c') : c'.IsValid policies := by
  obtain ⟨maxFindings, severities, ruleConfigs, valid, hlimit, -, -, hvalid, rfl⟩ :=
    validated_cases h
  exact {
    maxFindings := exists_limit_of_validLimit hlimit
    severities := ⟨severities, rfl⟩
    ruleConfigs := ⟨valid, rfl, exists_settings_of_validRuleConfigs hdefault hvalid⟩ }

theorem IsValid.complete {c : Config} (h : c.IsValid policies) :
    c.complete.IsValid policies := by
  obtain ⟨severities, hseverities⟩ := h.severities
  obtain ⟨ruleConfigs, hruleConfigs, hsettings⟩ := h.ruleConfigs
  exact {
    maxFindings := h.maxFindings
    severities := ⟨severities, by simp [Config.complete, hseverities, orElse]⟩
    ruleConfigs := ⟨ruleConfigs, by simp [Config.complete, hruleConfigs, orElse], hsettings⟩ }

theorem IsValid.isRunnable {c : Config} (h : c.IsValid policies) :
    ∃ limit : Nat, c.maxFindings = .int limit ∧ c.IsRunnable limit := by
  obtain ⟨limit, hlimit, hpos⟩ := h.maxFindings
  obtain ⟨ruleConfigs, hruleConfigs, hsettings⟩ := h.ruleConfigs
  refine ⟨limit, hlimit, h.severities, ⟨ruleConfigs, hruleConfigs, ?_⟩, ?_, hpos⟩
  · exact fun e he => (hsettings e he).imp fun _ => And.left
  · rw [hlimit]
    rfl

/-- The settings that a valid configuration has for a rule name a registered policy, if
any. -/
theorem IsValid.policySetting {c : Config} (h : c.IsValid policies) {rule : String}
    {settings : Entries} (hrule : c.settings rule = .ok settings) :
    PolicySetting policies settings := by
  obtain ⟨ruleConfigs, hruleConfigs, hsettings⟩ := h.ruleConfigs
  have hmaps : ∀ e ∈ ruleConfigs, ∃ settings, e.2 = .map settings :=
    fun e he => (hsettings e he).imp fun _ => And.left
  obtain ⟨found, hfound, horigin⟩ := exists_settings hruleConfigs hmaps rule
  obtain rfl : found = settings := Except.ok.inj (hfound.symm.trans hrule)
  rcases horigin with rfl | ⟨e, he, hmap⟩
  · -- a rule without settings names no policy
    intro v hfind
    cases hfind
  · obtain ⟨settings, hmap', hpolicy⟩ := hsettings e he
    obtain rfl : found = settings := Value.map.inj (hmap.symm.trans hmap')
    exact hpolicy

theorem policySetting_defaultSettings (hdefault : Policy.defaultName ∈ policies.names) :
    PolicySetting policies defaultSettings :=
  policySetting_of_find? rfl (.inr ⟨_, hdefault, rfl⟩)

/-- A configuration with settings for one rule only is valid if they name an allowed
policy. -/
theorem isValid_of_singleton {c : Config} (limit : Nat) {severities settings : Entries}
    {rule : Value} (hlimit : c.maxFindings = .int limit) (hpos : 1 ≤ limit)
    (hseverities : c.severities = .map severities)
    (hruleConfigs : c.ruleConfigs = .map [(rule, .map settings)])
    (hpolicy : PolicySetting policies settings) : c.IsValid policies where
  maxFindings := ⟨limit, hlimit, hpos⟩
  severities := ⟨severities, hseverities⟩
  ruleConfigs := ⟨_, hruleConfigs, List.forall_mem_singleton.mpr ⟨settings, rfl, hpolicy⟩⟩

theorem default_isValid (hdefault : Policy.defaultName ∈ policies.names) :
    default.IsValid policies :=
  isValid_of_singleton 200 rfl (by decide) rfl rfl (policySetting_defaultSettings hdefault)

theorem topLevel_map (file : Entries) : topLevel (.map file) = .ok file := by
  cases file <;> rfl

theorem ofValue_map (policies : Policies) (path : String) (file : Entries) :
    ofValue policies path (.map file) = (do
      let known ← knownEntries path file
      let c ← .ofExcept (merged known)
      let c ← validated policies path c
      return c.complete) := by
  rw [ofValue, topLevel_map, Report.ofExcept_ok, Report.pure_bind]

/-- The value of a document is merged into the defaults, validated and completed. -/
theorem ofValue_cases {path : String} {v : Value} {c : Config}
    (h : (ofValue policies path v).outcome = .ok c) :
    ∃ (file : Entries) (given checked : Config), merged file = .ok given ∧
      (validated policies path given).outcome = .ok checked ∧ c = checked.complete := by
  obtain ⟨file, -, h⟩ := Report.outcome_bind_eq_ok.mp h
  obtain ⟨known, -, h⟩ := Report.outcome_bind_eq_ok.mp h
  obtain ⟨given, hgiven, h⟩ := Report.outcome_bind_eq_ok.mp h
  obtain ⟨checked, hchecked, h⟩ := Report.outcome_bind_eq_ok.mp h
  exact ⟨known, given, checked, hgiven, hchecked, (Except.ok.inj h).symm⟩

theorem ofValue_isValid {path : String} {v : Value} {c : Config}
    (hdefault : Policy.defaultName ∈ policies.names)
    (h : (ofValue policies path v).outcome = .ok c) : c.IsValid policies := by
  -- a merge may put any value into a part, so that only the check behind it counts
  obtain ⟨file, given, checked, -, hchecked, rfl⟩ := ofValue_cases h
  exact (isValid_of_validated hdefault hchecked).complete

theorem unknownPolicy?_eq_none {settings : Entries} (h : PolicySetting policies settings) :
    unknownPolicy? policies settings = none := by
  unfold unknownPolicy?
  cases hfind : settings.find? (.text "policy") with
  | none => rfl
  | some v =>
    rcases h v hfind with rfl | ⟨name, hname, rfl⟩
    · rfl
    · exact if_pos (List.contains_iff_mem.mpr hname)

theorem validRuleConfigs_eq_pure (path : String) {entries : Entries}
    (h : ∀ e ∈ entries, ∃ settings, e.2 = .map settings ∧ PolicySetting policies settings) :
    validRuleConfigs policies path entries = pure entries := by
  induction entries with
  | nil => rfl
  | cons e rest ih =>
    obtain ⟨settings, hmap, hpolicy⟩ := h e List.mem_cons_self
    have hfirst : validSettings policies path e = pure e := by
      rw [validSettings, hmap, mapping, Report.ofExcept_ok, Report.pure_bind]
      rw [unknownPolicy?_eq_none hpolicy]
    rw [validRuleConfigs, hfirst, ih fun e he => h e (List.mem_cons_of_mem _ he),
      Report.pure_bind, Report.pure_bind]

/-- Validation keeps a valid configuration as it is, without a word. -/
theorem IsValid.validated_eq_pure {c : Config} (h : c.IsValid policies) (path : String) :
    validated policies path c = pure c := by
  obtain ⟨limit, hlimit, hpos⟩ := h.maxFindings
  obtain ⟨severities, hseverities⟩ := h.severities
  obtain ⟨ruleConfigs, hruleConfigs, hsettings⟩ := h.ruleConfigs
  have hvalid : validLimit path c.maxFindings = pure c.maxFindings := by
    rw [hlimit, validLimit, if_pos]
    exact decide_eq_true (by omega)
  rw [validated, hvalid, Report.pure_bind, hseverities, hruleConfigs, mapping, mapping,
    Report.ofExcept_ok, Report.ofExcept_ok, Report.pure_bind, Report.pure_bind,
    validRuleConfigs_eq_pure path hsettings, Report.pure_bind, ← hseverities, ← hruleConfigs]

theorem knownEntries_eq_pure (path : String) {file : Entries}
    (h : ∀ e ∈ file, isKnownKey e.1 = true) : knownEntries path file = pure file := by
  have hnone : file.filter (fun e => !isKnownKey e.1) = [] := by
    rw [List.filter_eq_nil_iff]
    intro e he
    simp [h e he]
  rw [knownEntries, hnone]
  rfl

theorem complete_eq_self {c : Config} (h : c.IsValid policies) (henabled : c.enabledRules ≠ .null) :
    c.complete = c := by
  obtain ⟨severities, hseverities⟩ := h.severities
  obtain ⟨ruleConfigs, hruleConfigs, -⟩ := h.ruleConfigs
  have hkept : ∀ v replacement : Value, v ≠ .null → orElse v replacement = v := by
    intro v replacement hv
    cases v with
    | null => exact absurd rfl hv
    | _ => rfl
  rw [complete, hkept _ _ henabled, hkept c.severities _ (by rw [hseverities]; simp),
    hkept c.ruleConfigs _ (by rw [hruleConfigs]; simp)]

/-- A document that is merged to a valid configuration leads to it, without a word. -/
theorem ofValue_eq_pure {c : Config} {file : Entries} (hknown : ∀ e ∈ file, isKnownKey e.1 = true)
    (hmerged : merged file = .ok c) (hvalid : c.IsValid policies)
    (henabled : c.enabledRules ≠ .null) (path : String) : ofValue policies path (.map file) = pure c := by
  rw [ofValue_map, knownEntries_eq_pure path hknown, Report.pure_bind, hmerged, Report.ofExcept_ok,
    Report.pure_bind, hvalid.validated_eq_pure path, Report.pure_bind,
    complete_eq_self hvalid henabled]

/-- A configuration that takes the place of one that could not be read is the default
one. -/
theorem eq_default_or_of_orDefault {path : String} {r : Report Config} {c : Config}
    (h : (orDefault path r).outcome = .ok c) : c = default ∨ r.outcome = .ok c := by
  unfold orDefault at h
  split at h
  · exact .inr h
  · split at h
    · exact .inl (Except.ok.inj h).symm
    · exact .inr h

theorem ofDocument_ok (policies : Policies) (path : String) (v : Value) :
    ofDocument policies path (.ok v) = orDefault path (ofValue policies path v) := by
  rw [ofDocument, Report.ofExcept_ok, Report.pure_bind]

theorem outcome_ofDocument_of_ok {path : String} {v : Value} {c : Config}
    (h : (ofValue policies path v).outcome = .ok c) :
    (ofDocument policies path (.ok v)).outcome = .ok c := by
  rw [ofDocument_ok, orDefault, h]
  exact h

/-- What is loaded is the default configuration, or comes from what the path leads to. -/
theorem load_cases (yaml : Yaml.Library) (policies : Policies) (files : FileTree)
    (directory : AbsolutePath) (path : String) :
    load yaml policies files directory path = pure default ∨
      ∃ p, files.locate (directory.join path) = .ok p ∧
        load yaml policies files directory path =
          ofDocument policies path (document yaml files p) := by
  unfold load
  split
  · exact .inl rfl
  · split
    · next p hp =>
      -- there is something, which may turn out to be no file
      exact .inr ⟨p, hp, rfl⟩
    · exact .inl rfl

/-- A written path leads to a file, and its document has a value. -/
def Holds (yaml : Yaml.Library) (files : FileTree) (directory : AbsolutePath) (path : String)
    (v : Value) : Prop :=
  path ≠ "" ∧ ∃ p, files.locate (directory.join path) = .ok p ∧ document yaml files p = .ok v

variable {yaml : Yaml.Library} {files : FileTree} {directory : AbsolutePath} {path : String}

theorem load_of_locate {p : Path} (hpath : path ≠ "")
    (hp : files.locate (directory.join path) = .ok p) :
    load yaml policies files directory path =
      ofDocument policies path (document yaml files p) := by
  rw [load, if_neg hpath, hp]

theorem load_of_holds {v : Value} (h : Holds yaml files directory path v) :
    load yaml policies files directory path = ofDocument policies path (.ok v) := by
  obtain ⟨hpath, p, hp, hdocument⟩ := h
  rw [load_of_locate hpath hp, hdocument]

/-- What a document, or the file that a written path leads to, gives. -/
inductive Loaded (policies : Policies) : Config → Prop
  | document (path : String) (doc : Except Fault Value) {c : Config}
      (h : (ofDocument policies path doc).outcome = .ok c) : Loaded policies c
  | file (yaml : Yaml.Library) (files : FileTree) (directory : AbsolutePath) (path : String)
      {c : Config} (h : (load yaml policies files directory path).outcome = .ok c) :
      Loaded policies c

/-- A document that is merged to a valid configuration gives it. -/
theorem loaded_of_merged {c : Config} (file : Entries) (hknown : ∀ e ∈ file, isKnownKey e.1 = true)
    (hmerged : merged file = .ok c) (hvalid : c.IsValid policies)
    (henabled : c.enabledRules ≠ .null) : Loaded policies c := by
  have hvalue := ofValue_eq_pure hknown hmerged hvalid henabled "stricteq.yml"
  exact .document "stricteq.yml" (.ok (.map file))
    (outcome_ofDocument_of_ok (congrArg Report.outcome hvalue))

/-- A loaded configuration is the default one, or comes from the value of a document. -/
theorem Loaded.eq_default_or {c : Config} (h : Loaded policies c) :
    c = default ∨ ∃ path v, (ofValue policies path v).outcome = .ok c := by
  have hdocument : ∀ {path : String} {doc : Except Fault Value},
      (ofDocument policies path doc).outcome = .ok c →
        c = default ∨ ∃ path v, (ofValue policies path v).outcome = .ok c := by
    intro path doc hc
    rcases eq_default_or_of_orDefault hc with hdefault | hread
    · exact .inl hdefault
    · obtain ⟨v, -, hvalue⟩ := Report.outcome_bind_eq_ok.mp hread
      exact .inr ⟨path, v, hvalue⟩
  cases h with
  | document path doc hc => exact hdocument hc
  | file yaml files directory path hc =>
    rcases load_cases yaml policies files directory path with hload | ⟨p, -, hload⟩
    · rw [hload] at hc
      exact .inl (Except.ok.inj hc).symm
    · rw [hload] at hc
      exact hdocument hc

/-- **Every loaded configuration is valid,** whatever the file holds. -/
theorem Loaded.isValid {c : Config} (hdefault : Policy.defaultName ∈ policies.names)
    (h : Loaded policies c) : c.IsValid policies := by
  rcases h.eq_default_or with rfl | ⟨path, v, hvalue⟩
  · exact default_isValid hdefault
  · exact ofValue_isValid hdefault hvalue

end Config

end StrictEquality
