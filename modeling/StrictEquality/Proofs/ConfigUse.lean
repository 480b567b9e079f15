import StrictEquality.Proofs.LoadFaults
import StrictEquality.Proofs.PolicyChoice
import StrictEquality.Proofs.SettingEntries

/-!
# Use of loaded configurations

Whatever is in a configuration file, loading it gives a configuration. It is valid, has
a severity and all settings for the rule of loose comparisons, and that rule can be run
with it, also when policies have been registered since.

## Main definitions

- `LooseComparison.settingNames` — the settings that the rule knows
- `Config.HasAllSettings`, `Config.CoversRule` — the rule has a severity and all of its
  settings
- `Config.IsUsable` — the configuration is valid, and the rule can be run with it

Main statement: `Config.exists_isUsable_of_load`.
-/

namespace StrictEquality

namespace LooseComparison

/-- The settings that the rule knows. -/
def settingNames : List String := ["allow_annotated_types", "alter_code", "policy"]

variable {loaded policies : Policies} {settings : Entries}

theorem level_of_mem_events {s : Settings} {c : Comparison} {event : Event}
    (h : event ∈ events s c) : event.level = .debug := by
  unfold events at h
  split at h
  · cases h
  · obtain rfl := List.mem_singleton.mp h
    unfold Decision.event
    split <;> rfl
  · obtain rfl := List.mem_singleton.mp h
    rfl

theorem log_choosePolicy_of_mem_names {name file : String} (hname : name ∈ policies.names)
    (hsetting : (settings.find? (.text "policy")).getD (.text Policy.defaultName) = .text name) :
    (choosePolicy policies settings file).log = [] := by
  obtain ⟨policy, hpolicy⟩ := Policies.exists_find?_of_mem_names hname
  rw [choosePolicy, hsetting, Policies.get, Policies.named_of_find? hpolicy]
  rfl

/-- Choosing a policy that was valid when it was read is worth a word only if it is
null. -/
theorem eq_null_of_mem_log_choosePolicy (h : PolicySetting loaded settings)
    (hnames : ∀ name ∈ loaded.names, name ∈ policies.names)
    (hdefault : Policy.defaultName ∈ policies.names) {file : String} {event : Event}
    (hlogged : event ∈ (choosePolicy policies settings file).log) :
    settings.find? (.text "policy") = some .null := by
  cases hfind : settings.find? (.text "policy") with
  | none =>
    rw [log_choosePolicy_of_mem_names hdefault (by rw [hfind]; rfl)] at hlogged
    cases hlogged
  | some v =>
    rcases h v hfind with rfl | ⟨name, hname, rfl⟩
    · rfl
    · rw [log_choosePolicy_of_mem_names (hnames name hname) (by rw [hfind]; rfl)] at hlogged
      cases hlogged

theorem log_readSettings (ctx : RuleContext) :
    (readSettings ctx).log = (choosePolicy ctx.policies ctx.settings ctx.file).log := by
  unfold readSettings
  change (Report.andThen _ _).log = _
  unfold Report.andThen
  split
  · exact List.append_nil _
  · rfl

/-- Once a policy is chosen the rule comes to its end, and a warning can only be about
that choice. -/
theorem visit_of_choosePolicy {ctx : RuleContext} {policy : Policy}
    (h : (choosePolicy ctx.policies ctx.settings ctx.file).outcome = .ok policy) :
    (visit ctx).fault = none ∧ ∀ event ∈ (visit ctx).log, event.level = .warning →
      event ∈ (choosePolicy ctx.policies ctx.settings ctx.file).log := by
  rw [visit, outcome_readSettings h]
  refine ⟨rfl, ?_⟩
  intro event hevent hwarning
  rcases List.mem_append.mp hevent with hchoice | hcomparison
  · rw [← log_readSettings]
    exact hchoice
  · -- what comparisons log is for debugging only
    obtain ⟨c, -, hc⟩ := List.mem_flatMap.mp hcomparison
    rw [level_of_mem_events hc] at hwarning
    cases hwarning

end LooseComparison

namespace Config

open LooseComparison

/-- Settings by rule have all settings of the rule of loose comparisons. -/
def HasAllSettings (ruleConfigs : Entries) : Prop :=
  ∃ settings : Entries, ruleConfigs.find? (.text ruleId) = some (.map settings) ∧
    ∀ name ∈ settingNames, (settings.find? (.text name)).isSome

theorem default_hasAllSettings : HasAllSettings defaultRuleConfigs := by
  refine ⟨defaultSettings, rfl, ?_⟩
  decide

/-- Settings that are added to those of a rule are merged into them. -/
theorem exists_merge_of_addSettings {acc acc' : Entries} {e : Value × Value}
    (h : addSettings acc e = .ok acc') :
    ∃ present given : Entries, acc' = acc.insert e.1 (.map (present.merge given)) ∧
      ∀ settings, acc.find? e.1 = some (.map settings) → present = settings := by
  obtain ⟨given, -, h⟩ := Fault.bind_eq_ok.mp h
  obtain rfl := Except.ok.inj h
  refine ⟨_, given, rfl, ?_⟩
  intro settings hfind
  rw [hfind]

theorem HasAllSettings.addSettings {acc acc' : Entries} {e : Value × Value}
    (h : HasAllSettings acc) (hadd : addSettings acc e = .ok acc') : HasAllSettings acc' := by
  obtain ⟨settings, hfind, hall⟩ := h
  obtain ⟨present, given, rfl, hpresent⟩ := exists_merge_of_addSettings hadd
  by_cases hkey : e.1 = .text ruleId
  · -- the settings of the rule itself are merged, not replaced
    rw [hkey] at hpresent ⊢
    obtain rfl := hpresent settings hfind
    refine ⟨present.merge given, Entries.find?_insert_text _ _ _, ?_⟩
    exact fun name hname => Entries.isSome_find?_merge given (hall name hname)
  · exact ⟨settings, (Entries.find?_insert_text_of_ne hkey).trans hfind, hall⟩

theorem HasAllSettings.foldlM_addSettings {given acc acc' : Entries} (h : HasAllSettings acc)
    (hadd : given.foldlM Config.addSettings acc = .ok acc') : HasAllSettings acc' := by
  induction given generalizing acc with
  | nil =>
    obtain rfl := Except.ok.inj hadd
    exact h
  | cons e rest ih =>
    rw [List.foldlM_cons] at hadd
    obtain ⟨next, hfirst, hrest⟩ := Fault.bind_eq_ok.mp hadd
    exact ih (h.addSettings hfirst) hrest

/-- The settings of a document add to the defaults, if they are a mapping at all. -/
theorem hasAllSettings_of_mergedRuleConfigs {file entries : Entries}
    (h : mergedRuleConfigs file = .ok (.map entries)) : HasAllSettings entries := by
  unfold mergedRuleConfigs at h
  split at h
  · next given hgiven =>
    cases hmerged : given.foldlM addSettings defaultRuleConfigs with
    | error fault =>
      rw [hmerged] at h
      cases h
    | ok acc =>
      rw [hmerged] at h
      obtain rfl := Value.map.inj (Except.ok.inj h)
      exact default_hasAllSettings.foldlM_addSettings hmerged
  · next v hother hv => exact absurd (Except.ok.inj h) (hother entries)
  · obtain rfl := Value.map.inj (Except.ok.inj h)
    exact default_hasAllSettings

theorem isSome_severity_of_mergedSeverities {file entries : Entries}
    (h : mergedSeverities file = .map entries) : (entries.find? (.text ruleId)).isSome := by
  unfold mergedSeverities at h
  split at h
  · next given hgiven =>
    obtain rfl := Value.map.inj h
    exact Entries.isSome_find?_merge given rfl
  · next v hother hv => exact absurd h (hother entries)
  · obtain rfl := Value.map.inj h
    rfl

theorem settings_of_validSettings {policies : Policies} {path : String} {e e' : Value × Value}
    (h : (validSettings policies path e).outcome = .ok e') :
    e'.1 = e.1 ∧ ∃ settings settings' : Entries, e.2 = .map settings ∧ e'.2 = .map settings' ∧
      ∀ key, (settings.find? key).isSome → (settings'.find? key).isSome := by
  obtain ⟨settings, hmap, ⟨-, rfl⟩ | rfl⟩ := validSettings_cases h
  · exact ⟨rfl, settings, settings, hmap, hmap, fun _ hkey => hkey⟩
  · exact ⟨rfl, settings, _, hmap, rfl, fun _ hkey => Entries.isSome_find?_insert hkey⟩

theorem HasAllSettings.validRuleConfigs {policies : Policies} {path : String}
    {entries entries' : Entries} (h : HasAllSettings entries)
    (hvalid : (validRuleConfigs policies path entries).outcome = .ok entries') :
    HasAllSettings entries' := by
  induction entries generalizing entries' with
  | nil =>
    obtain ⟨settings, hfind, -⟩ := h
    cases hfind
  | cons first rest ih =>
    obtain ⟨first', rest', hfirst, hrest, rfl⟩ := validRuleConfigs_cons_cases hvalid
    obtain ⟨hkey, given, kept, hgiven, hkept, hkeys⟩ := settings_of_validSettings hfirst
    obtain ⟨settings, hfind, hall⟩ := h
    rw [Entries.find?_cons] at hfind
    by_cases hrule : first.1.sameKey (.text ruleId)
    · rw [if_pos hrule, hgiven] at hfind
      obtain rfl : given = settings := Value.map.inj (Option.some.inj hfind)
      refine ⟨kept, ?_, fun name hname => hkeys _ (hall name hname)⟩
      rw [Entries.find?_cons, hkey, if_pos hrule, hkept]
    · rw [if_neg hrule] at hfind
      obtain ⟨settings', hfind', hall'⟩ := ih ⟨settings, hfind, hall⟩ hrest
      refine ⟨settings', ?_, hall'⟩
      rw [Entries.find?_cons, hkey, if_neg hrule, hfind']

/-- The rule of loose comparisons has a severity and all of its settings. -/
structure CoversRule (c : Config) : Prop where
  severity : ∃ entries : Entries, c.severities = .map entries ∧
    (entries.find? (.text ruleId)).isSome
  settings : ∃ entries, c.ruleConfigs = .map entries ∧ HasAllSettings entries

theorem default_coversRule : default.CoversRule where
  severity := ⟨_, rfl, rfl⟩
  settings := ⟨_, rfl, default_hasAllSettings⟩

theorem CoversRule.complete {c : Config} (h : c.CoversRule) : c.complete.CoversRule := by
  obtain ⟨severities, hseverities, hseverity⟩ := h.severity
  obtain ⟨ruleConfigs, hruleConfigs, hsettings⟩ := h.settings
  exact {
    severity := ⟨severities, by simp [Config.complete, hseverities, orElse], hseverity⟩
    settings := ⟨ruleConfigs, by simp [Config.complete, hruleConfigs, orElse], hsettings⟩ }

/-- The merge keeps the defaults for the rule in what is a mapping. -/
theorem covers_of_merged {file : Entries} {c : Config} (h : merged file = .ok c) :
    (∀ entries : Entries, c.severities = .map entries →
      (entries.find? (.text ruleId)).isSome) ∧
      ∀ entries, c.ruleConfigs = .map entries → HasAllSettings entries := by
  obtain ⟨ruleConfigs, hruleConfigs, h⟩ := Fault.bind_eq_ok.mp h
  obtain rfl := Except.ok.inj h
  refine ⟨fun entries => isSome_severity_of_mergedSeverities, ?_⟩
  rintro entries rfl
  exact hasAllSettings_of_mergedRuleConfigs hruleConfigs

/-- Validation refuses what is no mapping and keeps the entries of what is one. -/
theorem coversRule_of_validated {policies : Policies} {path : String} {c c' : Config}
    (hseverity : ∀ entries : Entries, c.severities = .map entries →
      (entries.find? (.text ruleId)).isSome)
    (hsettings : ∀ entries, c.ruleConfigs = .map entries → HasAllSettings entries)
    (h : (validated policies path c).outcome = .ok c') : c'.CoversRule := by
  obtain ⟨maxFindings, severities, ruleConfigs, valid, -, hseverities, hruleConfigs, hvalid, rfl⟩ :=
    validated_cases h
  exact {
    severity := ⟨severities, rfl, hseverity severities hseverities⟩
    settings := ⟨valid, rfl, (hsettings ruleConfigs hruleConfigs).validRuleConfigs hvalid⟩ }

theorem ofValue_coversRule {policies : Policies} {path : String} {v : Value} {c : Config}
    (h : (ofValue policies path v).outcome = .ok c) : c.CoversRule := by
  obtain ⟨file, given, checked, hgiven, hchecked, rfl⟩ := ofValue_cases h
  obtain ⟨hseverity, hsettings⟩ := covers_of_merged hgiven
  exact (coversRule_of_validated hseverity hsettings hchecked).complete

/-- The configuration is valid and covers the rule of loose comparisons. The rule comes to
its end with it, whatever policies have been registered since it was loaded, and falls
back to the default policy with a warning only where the policy is null. -/
structure IsUsable (registered : List Policy) (c : Config) : Prop where
  isValid : c.IsValid (Policies.builtin.registerAll registered)
  coversRule : c.CoversRule
  runs : ∃ settings, c.settings ruleId = .ok settings ∧
    ∀ (later : List Policy) (ctx : RuleContext), ctx.settings = settings →
      ctx.policies = Policies.builtin.registerAll (registered ++ later) →
        (visit ctx).fault = none ∧ ∀ event ∈ (visit ctx).log, event.level = .warning →
          settings.find? (.text "policy") = some .null

theorem IsValid.isUsable {registered : List Policy} {c : Config}
    (h : c.IsValid (Policies.builtin.registerAll registered)) (hcovers : c.CoversRule) :
    c.IsUsable registered := by
  obtain ⟨limit, -, hrunnable⟩ := h.isRunnable
  obtain ⟨settings, hsettings⟩ := hrunnable.exists_settings ruleId
  refine ⟨h, hcovers, settings, hsettings, ?_⟩
  rintro later ctx rfl hpolicies
  have hpolicy := h.policySetting hsettings
  -- names that were registered at load time still are
  have hnames : ∀ name ∈ (Policies.builtin.registerAll registered).names,
      name ∈ ctx.policies.names := by
    intro name hname
    rw [hpolicies, Policies.registerAll_append]
    exact Policies.mem_names_registerAll hname later
  have hdefault : Policy.defaultName ∈ ctx.policies.names :=
    hnames _ (Policies.defaultName_mem_names registered)
  obtain ⟨policy, hchosen⟩ :=
    exists_choosePolicy (policyIsKey_of_policySetting hpolicy) hdefault ctx.file
  obtain ⟨hfault, hwarnings⟩ := visit_of_choosePolicy hchosen
  refine ⟨hfault, ?_⟩
  intro event hevent hwarning
  exact eq_null_of_mem_log_choosePolicy hpolicy hnames hdefault (hwarnings event hevent hwarning)

/-- A loaded configuration has the entries that the defaults bring in for the rule. -/
theorem Loaded.coversRule {policies : Policies} {c : Config} (h : Loaded policies c) :
    c.CoversRule := by
  rcases h.eq_default_or with rfl | ⟨path, v, hvalue⟩
  · exact default_coversRule
  · exact ofValue_coversRule hvalue

theorem Loaded.isUsable {registered : List Policy} {c : Config}
    (h : Loaded (Policies.builtin.registerAll registered) c) : c.IsUsable registered :=
  (h.isValid (Policies.defaultName_mem_names registered)).isUsable h.coversRule

/-- **Loading never fails, and what is loaded stays usable.** Whatever value a document
has, and whatever expected fault reading it ends in, there is a configuration. It is
valid, has the entries that the defaults bring in for the rule of loose comparisons, and
the rule can be run with it from then on. The same holds for the file that any path leads
to, whatever the files are read with. -/
theorem exists_isUsable_of_load (registered : List Policy) (path : String) :
    let policies := Policies.builtin.registerAll registered
    (∀ doc : Except Fault Value, FailsAsExpected doc →
      ∃ c, (ofDocument policies path doc).outcome = .ok c ∧
        (∀ fault, doc = .error fault → c = default) ∧ c.IsUsable registered) ∧
      ∀ (yaml : Yaml.Library) (files : FileTree) (directory : AbsolutePath),
        (∀ p, files.locate (directory.join path) = .ok p →
          FailsAsExpected (document yaml files p)) →
          ∃ c, (load yaml policies files directory path).outcome = .ok c ∧
            c.IsUsable registered := by
  intro policies
  constructor
  · intro doc h
    obtain ⟨c, hc, hdefault⟩ := exists_ofDocument policies path h
    exact ⟨c, hc, hdefault, (Loaded.document path doc hc).isUsable⟩
  · intro yaml files directory hfiles
    have hexists : ∃ c, (load yaml policies files directory path).outcome = .ok c := by
      rcases load_cases yaml policies files directory path with hload | ⟨p, hp, hload⟩
      · exact ⟨default, by rw [hload]; rfl⟩
      · obtain ⟨c, hc, -⟩ := exists_ofDocument policies path (hfiles p hp)
        exact ⟨c, hload ▸ hc⟩
    obtain ⟨c, hc⟩ := hexists
    exact ⟨c, hc, (Loaded.file yaml files directory path hc).isUsable⟩

/-- A document that asks for no policy and for a limit that is none, and a directory in
the place of the file. -/
theorem exists_isUsable_of_load_nullPolicy :
    let policies := Policies.builtin.registerAll []
    let doc : Except Fault Value := .ok (.map [(.text "max_findings_per_file", .bool true),
      (.text "rule_configs", .map [(.text ruleId, .map [(.text "policy", .null)])])])
    let yaml : Yaml.Library := { load := fun _ => doc, dump := fun _ => "" }
    let files : FileTree := [("srv", .directory [("stricteq.yml", .directory [])])]
    let directory := AbsolutePath.ofNames false ["srv"]
    FailsAsExpected doc ∧
      (files.locate (directory.join "stricteq.yml")).toOption = some ["srv", "stricteq.yml"] ∧
      (∀ p, files.locate (directory.join "stricteq.yml") = .ok p →
        FailsAsExpected (document yaml files p)) ∧
      (∃ c, (ofDocument policies "stricteq.yml" doc).outcome = .ok c ∧
        (∀ fault, doc = .error fault → c = default) ∧ c.IsUsable []) ∧
      ∃ c, (load yaml policies files directory "stricteq.yml").outcome = .ok c ∧
        c.IsUsable [] := by
  intro policies doc yaml files directory
  have hdoc : FailsAsExpected doc := FailsAsExpected.of_ok _
  have hlocate : (files.locate (directory.join "stricteq.yml")).toOption =
      some ["srv", "stricteq.yml"] := by
    decide +kernel
  have hfiles : ∀ p, files.locate (directory.join "stricteq.yml") = .ok p →
      FailsAsExpected (document yaml files p) := by
    intro p hp
    obtain rfl := Option.some.inj ((congrArg Except.toOption hp).symm.trans hlocate)
    have hread : files.read ["srv", "stricteq.yml"] = .error .isDirectory := rfl
    rw [document, hread]
    exact FailsAsExpected.of_error rfl
  obtain ⟨hvalues, htrees⟩ := exists_isUsable_of_load [] "stricteq.yml"
  exact ⟨hdoc, hlocate, hfiles, hvalues doc hdoc, htrees yaml files directory hfiles⟩

end Config

end StrictEquality
