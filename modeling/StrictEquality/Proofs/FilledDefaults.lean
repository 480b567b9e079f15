import Mathlib.Data.List.Find
import StrictEquality.Proofs.ConfigUse
import StrictEquality.Proofs.DocumentKeys

/-!
# Defaults filled into a configuration

The value that describes a valid configuration leads to that configuration again, with
the defaults for the rule of loose comparisons filled in where they are missing and with
nothing else changed. The entries of mappings may come in another order.

## Main definitions

- `Value.Same`, `Config.Same` — equal but for the order of entries
- `Entries.withDefaults`, `Config.withDefaults` — with the defaults that are missing
- `Config.overDefaults` — merged into the defaults, as a document is

Main statements: `Value.same_merge_withDefaults`, `Config.Same.overDefaults`,
`Config.exists_same_of_ofValue`.
-/

namespace StrictEquality

namespace Value

/-- Two values are equal but for the order of the entries of mappings, which are compared
key by key, and of the elements of sets. -/
inductive Same : Value → Value → Prop
  | refl (v : Value) : Same v v
  | list {items items' : List Value} (hitems : List.Forall₂ Same items items') :
      Same (.list items) (.list items')
  | map {entries entries' : Entries}
      (hkeys : ∀ k, k ∈ entries.map Prod.fst ↔ k ∈ entries'.map Prod.fst)
      (hvalues : ∀ k v v', entries.find? k = some v → entries'.find? k = some v' → Same v v') :
      Same (.map entries) (.map entries')
  | set {items items' : List Value} (hitems : ∀ v, v ∈ items ↔ v ∈ items') :
      Same (.set items) (.set items')

namespace Same

variable {v w : Value} {entries entries' : Entries}

/-- There is only one order of a scalar. -/
theorem eq_of_isKey (h : v.Same w) (hw : w.isKey = true) : v = w := by
  cases h with
  | refl => rfl
  | list => cases hw
  | map => cases hw
  | set => cases hw

theorem eq_null (h : Value.null.Same w) : w = .null := by
  cases h
  rfl

theorem exists_map (h : v.Same (.map entries)) : ∃ entries', v = .map entries' := by
  cases h with
  | refl => exact ⟨entries, rfl⟩
  | map => exact ⟨_, rfl⟩

theorem exists_map_right (h : (Value.map entries).Same w) : ∃ entries', w = .map entries' := by
  cases h with
  | refl => exact ⟨entries, rfl⟩
  | map => exact ⟨_, rfl⟩

theorem mem_keys_iff (h : (Value.map entries).Same (.map entries')) (k : Value) :
    k ∈ entries.map Prod.fst ↔ k ∈ entries'.map Prod.fst := by
  cases h with
  | refl => rfl
  | map hkeys _ => exact hkeys k

theorem isSome_find?_iff (h : (Value.map entries).Same (.map entries')) (k : Value) :
    (entries.find? k).isSome ↔ (entries'.find? k).isSome := by
  have hexists : ∀ es : Entries,
      (es.find? k).isSome ↔ ∃ key ∈ es.map Prod.fst, key.sameKey k = true := by
    intro es
    simp [Entries.isSome_find?_iff]
  simp only [hexists, h.mem_keys_iff]

theorem find?_eq_none_iff (h : (Value.map entries).Same (.map entries')) (k : Value) :
    entries.find? k = none ↔ entries'.find? k = none := by
  rw [← Option.not_isSome_iff_eq_none, ← Option.not_isSome_iff_eq_none, h.isSome_find?_iff]

theorem of_find? (h : (Value.map entries).Same (.map entries')) {k : Value}
    (hv : entries.find? k = some v) (hw : entries'.find? k = some w) : v.Same w := by
  cases h with
  | refl =>
    obtain rfl := Option.some.inj (hv.symm.trans hw)
    exact .refl v
  | map _ hvalues => exact hvalues k v w hv hw

theorem exists_find? (h : (Value.map entries).Same (.map entries')) {k : Value}
    (hw : entries'.find? k = some w) : ∃ v, entries.find? k = some v ∧ v.Same w := by
  have hsome : (entries.find? k).isSome := (h.isSome_find?_iff k).mpr (by rw [hw]; rfl)
  obtain ⟨v, hv⟩ := Option.isSome_iff_exists.mp hsome
  exact ⟨v, hv, h.of_find? hv hw⟩

theorem exists_find?_right (h : (Value.map entries).Same (.map entries')) {k : Value}
    (hv : entries.find? k = some v) : ∃ w, entries'.find? k = some w ∧ v.Same w := by
  have hsome : (entries'.find? k).isSome := (h.isSome_find?_iff k).mp (by rw [hv]; rfl)
  obtain ⟨w, hw⟩ := Option.isSome_iff_exists.mp hsome
  exact ⟨w, hw, h.of_find? hv hw⟩

/-- Entries with distinct texts for keys are the same in any order. -/
theorem of_perm (hperm : entries.Perm entries') (htext : entries'.HasTextKeys)
    (hkeys : entries'.HasDistinctKeys) : (Value.map entries).Same (.map entries') := by
  refine .map (fun k => (hperm.map Prod.fst).mem_iff) ?_
  intro k v v' hv hv'
  obtain ⟨e, he, hsame, rfl⟩ := Entries.exists_mem_of_find? hv
  obtain ⟨e', he', hsame', rfl⟩ := Entries.exists_mem_of_find? hv'
  have he := hperm.mem_iff.mp he
  have hkey : ∀ d ∈ entries', d.1.sameKey k = true → k = d.1 := by
    intro d hd hsame
    obtain ⟨s, hs⟩ := htext d hd
    rw [hs] at hsame ⊢
    exact Value.text_sameKey_iff.mp hsame
  have heq : e.1 = e'.1 := (hkey e he hsame).symm.trans (hkey e' he' hsame')
  have hvalue : some e.2 = some e'.2 := by
    rw [← hkeys.find?_of_mem he, heq, hkeys.find?_of_mem he']
  rw [Option.some.inj hvalue]
  exact .refl _

end Same

end Value

namespace Entries

variable {entries defaults : Entries}

/-- The entries, and the defaults for the keys that are missing. -/
def withDefaults (entries defaults : Entries) : Entries :=
  entries ++ defaults.filter (fun d => (entries.find? d.1).isNone)

theorem find?_withDefaults (hdefaults : defaults.HasTextKeys) (k : Value) :
    (entries.withDefaults defaults).find? k = (entries.find? k).or (defaults.find? k) := by
  rw [withDefaults, find?_append]
  by_cases hpresent : (entries.find? k).isSome
  · rw [Option.or_of_isSome hpresent, Option.or_of_isSome hpresent]
  · -- a default that is found under the key has been missing
    have hmissing : find? (defaults.filter (fun d => (entries.find? d.1).isNone)) k =
        defaults.find? k := by
      rw [find?, find?, List.find?_filter]
      congr 1
      refine List.find?_congr fun d hd => ?_
      obtain ⟨s, hs⟩ := hdefaults d hd
      by_cases hsame : d.1.sameKey k = true
      · have hk : k = d.1 := by
          rw [hs] at hsame ⊢
          exact Value.text_sameKey_iff.mp hsame
        rw [hk] at hpresent
        simpa [hsame] using hpresent
      · simp [hsame]
    rw [hmissing]

theorem mem_keys_withDefaults (hdefaults : defaults.HasTextKeys) (k : Value) :
    k ∈ (entries.withDefaults defaults).map Prod.fst ↔
      k ∈ entries.map Prod.fst ∨ k ∈ defaults.map Prod.fst := by
  rw [withDefaults, List.map_append, List.mem_append]
  refine or_congr_right' fun hnew => ?_
  simp only [List.mem_map, List.mem_filter]
  constructor
  · rintro ⟨d, ⟨hd, -⟩, hk⟩
    exact ⟨d, hd, hk⟩
  · rintro ⟨d, hd, rfl⟩
    obtain ⟨s, hs⟩ := hdefaults d hd
    rw [hs, ← isSome_find?_text_iff] at hnew
    refine ⟨d, ⟨hd, ?_⟩, rfl⟩
    rw [hs]
    simpa using hnew

theorem withDefaults_nil (entries : Entries) : entries.withDefaults [] = entries :=
  List.append_nil entries

theorem withDefaults_eq_self (h : ∀ d ∈ defaults, (entries.find? d.1).isSome) :
    entries.withDefaults defaults = entries := by
  have hnone : defaults.filter (fun d => (entries.find? d.1).isNone) = [] := by
    rw [List.filter_eq_nil_iff]
    intro d hd
    simpa using Option.isSome_iff_ne_none.mp (h d hd)
  rw [withDefaults, hnone, List.append_nil]

end Entries

/-- Entries merged into defaults are the entries with the defaults that are missing. -/
theorem Value.same_merge_withDefaults {defaults given entries : Entries}
    (hdefaults : defaults.HasTextKeys) (hgiven : given.HasDistinctKeys)
    (h : (Value.map given).Same (.map entries)) :
    (Value.map (defaults.merge given)).Same (.map (entries.withDefaults defaults)) := by
  rw [Entries.merge_eq_updateAll]
  refine .map ?_ ?_
  · intro k
    rw [Entries.mem_keys_updateAll hdefaults hgiven, Entries.mem_keys_withDefaults hdefaults,
      h.mem_keys_iff, or_comm]
  · intro k v v' hv hv'
    rw [Entries.find?_updateAll hdefaults hgiven] at hv
    rw [Entries.find?_withDefaults hdefaults] at hv'
    cases hfound : given.find? k with
    | some found =>
      rw [hfound] at hv
      obtain rfl := Option.some.inj hv
      obtain ⟨w, hw, hsame⟩ := h.exists_find?_right hfound
      rw [hw] at hv'
      obtain rfl := Option.some.inj hv'
      exact hsame
    | none =>
      rw [hfound] at hv
      rw [(h.find?_eq_none_iff k).mp hfound, Option.none_or] at hv'
      obtain rfl := Option.some.inj (hv.symm.trans hv')
      exact .refl v

namespace Config

open LooseComparison Entries

variable {policies : Policies}

/-- Two configurations are equal but for the order of entries. -/
structure Same (c c' : Config) : Prop where
  enabledRules : c.enabledRules.Same c'.enabledRules
  maxFindings : c.maxFindings = c'.maxFindings
  severities : c.severities.Same c'.severities
  ruleConfigs : c.ruleConfigs.Same c'.ruleConfigs

/-- The entries of a value, if it is there and a mapping. -/
def entriesIn : Option Value → Entries
  | some (.map entries) => entries
  | _ => []

/-- A configuration, with the severity and the settings of the rule of loose comparisons
that are missing. -/
def withDefaults (c : Config) : Config :=
  let severities := entriesIn (some c.severities)
  let ruleConfigs := entriesIn (some c.ruleConfigs)
  let settings := entriesIn (ruleConfigs.find? (.text ruleId))
  { c with
    severities := .map (severities.withDefaults defaultSeverities)
    ruleConfigs :=
      .map (ruleConfigs.insert (.text ruleId) (.map (settings.withDefaults defaultSettings))) }

theorem hasTextKeys_defaultSettings : HasTextKeys defaultSettings := by
  simp [HasTextKeys, defaultSettings]

theorem hasTextKeys_defaultSeverities : HasTextKeys defaultSeverities := by
  simp [HasTextKeys, defaultSeverities]

theorem hasTextKeys_defaultRuleConfigs : HasTextKeys defaultRuleConfigs := by
  simp [HasTextKeys, defaultRuleConfigs]

theorem hasDistinctKeys_defaultRuleConfigs : HasDistinctKeys defaultRuleConfigs where
  isKey := by simp [defaultRuleConfigs, Value.isKey]
  pairwise := List.pairwise_singleton _ _

theorem find?_defaultRuleConfigs_of_ne {k : Value} (h : k ≠ .text ruleId) :
    find? defaultRuleConfigs k = none := by
  have hother : ¬ (Value.text ruleId).sameKey k = true :=
    fun hsame => h (Value.text_sameKey_iff.mp hsame)
  rw [defaultRuleConfigs, find?_singleton, if_neg hother]

/-- The settings that are there with the given ones added. -/
def addedSettings (present : Option Value) (given : Value) : Value :=
  .map ((entriesIn present).merge (entriesIn (some given)))

theorem givenSettings_map (settings : Entries) : givenSettings (.map settings) = .ok settings := by
  cases settings <;> rfl

theorem addSettings_of_givenSettings (acc : Entries) {e : Value × Value}
    (h : givenSettings e.2 = .ok (entriesIn (some e.2))) :
    addSettings acc e = .ok (acc.insert e.1 (addedSettings (acc.find? e.1) e.2)) := by
  rw [addSettings, h]
  rfl

/-- Settings that are mappings, or give nothing, can be added. -/
theorem foldlM_addSettings {given : Entries}
    (h : ∀ e ∈ given, givenSettings e.2 = .ok (entriesIn (some e.2))) (acc : Entries) :
    given.foldlM addSettings acc = .ok (updateAll addedSettings acc given) := by
  induction given generalizing acc with
  | nil => rfl
  | cons e rest ih =>
    rw [List.foldlM_cons, addSettings_of_givenSettings acc (h e List.mem_cons_self),
      Fault.ok_bind, ih fun e he => h e (List.mem_cons_of_mem _ he)]
    rfl

/-- The settings by rule that are merged are the given ones with the settings that are
missing for the rule of loose comparisons. -/
theorem same_addedSettings {given entries : Entries} (hgiven : (Value.map given).IsWellKeyed)
    (hmaps : ∀ e ∈ given, ∃ settings, e.2 = .map settings)
    (h : (Value.map given).Same (.map entries)) :
    (Value.map (updateAll addedSettings defaultRuleConfigs given)).Same
      (.map (entries.insert (.text ruleId)
        (.map ((entriesIn (entries.find? (.text ruleId))).withDefaults defaultSettings)))) := by
  -- what is given for a rule is the mapping that is there, in another order
  have hsettings : ∀ k found : Value, given.find? k = some found →
      ∃ settings settings' : Entries, found = .map settings ∧ settings.HasDistinctKeys ∧
        entries.find? k = some (.map settings') ∧
        (Value.map settings).Same (.map settings') := by
    intro k found hfound
    obtain ⟨e, he, -, rfl⟩ := exists_mem_of_find? hfound
    obtain ⟨settings, hmap⟩ := hmaps e he
    obtain ⟨w, hw, hsame⟩ := h.exists_find?_right hfound
    rw [hmap] at hsame
    obtain ⟨settings', rfl⟩ := hsame.exists_map_right
    exact ⟨settings, settings', hmap, (hmap ▸ hgiven.of_mem he).distinctKeys, hw, hsame⟩
  refine .map ?_ ?_
  · intro k
    rw [mem_keys_updateAll hasTextKeys_defaultRuleConfigs hgiven.distinctKeys,
      mem_keys_insert_text, h.mem_keys_iff, or_comm]
    simp [defaultRuleConfigs]
  · intro k v v' hv hv'
    rw [find?_updateAll hasTextKeys_defaultRuleConfigs hgiven.distinctKeys] at hv
    by_cases hk : k = .text ruleId
    · rw [hk, find?_insert_text, ← hk] at hv'
      obtain rfl := Option.some.inj hv'
      have hdefault : find? defaultRuleConfigs k = some (.map defaultSettings) := by
        rw [hk]
        rfl
      cases hfound : given.find? k with
      | none =>
        -- all settings of the rule are missing
        rw [hfound, hdefault] at hv
        obtain rfl := Option.some.inj hv
        rw [(h.find?_eq_none_iff k).mp hfound]
        exact .refl _
      | some found =>
        rw [hfound, hdefault] at hv
        obtain rfl := Option.some.inj hv
        obtain ⟨settings, settings', rfl, hdistinct, hthere, hsame⟩ := hsettings k found hfound
        rw [hthere]
        exact Value.same_merge_withDefaults hasTextKeys_defaultSettings hdistinct hsame
    · rw [find?_insert_text_other hk] at hv'
      rw [find?_defaultRuleConfigs_of_ne hk] at hv
      cases hfound : given.find? k with
      | none =>
        rw [hfound] at hv
        cases hv
      | some found =>
        -- the settings of any other rule are as they are given
        rw [hfound] at hv
        obtain rfl := Option.some.inj hv
        obtain ⟨settings, settings', rfl, hdistinct, hthere, hsame⟩ := hsettings k found hfound
        obtain rfl : .map settings' = v' := Option.some.inj (hthere.symm.trans hv')
        have hnone : HasTextKeys [] := by simp [HasTextKeys]
        have hmerged := Value.same_merge_withDefaults hnone hdistinct hsame
        rwa [withDefaults_nil] at hmerged

/-- A policy setting that is allowed stays so when the settings come in another order. -/
theorem policySetting_of_same {settings settings' : Entries} (h : PolicySetting policies settings')
    (hsame : (Value.map settings).Same (.map settings')) : PolicySetting policies settings := by
  intro v hv
  obtain ⟨v', hv', hvalue⟩ := hsame.exists_find?_right hv
  rcases h v' hv' with rfl | ⟨name, hname, rfl⟩
  · exact .inl (hvalue.eq_of_isKey rfl)
  · exact .inr ⟨name, hname, hvalue.eq_of_isKey rfl⟩

theorem policySetting_merge {present given : Entries} (hpresent : present.HasTextKeys)
    (hgiven : given.HasDistinctKeys) (h : PolicySetting policies present)
    (h' : PolicySetting policies given) : PolicySetting policies (present.merge given) := by
  intro v hv
  rw [merge_eq_updateAll, find?_updateAll hpresent hgiven] at hv
  cases hfound : given.find? (.text "policy") with
  | some found =>
    rw [hfound] at hv
    obtain rfl := Option.some.inj hv
    exact h' found hfound
  | none =>
    rw [hfound] at hv
    exact h v hv

/-- Settings by rule are a mapping of mappings with allowed policies after the merge, if
they are before it. -/
theorem exists_settings_of_updateAll (hdefault : Policy.defaultName ∈ policies.names)
    {given : Entries} (hgiven : (Value.map given).IsWellKeyed)
    (h : ∀ e ∈ given, ∃ settings, e.2 = .map settings ∧ PolicySetting policies settings) :
    ∀ e ∈ updateAll addedSettings defaultRuleConfigs given,
      ∃ settings, e.2 = .map settings ∧ PolicySetting policies settings := by
  intro e he
  have hdistinct : (updateAll addedSettings defaultRuleConfigs given).HasDistinctKeys :=
    hasDistinctKeys_defaultRuleConfigs.updateAll hgiven.distinctKeys.isKey
  have hvalue := hdistinct.find?_of_mem he
  rw [find?_updateAll hasTextKeys_defaultRuleConfigs hgiven.distinctKeys] at hvalue
  have hpresent : ∀ v, find? defaultRuleConfigs e.1 = some v → v = .map defaultSettings := by
    intro v hv
    obtain ⟨first, hfirst, -, rfl⟩ := exists_mem_of_find? hv
    obtain rfl := List.mem_singleton.mp hfirst
    rfl
  cases hfound : given.find? e.1 with
  | none =>
    rw [hfound] at hvalue
    exact ⟨_, hpresent e.2 hvalue, policySetting_defaultSettings hdefault⟩
  | some found =>
    rw [hfound] at hvalue
    obtain ⟨first, hfirst, -, rfl⟩ := exists_mem_of_find? hfound
    obtain ⟨settings, hmap, hpolicy⟩ := h first hfirst
    have hkeys : HasDistinctKeys settings := (hmap ▸ hgiven.of_mem hfirst).distinctKeys
    rw [hmap] at hvalue
    refine ⟨_, (Option.some.inj hvalue).symm, ?_⟩
    cases hdef : find? defaultRuleConfigs e.1 with
    | none =>
      have hnone : PolicySetting policies [] := by
        intro v hv
        cases hv
      exact policySetting_merge (by simp [HasTextKeys, entriesIn]) hkeys hnone hpolicy
    | some present =>
      obtain rfl := hpresent present hdef
      exact policySetting_merge hasTextKeys_defaultSettings hkeys
        (policySetting_defaultSettings hdefault) hpolicy

/-- Settings by rule stay mappings with allowed policies in another order. -/
theorem exists_settings_of_same {entries entries' : Entries} (hkeys : entries.HasDistinctKeys)
    (hsame : (Value.map entries).Same (.map entries'))
    (h : ∀ e ∈ entries', ∃ settings, e.2 = .map settings ∧ PolicySetting policies settings) :
    ∀ e ∈ entries, ∃ settings, e.2 = .map settings ∧ PolicySetting policies settings := by
  intro e he
  obtain ⟨v, hv, hvalue⟩ := hsame.exists_find?_right (hkeys.find?_of_mem he)
  obtain ⟨e', he', -, rfl⟩ := exists_mem_of_find? hv
  obtain ⟨settings', hmap', hpolicy⟩ := h e' he'
  rw [hmap'] at hvalue
  obtain ⟨settings, hmap⟩ := hvalue.exists_map
  rw [hmap] at hvalue
  exact ⟨settings, hmap, policySetting_of_same hpolicy hvalue⟩

/-- The parts are found under their names. -/
def IsGivenIn (given : Config) (file : Entries) : Prop :=
  ∀ e ∈ given.entries, file.find? e.1 = some e.2

/-- The parts of a configuration are given in a mapping that is the same but for order. -/
theorem exists_isGivenIn {c : Config} {file : Entries} (hlimit : c.maxFindings.isKey = true)
    (hsame : (Value.map file).Same (.map c.entries)) :
    ∃ given : Config, given.IsGivenIn file ∧ given.Same c := by
  obtain ⟨enabledRules, henabled, hsameEnabled⟩ := hsame.exists_find?
    (show c.entries.find? (.text "enabled_rules") = some c.enabledRules from rfl)
  obtain ⟨maxFindings, hmax, hsameMax⟩ := hsame.exists_find?
    (show c.entries.find? (.text "max_findings_per_file") = some c.maxFindings from rfl)
  obtain ⟨severities, hseverities, hsameSeverities⟩ := hsame.exists_find?
    (show c.entries.find? (.text "rule_severities") = some c.severities from rfl)
  obtain ⟨ruleConfigs, hruleConfigs, hsameRuleConfigs⟩ := hsame.exists_find?
    (show c.entries.find? (.text "rule_configs") = some c.ruleConfigs from rfl)
  refine ⟨{ enabledRules, maxFindings, severities, ruleConfigs }, ?_,
    { enabledRules := hsameEnabled
      maxFindings := hsameMax.eq_of_isKey hlimit
      severities := hsameSeverities
      ruleConfigs := hsameRuleConfigs }⟩
  simp [IsGivenIn, entries, henabled, hmax, hseverities, hruleConfigs]

/-- A mapping with the keys of a configuration has known keys only. -/
theorem isKnownKey_of_same {c : Config} {file : Entries}
    (hsame : (Value.map file).Same (.map c.entries)) : ∀ e ∈ file, isKnownKey e.1 = true := by
  have hnames : ∀ k ∈ c.entries.map Prod.fst, isKnownKey k = true := by
    simp [entries, isKnownKey, keys, Value.isText]
  intro e he
  exact hnames e.1 ((hsame.mem_keys_iff e.1).mp (List.mem_map_of_mem he))

/-- The default configuration with the parts of another one merged in. -/
def overDefaults (given : Config) : Config :=
  { given with
    severities := .map (defaultSeverities.merge (entriesIn (some given.severities)))
    ruleConfigs :=
      .map (updateAll addedSettings defaultRuleConfigs (entriesIn (some given.ruleConfigs))) }

theorem merged_of_isGivenIn {given : Config} {file : Entries} (h : given.IsGivenIn file)
    (hvalid : given.IsValid policies) : merged file = .ok given.overDefaults := by
  obtain ⟨severities, hseverities⟩ := hvalid.severities
  obtain ⟨ruleConfigs, hruleConfigs, hsettings⟩ := hvalid.ruleConfigs
  have hgiven : ∀ e ∈ ruleConfigs, givenSettings e.2 = .ok (entriesIn (some e.2)) := by
    intro e he
    obtain ⟨settings, hmap, -⟩ := hsettings e he
    rw [hmap]
    exact givenSettings_map settings
  have hparts : file.find? (.text "enabled_rules") = some given.enabledRules ∧
      file.find? (.text "max_findings_per_file") = some given.maxFindings ∧
      file.find? (.text "rule_severities") = some (.map severities) ∧
      file.find? (.text "rule_configs") = some (.map ruleConfigs) := by
    simpa [IsGivenIn, entries, hseverities, hruleConfigs] using h
  obtain ⟨hfindEnabled, hfindLimit, hfindSeverities, hfindRuleConfigs⟩ := hparts
  rw [merged, mergedRuleConfigs, hfindRuleConfigs]
  dsimp only
  rw [foldlM_addSettings hgiven, mergedSeverities, hfindSeverities, partOr, partOr, hfindEnabled,
    hfindLimit, overDefaults, hseverities, hruleConfigs]
  rfl

/-- A configuration that is valid is so in another order. -/
theorem IsValid.of_same {given c : Config} (h : c.IsValid policies) (hsame : given.Same c)
    (hkeys : given.ruleConfigs.IsWellKeyed) : given.IsValid policies := by
  obtain ⟨severities, hseverities⟩ := h.severities
  obtain ⟨ruleConfigs, hruleConfigs, hsettings⟩ := h.ruleConfigs
  obtain ⟨given', hgiven⟩ := (hruleConfigs ▸ hsame.ruleConfigs).exists_map
  rw [hgiven] at hkeys
  have hsameRuleConfigs : (Value.map given').Same (.map ruleConfigs) := by
    rw [← hgiven, ← hruleConfigs]
    exact hsame.ruleConfigs
  exact {
    maxFindings := by
      rw [hsame.maxFindings]
      exact h.maxFindings
    severities := (hseverities ▸ hsame.severities).exists_map
    ruleConfigs := ⟨given', hgiven,
      exists_settings_of_same hkeys.distinctKeys hsameRuleConfigs hsettings⟩ }

theorem IsValid.overDefaults {given : Config} (hdefault : Policy.defaultName ∈ policies.names)
    (h : given.IsValid policies) (hkeys : given.ruleConfigs.IsWellKeyed) :
    given.overDefaults.IsValid policies := by
  obtain ⟨ruleConfigs, hruleConfigs, hsettings⟩ := h.ruleConfigs
  rw [hruleConfigs] at hkeys
  refine { maxFindings := h.maxFindings, severities := ⟨_, rfl⟩, ruleConfigs := ⟨_, rfl, ?_⟩ }
  rw [hruleConfigs]
  exact exists_settings_of_updateAll hdefault hkeys hsettings

/-- To merge the parts into the defaults is to fill in the defaults that are missing. -/
theorem Same.overDefaults {given c : Config} (hsame : given.Same c)
    (hvalid : given.IsValid policies) (hseverityKeys : given.severities.IsWellKeyed)
    (hruleKeys : given.ruleConfigs.IsWellKeyed) : given.overDefaults.Same c.withDefaults := by
  obtain ⟨severities, hseverities⟩ := hvalid.severities
  obtain ⟨ruleConfigs, hruleConfigs, hsettings⟩ := hvalid.ruleConfigs
  have hmaps : ∀ e ∈ ruleConfigs, ∃ settings, e.2 = .map settings :=
    fun e he => (hsettings e he).imp fun _ => And.left
  rw [hseverities] at hseverityKeys
  rw [hruleConfigs] at hruleKeys
  obtain ⟨severities', hseverities'⟩ := (hseverities ▸ hsame.severities).exists_map_right
  obtain ⟨ruleConfigs', hruleConfigs'⟩ := (hruleConfigs ▸ hsame.ruleConfigs).exists_map_right
  have hsameSeverities := hsame.severities
  have hsameRuleConfigs := hsame.ruleConfigs
  rw [hseverities, hseverities'] at hsameSeverities
  rw [hruleConfigs, hruleConfigs'] at hsameRuleConfigs
  rw [Config.overDefaults, withDefaults, hseverities, hseverities', hruleConfigs, hruleConfigs']
  exact {
    enabledRules := hsame.enabledRules
    maxFindings := hsame.maxFindings
    severities := Value.same_merge_withDefaults hasTextKeys_defaultSeverities
      hseverityKeys.distinctKeys hsameSeverities
    ruleConfigs := same_addedSettings hruleKeys hmaps hsameRuleConfigs }

/-- **The value that describes a valid configuration leads back to it,** with the defaults
that are missing filled in and with nothing else changed or logged. -/
theorem exists_same_of_ofValue (hdefault : Policy.defaultName ∈ policies.names) {c : Config}
    (hvalid : c.IsValid policies) (henabled : c.enabledRules ≠ .null) {v : Value}
    (hkeys : v.IsWellKeyed) (hsame : v.Same (.map c.entries)) (path : String) :
    ∃ loaded, ofValue policies path v = pure loaded ∧ loaded.Same c.withDefaults := by
  obtain ⟨file, rfl⟩ := hsame.exists_map
  have hlimit : c.maxFindings.isKey = true := by
    obtain ⟨limit, hlimit, -⟩ := hvalid.maxFindings
    rw [hlimit]
    rfl
  obtain ⟨given, hgiven, hsameGiven⟩ := exists_isGivenIn hlimit hsame
  have hpartKeys : ∀ e ∈ given.entries, e.2.IsWellKeyed := by
    intro e he
    obtain ⟨found, hfound, -, hvalue⟩ := exists_mem_of_find? (hgiven e he)
    rw [← hvalue]
    exact hkeys.of_mem hfound
  have hseverityKeys : given.severities.IsWellKeyed :=
    hpartKeys (.text "rule_severities", given.severities) (by simp [entries])
  have hruleKeys : given.ruleConfigs.IsWellKeyed :=
    hpartKeys (.text "rule_configs", given.ruleConfigs) (by simp [entries])
  have hgivenValid := hvalid.of_same hsameGiven hruleKeys
  have hloadedValid := hgivenValid.overDefaults hdefault hruleKeys
  have hloadedEnabled : given.overDefaults.enabledRules ≠ .null := by
    intro hnull
    have hsameNull : Value.null.Same c.enabledRules := hnull ▸ hsameGiven.enabledRules
    exact henabled hsameNull.eq_null
  exact ⟨given.overDefaults,
    ofValue_eq_pure (isKnownKey_of_same hsame) (merged_of_isGivenIn hgiven hgivenValid)
      hloadedValid hloadedEnabled path,
    hsameGiven.overDefaults hgivenValid hseverityKeys hruleKeys⟩

end Config

end StrictEquality
