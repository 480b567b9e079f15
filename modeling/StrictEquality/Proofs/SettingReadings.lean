import StrictEquality.Proofs.MergePrecedence
import StrictEquality.Proofs.UnknownKeys

/-!
# Values read as settings

The settings of a rule are merged before they are checked to be a mapping, and the merge
takes more than mappings: what does not count as set gives no settings, and a sequence of
pairs gives the settings that the pairs are entries of. Other values end the merge in a
fault. So what the check gets to see is always a mapping, and a document with pairs for
settings is read as if it had the mapping.

## Main definitions

- `Value.ReadsAsEntry`, `Value.ReadsAsSettings` — what a value is read as
- `Config.ReadsAsMappings` — settings by rule, each with the mapping it is read as

Main statement: `Config.ofDocument_of_settings`.
-/

namespace StrictEquality

theorem Fault.mapM_eq_ok_iff {α β : Type} {f : α → Except Fault β} {xs : List α} {ys : List β} :
    xs.mapM f = .ok ys ↔ List.Forall₂ (fun x y => f x = .ok y) xs ys := by
  induction xs generalizing ys with
  | nil =>
    constructor
    · intro h
      obtain rfl := Except.ok.inj h
      exact .nil
    · intro h
      cases h with
      | nil => rfl
  | cons x rest ih =>
    rw [List.mapM_cons, Fault.bind_eq_ok]
    constructor
    · rintro ⟨y, hy, h⟩
      obtain ⟨others, hothers, h⟩ := Fault.bind_eq_ok.mp h
      obtain rfl := Except.ok.inj h
      exact .cons hy (ih.mp hothers)
    · intro h
      cases h with
      | cons hy hothers => exact ⟨_, hy, Fault.bind_eq_ok.mpr ⟨_, ih.mpr hothers, rfl⟩⟩

theorem Entries.keys_insert_of_isSome {entries : Entries} {key v : Value}
    (h : (entries.find? key).isSome) :
    (entries.insert key v).map Prod.fst = entries.map Prod.fst := by
  induction entries with
  | nil => cases h
  | cons e rest ih =>
    rw [find?_cons] at h
    rw [insert]
    by_cases hsame : e.1.sameKey key = true
    · rw [if_pos hsame]
      rfl
    · rw [if_neg hsame] at h ⊢
      rw [List.map_cons, List.map_cons, ih h]

namespace Value

/-- A value with two elements, the first of which may be a key, is read as an entry. -/
def ReadsAsEntry (v : Value) (e : Value × Value) : Prop :=
  v.elements? = .ok [e.1, e.2] ∧ e.1.isKey = true

/-- What a value is read as where settings are expected: a value that does not count as
set is read as no settings, a mapping as it is, and any other value as the entries that its
elements are. -/
inductive ReadsAsSettings : Value → Entries → Prop
  | unset {v : Value} (h : v.truthy = false) : ReadsAsSettings v []
  | map (settings : Entries) : ReadsAsSettings (.map settings) settings
  | pairs {v : Value} {items : List Value} {pairs : List (Value × Value)}
      (hset : v.truthy = true) (hmap : ∀ settings, v ≠ .map settings)
      (hitems : v.elements? = .ok items) (hpairs : List.Forall₂ ReadsAsEntry items pairs) :
      ReadsAsSettings v (Entries.ofPairs pairs)

theorem entry?_eq_ok_iff {v : Value} {e : Value × Value} : v.entry? = .ok e ↔ v.ReadsAsEntry e := by
  obtain ⟨key, value⟩ := e
  unfold entry?
  rw [Fault.bind_eq_ok, ReadsAsEntry]
  constructor
  · rintro ⟨items, hitems, h⟩
    split at h
    · next k x =>
      obtain ⟨k', hkey, h⟩ := Fault.bind_eq_ok.mp h
      obtain ⟨rfl, rfl⟩ := Prod.mk.inj (Except.ok.inj h)
      unfold Entries.key? at hkey
      split at hkey
      · next hisKey =>
        obtain rfl := Except.ok.inj hkey
        exact ⟨hitems, hisKey⟩
      · cases hkey
    · cases h
  · rintro ⟨hitems, hkey⟩
    exact ⟨_, hitems, by simp [Entries.key?, hkey]⟩

theorem entries?_eq_ok_iff {v : Value} {entries : Entries} (hmap : ∀ settings, v ≠ .map settings) :
    v.entries? = .ok entries ↔ ∃ items pairs, v.elements? = .ok items ∧
      List.Forall₂ ReadsAsEntry items pairs ∧ entries = Entries.ofPairs pairs := by
  have hread : v.entries? = (do return Entries.ofPairs (← (← v.elements?).mapM entry?)) := by
    cases v with
    | map settings => exact absurd rfl (hmap settings)
    | _ => rfl
  simp only [hread, Fault.bind_eq_ok, Fault.mapM_eq_ok_iff, entry?_eq_ok_iff]
  constructor
  · rintro ⟨items, hitems, pairs, hpairs, h⟩
    exact ⟨items, pairs, hitems, hpairs, (Except.ok.inj h).symm⟩
  · rintro ⟨items, pairs, hitems, hpairs, rfl⟩
    exact ⟨items, hitems, pairs, hpairs, rfl⟩

end Value

namespace Config

open LooseComparison Entries Value

variable {policies : Policies} {path : String} {file given : Entries}

/-- The merge takes the settings that a value is read as. -/
theorem givenSettings_eq_ok_iff {v : Value} {settings : Entries} :
    givenSettings v = .ok settings ↔ v.ReadsAsSettings settings := by
  constructor
  · intro h
    unfold givenSettings at h
    split at h
    · next hset =>
      by_cases hmap : ∃ entries, v = .map entries
      · obtain ⟨entries, rfl⟩ := hmap
        obtain rfl := Except.ok.inj h
        exact .map entries
      · have hother : ∀ entries, v ≠ .map entries := fun entries hv => hmap ⟨entries, hv⟩
        obtain ⟨items, pairs, hitems, hpairs, rfl⟩ := (entries?_eq_ok_iff hother).mp h
        exact .pairs hset hother hitems hpairs
    · next hunset =>
      obtain rfl := Except.ok.inj h
      exact .unset (Bool.not_eq_true _ ▸ hunset)
  · intro h
    cases h with
    | unset hunset =>
      rw [givenSettings, hunset]
      rfl
    | map settings => exact givenSettings_map settings
    | pairs hset hmap hitems hpairs =>
      rw [givenSettings, if_pos hset]
      exact (entries?_eq_ok_iff hmap).mpr ⟨_, _, hitems, hpairs, rfl⟩

/-- Settings by rule, and the same with the mapping that the settings of each rule are read
as. -/
def ReadsAsMappings (given mappings : Entries) : Prop :=
  List.Forall₂ (fun e e' => e'.1 = e.1 ∧
    ∃ settings, e.2.ReadsAsSettings settings ∧ e'.2 = .map settings) given mappings

theorem exists_readsAsMappings (h : ∀ e ∈ given, ∃ settings, e.2.ReadsAsSettings settings) :
    ∃ mappings, ReadsAsMappings given mappings := by
  induction given with
  | nil => exact ⟨[], .nil⟩
  | cons e rest ih =>
    obtain ⟨⟨settings, hreads⟩, hrest⟩ := List.forall_mem_cons.mp h
    obtain ⟨mappings, hmappings⟩ := ih hrest
    exact ⟨(e.1, .map settings) :: mappings, .cons ⟨rfl, settings, hreads, rfl⟩ hmappings⟩

/-- Values that are read as the same settings are added alike. -/
theorem addSettings_of_reads (acc : Entries) {e e' : Value × Value} {settings : Entries}
    (hkey : e'.1 = e.1) (hreads : e.2.ReadsAsSettings settings) (hmap : e'.2 = .map settings) :
    addSettings acc e = addSettings acc e' := by
  rw [addSettings, addSettings, givenSettings_eq_ok_iff.mpr hreads, hmap, givenSettings_map, hkey]

theorem foldlM_addSettings_of_reads {mappings : Entries} (h : ReadsAsMappings given mappings)
    (acc : Entries) : given.foldlM addSettings acc = mappings.foldlM addSettings acc := by
  induction h generalizing acc with
  | nil => rfl
  | cons hfirst _ ih =>
    obtain ⟨hkey, settings, hreads, hmap⟩ := hfirst
    rw [List.foldlM_cons, List.foldlM_cons, addSettings_of_reads acc hkey hreads hmap]
    exact congrArg _ (funext ih)

/-- What has been merged without a fault could be read. -/
theorem exists_reads_of_foldlM {acc acc' : Entries}
    (h : given.foldlM addSettings acc = .ok acc') :
    ∀ e ∈ given, ∃ settings, e.2.ReadsAsSettings settings := by
  induction given generalizing acc with
  | nil =>
    intro e he
    cases he
  | cons first rest ih =>
    rw [List.foldlM_cons] at h
    obtain ⟨next, hfirst, hrest⟩ := Fault.bind_eq_ok.mp h
    obtain ⟨settings, hsettings, -⟩ := Fault.bind_eq_ok.mp hfirst
    exact List.forall_mem_cons.mpr ⟨⟨settings, givenSettings_eq_ok_iff.mp hsettings⟩, ih hrest⟩

/-- The merge leaves mappings only. -/
theorem exists_map_of_foldlM {acc acc' : Entries}
    (hacc : ∀ e ∈ acc, ∃ settings, e.2 = .map settings)
    (h : given.foldlM addSettings acc = .ok acc') :
    ∀ e ∈ acc', ∃ settings, e.2 = .map settings := by
  induction given generalizing acc with
  | nil =>
    obtain rfl := Except.ok.inj h
    exact hacc
  | cons first rest ih =>
    rw [List.foldlM_cons] at h
    obtain ⟨next, hfirst, hrest⟩ := Fault.bind_eq_ok.mp h
    obtain ⟨present, settings, rfl, -⟩ := exists_merge_of_addSettings hfirst
    refine ih ?_ hrest
    intro e he
    rcases mem_insert he with hold | ⟨hvalue, -⟩
    · exact hacc e hold
    · exact ⟨_, hvalue⟩

/-- The check that settings are mappings never fails. -/
theorem exists_outcome_validRuleConfigs {merged : Entries}
    (h : mergedRuleConfigs file = .ok (.map merged)) :
    ∃ valid, (validRuleConfigs policies path merged).outcome = .ok valid := by
  have hdefault : ∀ e ∈ defaultRuleConfigs, ∃ settings, e.2 = .map settings := by
    simp [defaultRuleConfigs]
  refine ⟨_, outcome_validRuleConfigs ?_⟩
  unfold mergedRuleConfigs at h
  split at h
  · next given _ =>
    cases hfold : given.foldlM addSettings defaultRuleConfigs with
    | error fault =>
      rw [hfold] at h
      cases h
    | ok acc =>
      rw [hfold] at h
      obtain rfl := Value.map.inj (Except.ok.inj h)
      exact exists_map_of_foldlM hdefault hfold
  · next v hother _ => exact absurd (Except.ok.inj h) (hother merged)
  · obtain rfl := Value.map.inj (Except.ok.inj h)
    exact hdefault

/-- What is loaded, and what is logged, depends on the keys and on what is merged. -/
theorem ofDocument_congr {full : Entries} (hkeys : full.map Prod.fst = file.map Prod.fst)
    (hmerged : merged full = merged file) :
    ofDocument policies path (.ok (.map full)) = ofDocument policies path (.ok (.map file)) := by
  have hunknown : ∀ entries : Entries,
      (entries.filter (fun e => !isKnownKey e.1)).map Prod.fst =
        (entries.map Prod.fst).filter (fun key => !isKnownKey key) := by
    intro entries
    rw [List.filter_map]
    rfl
  have hfiltered : ∀ entries : Entries,
      merged (entries.filter (fun e => isKnownKey e.1)) = merged entries :=
    fun entries => merged_congr fun name hname => find?_filter_isKnownKey hname
  rw [ofDocument_ok, ofDocument_ok, ofValue_map, ofValue_map]
  simp only [knownEntries, hunknown, hkeys]
  split
  · rw [Report.pure_bind, Report.pure_bind, hmerged]
  · cases ((file.map Prod.fst).filter (fun key => !isKnownKey key)).mapM keyName with
    | error fault => rfl
    | ok names =>
      -- the keys are listed, and then it is the entries that are left which count
      have hnoted : ∀ (event : Event) (known : Entries) (next : Entries → Report Config),
          ((do Report.note event; return known) >>= next) =
            { log := event :: (next known).log, outcome := (next known).outcome } :=
        fun _ _ _ => rfl
      rw [Report.ofExcept_ok, Report.pure_bind, Report.pure_bind, hnoted, hnoted, hfiltered,
        hfiltered, hmerged]

/-- Settings by rule that are read as mappings are merged as the mappings. -/
theorem merged_insert_of_reads {mappings : Entries}
    (hgiven : file.find? (.text "rule_configs") = some (.map given))
    (hreads : ReadsAsMappings given mappings) :
    merged (file.insert (.text "rule_configs") (.map mappings)) = merged file := by
  have hother : ∀ name ≠ "rule_configs",
      (file.insert (.text "rule_configs") (.map mappings)).find? (.text name) =
        file.find? (.text name) :=
    fun name hname => find?_insert_text_other fun htext => hname (Value.text.inj htext)
  have hruleConfigs : mergedRuleConfigs (file.insert (.text "rule_configs") (.map mappings)) =
      mergedRuleConfigs file := by
    rw [mergedRuleConfigs, mergedRuleConfigs, find?_insert_text, hgiven]
    dsimp only
    rw [foldlM_addSettings_of_reads hreads]
  rw [merged, merged, hruleConfigs, partOr, partOr, partOr, partOr, mergedSeverities,
    mergedSeverities, hother _ (by decide), hother _ (by decide), hother _ (by decide)]

/-- A fault of a document is reported, and the default configuration takes its place. -/
theorem ofDocument_of_error {v : Value} {fault : Fault}
    (h : (ofValue policies path v).outcome = .error fault) :
    ofDocument policies path (.ok v) =
      { log := (ofValue policies path v).log ++ [.loadFailed path fault],
        outcome := .ok default } := by
  have hexpected := ofValue_failsAsExpected policies path v fault h
  rw [ofDocument_ok, orDefault, h]
  simp only [hexpected, if_true]

theorem exists_reads_of_merged {c : Config}
    (hgiven : file.find? (.text "rule_configs") = some (.map given)) (h : merged file = .ok c) :
    ∀ e ∈ given, ∃ settings, e.2.ReadsAsSettings settings := by
  obtain ⟨ruleConfigs, hruleConfigs, -⟩ := Fault.bind_eq_ok.mp h
  rw [mergedRuleConfigs, hgiven] at hruleConfigs
  cases hfold : given.foldlM addSettings defaultRuleConfigs with
  | ok acc => exact exists_reads_of_foldlM hfold
  | error fault =>
    simp only [hfold] at hruleConfigs
    cases hruleConfigs

/-- Settings that cannot be read end in a fault. -/
theorem exists_fault_of_not_reads
    (hgiven : file.find? (.text "rule_configs") = some (.map given))
    (hno : ∃ e ∈ given, ∀ settings, ¬ e.2.ReadsAsSettings settings) :
    ∃ fault, (ofValue policies path (.map file)).outcome = .error fault := by
  by_cases htexts : file.HasTextKeys
  · rw [outcome_ofValue_of_hasTextKeys htexts]
    cases hmerged : merged file with
    | error fault => exact ⟨fault, rfl⟩
    | ok c =>
      obtain ⟨e, he, hno⟩ := hno
      obtain ⟨settings, hreads⟩ := exists_reads_of_merged hgiven hmerged e he
      exact absurd hreads (hno settings)
  · -- the document is given up before its settings are looked at
    rw [ofValue_of_not_hasTextKeys htexts]
    exact ⟨_, rfl⟩

/-- **The settings of a rule are refused if they cannot be read, not if they are no
mapping.** A document with settings that cannot be read is reported and leads to the default
configuration. If all settings can be read, it leads to what it would lead to with the
mappings that they are read as, and the same is logged. The check that settings are mappings
never fails. -/
theorem ofDocument_of_settings (policies : Policies) (path : String) {file given : Entries}
    (hgiven : file.find? (.text "rule_configs") = some (.map given)) :
    let loaded (entries : Entries) := ofDocument policies path (.ok (.map entries))
    ((∃ e ∈ given, ∀ settings, ¬ e.2.ReadsAsSettings settings) →
      ∃ log fault, loaded file =
        { log := log ++ [.loadFailed path fault], outcome := .ok default }) ∧
    ((∀ e ∈ given, ∃ settings, e.2.ReadsAsSettings settings) →
      ∃ mappings, ReadsAsMappings given mappings ∧
        loaded file = loaded (file.insert (.text "rule_configs") (.map mappings))) ∧
    (∀ ruleConfigs, mergedRuleConfigs file = .ok (.map ruleConfigs) →
      ∃ valid, (validRuleConfigs policies path ruleConfigs).outcome = .ok valid) ∧
    ∀ yaml files directory, Holds yaml files directory path (.map file) →
      load yaml policies files directory path = loaded file := by
  intro loaded
  refine ⟨?_, ?_, fun _ => exists_outcome_validRuleConfigs, fun _ _ _ => load_of_holds⟩
  · intro hno
    obtain ⟨fault, hfault⟩ := exists_fault_of_not_reads hgiven hno
    exact ⟨_, fault, ofDocument_of_error hfault⟩
  · intro hreads
    obtain ⟨mappings, hmappings⟩ := exists_readsAsMappings hreads
    have hpresent : (file.find? (.text "rule_configs")).isSome := by
      rw [hgiven]
      rfl
    exact ⟨mappings, hmappings, (ofDocument_congr (keys_insert_of_isSome hpresent)
      (merged_insert_of_reads hgiven hmappings)).symm⟩

/-- A pair of texts is read as a setting. -/
theorem reads_pair (name value : String) :
    (Value.list [.list [.text name, .text value]]).ReadsAsSettings
      (Entries.ofPairs [(.text name, .text value)]) := by
  refine .pairs rfl (fun _ h => Value.noConfusion h) rfl ?_
  exact .cons ⟨rfl, rfl⟩ .nil

/-- A number in the place of settings is refused, and a list with a pair is taken. -/
theorem ofDocument_of_settings_number :
    let number : Entries := [(.text ruleId, .int 5)]
    let pair : Entries := [(.text ruleId, .list [.list [.text "policy", .text "conservative"]])]
    let file (given : Entries) : Entries := [(.text "rule_configs", .map given)]
    let loaded (given : Entries) := ofDocument .builtin "stricteq.yml" (.ok (.map (file given)))
    (∀ given, (file given).find? (.text "rule_configs") = some (.map given)) ∧
      (∃ e ∈ number, ∀ settings, ¬ e.2.ReadsAsSettings settings) ∧
      (∃ log fault, loaded number =
        { log := log ++ [.loadFailed "stricteq.yml" fault], outcome := .ok default }) ∧
      (∀ e ∈ pair, ∃ settings, e.2.ReadsAsSettings settings) ∧
      ∃ mappings, ReadsAsMappings pair mappings ∧ loaded pair = loaded mappings := by
  intro number pair file loaded
  have hgiven : ∀ given, (file given).find? (.text "rule_configs") = some (.map given) :=
    fun _ => rfl
  have hno : ∃ e ∈ number, ∀ settings, ¬ e.2.ReadsAsSettings settings := by
    refine ⟨_, List.mem_cons_self, ?_⟩
    intro settings hreads
    cases hreads with
    | unset hunset => cases hunset
    | pairs _ _ hitems _ => cases hitems
  have hreads : ∀ e ∈ pair, ∃ settings, e.2.ReadsAsSettings settings := by
    intro e he
    obtain rfl := List.mem_singleton.mp he
    exact ⟨_, reads_pair "policy" "conservative"⟩
  obtain ⟨hrefused, -⟩ := ofDocument_of_settings .builtin "stricteq.yml" (hgiven number)
  obtain ⟨-, htaken, -⟩ := ofDocument_of_settings .builtin "stricteq.yml" (hgiven pair)
  exact ⟨hgiven, hno, hrefused hno, hreads, htaken hreads⟩

/-- A list with a pair is neither a mapping nor null, and still nothing is reported and the
document is not given up: its limit and the policy of the pair are in what is loaded. -/
theorem ofDocument_pairSettings :
    let pair : Value := .list [.list [.text "policy", .text "conservative"]]
    let file : Entries := [(.text "max_findings_per_file", .int 5),
      (.text "rule_configs", .map [(.text ruleId, pair)])]
    let settings : Entries := [(.text "allow_annotated_types", .bool false),
      (.text "alter_code", .bool true), (.text "policy", .text "conservative")]
    let c : Config := { default with
      maxFindings := .int 5, ruleConfigs := .map [(.text ruleId, .map settings)] }
    (∀ entries, pair ≠ .map entries) ∧ pair ≠ .null ∧
      ofDocument .builtin "stricteq.yml" (.ok (.map file)) = pure c ∧ c ≠ default := by
  intro pair file settings c
  have hknown : ∀ e ∈ file, isKnownKey e.1 = true := by
    simp [file, isKnownKey, keys, Value.isText]
  have hmerged : merged file = .ok c := rfl
  have hvalid : c.IsValid .builtin :=
    isValid_of_singleton 5 rfl (by decide) rfl rfl
      (policySetting_of_find? rfl (.inr ⟨_, Policies.conservative_mem_names [], rfl⟩))
  have henabled : c.enabledRules ≠ .null := by
    simp [c, default, everyRule]
  refine ⟨fun _ h => Value.noConfusion h, Value.noConfusion, ?_, ?_⟩
  · rw [ofDocument_ok, ofValue_eq_pure hknown hmerged hvalid henabled]
    rfl
  · intro hsame
    simpa [c, default, defaultLimit] using congrArg Config.maxFindings hsame

end Config

end StrictEquality
