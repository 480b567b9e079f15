import StrictEquality.Proofs.ConfigValidity

/-!
# The choice of a policy

The rule of loose comparisons asks for a policy once for each file, before it looks at
any comparison. Where a policy can be looked up at all, one is found, if only the default
one, and from then on the rule comes to its end.

## Main definitions

- `LooseComparison.PolicyIsKey` — the policy setting may be looked up
- `LooseComparison.settingsWith` — the settings of the rule once a policy is chosen

Main statements: `LooseComparison.exists_choosePolicy`, `LooseComparison.outcome_visit`.
-/

namespace StrictEquality

namespace LooseComparison

/-- The policy setting, if there is one, is a text, a number, a boolean or null, so that a
policy can be looked up by it, if in vain. -/
def PolicyIsKey (settings : Entries) : Prop :=
  ∀ v, settings.find? (.text "policy") = some v → v.isKey = true

/-- The settings of the rule once a policy is chosen. -/
def settingsWith (policy : Policy) (settings : Entries) : Settings where
  policy := policy
  alterCode := flag settings "alter_code" true
  allowAnnotated := flag settings "allow_annotated_types" false

variable {policies : Policies} {settings : Entries} {policy : Policy}

theorem policyIsKey_of_policySetting (h : PolicySetting policies settings) :
    PolicyIsKey settings := by
  intro v hfind
  rcases h v hfind with rfl | ⟨name, -, rfl⟩
  · rfl
  · rfl

/-- A look-up by a key finds a policy, or says that there is none. -/
theorem get_of_isKey (policies : Policies) {v : Value} (h : v.isKey = true) :
    (∃ policy, policies.get v = .ok policy) ∨
      ∃ name, policies.get v = .error (.unknownPolicy name policies.names) := by
  have hnamed : ∀ name, (∃ policy, policies.named name = .ok policy) ∨
      policies.named name = .error (.unknownPolicy name policies.names) := by
    intro name
    cases hfind : policies.find? name with
    | none => exact .inr (by rw [Policies.named, hfind])
    | some policy => exact .inl ⟨policy, Policies.named_of_find? hfind⟩
  cases v with
  | text name => exact (hnamed name).imp_right fun hmissing => ⟨name, hmissing⟩
  | list items => cases h
  | map entries => cases h
  | set items => cases h
  | _ => exact .inr ⟨_, rfl⟩

/-- A policy is chosen, if only the default one. -/
theorem exists_choosePolicy (h : PolicyIsKey settings)
    (hdefault : Policy.defaultName ∈ policies.names) (file : String) :
    ∃ policy, (choosePolicy policies settings file).outcome = .ok policy := by
  obtain ⟨fallback, hfallback⟩ := Policies.exists_find?_of_mem_names hdefault
  have hkey : ((settings.find? (.text "policy")).getD (.text Policy.defaultName)).isKey = true := by
    cases hfind : settings.find? (.text "policy") with
    | none => rfl
    | some v => exact h v hfind
  rcases get_of_isKey policies hkey with ⟨policy, hget⟩ | ⟨name, hget⟩
  · exact ⟨policy, by rw [choosePolicy, hget]; rfl⟩
  · -- a policy that is missing is worth a warning, which does not end the run
    refine ⟨fallback, ?_⟩
    rw [choosePolicy, hget]
    simp [Policies.named_of_find? hfallback]

theorem outcome_choosePolicy_of_text {name : String}
    (hsetting : settings.find? (.text "policy") = some (.text name))
    (h : policies.find? name = some policy) (file : String) :
    (choosePolicy policies settings file).outcome = .ok policy := by
  simp [choosePolicy, hsetting, Policies.get, Policies.named_of_find? h]

/-- Null names no policy, and then the default one is chosen. -/
theorem outcome_choosePolicy_of_null (hsetting : settings.find? (.text "policy") = some .null)
    (h : policies.find? Policy.defaultName = some policy) (file : String) :
    (choosePolicy policies settings file).outcome = .ok policy := by
  simp [choosePolicy, hsetting, Policies.get, Value.isKey, Policies.named_of_find? h]

variable {ctx : RuleContext}

theorem outcome_readSettings
    (h : (choosePolicy ctx.policies ctx.settings ctx.file).outcome = .ok policy) :
    (readSettings ctx).outcome = .ok (settingsWith policy ctx.settings) := by
  rw [readSettings, Report.outcome_bind, h]
  rfl

/-- Once a policy is chosen, the rule reports every loose comparison. -/
theorem outcome_visit
    (h : (choosePolicy ctx.policies ctx.settings ctx.file).outcome = .ok policy) :
    (visit ctx).outcome = .ok ((ctx.comparisons.filter isReported).map
      (finding (settingsWith policy ctx.settings) ctx.file)) := by
  simp [visit, outcome_readSettings h, Visit.outcome]

theorem complete_visit
    (h : (choosePolicy ctx.policies ctx.settings ctx.file).outcome = .ok policy) :
    (visit ctx).complete = (ctx.comparisons.filter isReported).map
      (finding (settingsWith policy ctx.settings) ctx.file) := by
  simp [visit, outcome_readSettings h, Visit.complete]

end LooseComparison

end StrictEquality
