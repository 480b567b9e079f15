import StrictEquality.Config.Load

/-!
# Faults of reading configurations

Merging a document into the defaults and checking the result may fail in many places.
Each of these faults is one that the default configuration makes up for, so that a
document that can be read at all, or that cannot be read for an expected cause, always
leads to a configuration.

## Main definitions

- `FailsAsExpected` — a computation gives a result or an expected fault

Main statement: `Config.exists_ofDocument`.
-/

namespace StrictEquality

/-- A computation gives a result, or a fault that the default configuration makes up
for. -/
def FailsAsExpected {α : Type} (r : Except Fault α) : Prop :=
  ∀ fault, r = .error fault → Config.isExpected fault = true

namespace FailsAsExpected

variable {α β : Type}

theorem of_ok (a : α) : FailsAsExpected (.ok a : Except Fault α) := by
  intro fault h
  cases h

theorem of_error {fault : Fault} (h : Config.isExpected fault = true) :
    FailsAsExpected (.error fault : Except Fault α) := by
  intro fault' h'
  cases h'
  exact h

theorem bind {r : Except Fault α} {next : α → Except Fault β} (h : FailsAsExpected r)
    (hnext : ∀ a, FailsAsExpected (next a)) : FailsAsExpected (r >>= next) := by
  cases r with
  | ok a => exact hnext a
  | error fault => exact of_error (h fault rfl)

theorem map {r : Except Fault α} (f : α → β) (h : FailsAsExpected r) :
    FailsAsExpected (f <$> r) := by
  cases r with
  | ok a => exact of_ok (f a)
  | error fault => exact of_error (h fault rfl)

theorem mapM {f : α → Except Fault β} (h : ∀ a, FailsAsExpected (f a)) (xs : List α) :
    FailsAsExpected (xs.mapM f) := by
  induction xs with
  | nil => exact of_ok []
  | cons x rest ih =>
    rw [List.mapM_cons]
    exact (h x).bind fun b => ih.bind fun bs => of_ok (b :: bs)

theorem foldlM {f : β → α → Except Fault β} (h : ∀ b a, FailsAsExpected (f b a)) (xs : List α)
    (start : β) : FailsAsExpected (xs.foldlM f start) := by
  induction xs generalizing start with
  | nil => exact of_ok start
  | cons x rest ih =>
    rw [List.foldlM_cons]
    exact (h start x).bind fun b => ih b

/-- A report goes on as its outcome does. -/
theorem report_bind {r : Report α} {next : α → Report β} (h : FailsAsExpected r.outcome)
    (hnext : ∀ a, FailsAsExpected (next a).outcome) : FailsAsExpected (r >>= next).outcome := by
  rw [Report.outcome_bind]
  exact h.bind hnext

end FailsAsExpected

open FailsAsExpected

namespace Value

theorem elements?_failsAsExpected (v : Value) : FailsAsExpected v.elements? := by
  -- texts, bytes and collections have elements; asking any other value is a type fault
  cases v with
  | text s => exact of_ok _
  | bytes bs => exact of_ok _
  | list items => exact of_ok items
  | map entries => exact of_ok _
  | set items => exact of_ok items
  | _ => exact of_error rfl

theorem entry?_failsAsExpected (v : Value) : FailsAsExpected v.entry? := by
  refine (elements?_failsAsExpected v).bind ?_
  intro items
  split
  · next k x =>
    refine FailsAsExpected.bind ?_ fun key => of_ok (key, x)
    unfold Entries.key?
    split
    · exact of_ok k
    · exact of_error rfl
  · exact of_error rfl

theorem entries?_failsAsExpected (v : Value) : FailsAsExpected v.entries? := by
  unfold entries?
  split
  · exact of_ok _
  · exact (elements?_failsAsExpected _).bind fun items =>
      (mapM entry?_failsAsExpected items).bind fun pairs => of_ok _

end Value

namespace Config

theorem addSettings_failsAsExpected (acc : Entries) (e : Value × Value) :
    FailsAsExpected (addSettings acc e) := by
  refine FailsAsExpected.bind ?_ fun given => of_ok _
  unfold givenSettings
  split
  · exact Value.entries?_failsAsExpected e.2
  · exact of_ok []

theorem merged_failsAsExpected (file : Entries) : FailsAsExpected (merged file) := by
  refine FailsAsExpected.bind ?_ fun ruleConfigs => of_ok _
  unfold mergedRuleConfigs
  split
  · exact (foldlM addSettings_failsAsExpected _ _).map _
  · exact of_ok _
  · exact of_ok _

theorem mapping_failsAsExpected (subject : String) (v : Value) :
    FailsAsExpected (mapping subject v) := by
  unfold mapping
  split
  · exact of_ok _
  · exact of_error rfl

theorem knownEntries_failsAsExpected (path : String) (file : Entries) :
    FailsAsExpected (knownEntries path file).outcome := by
  simp only [knownEntries]
  split
  · exact of_ok file
  · refine report_bind (mapM ?_ _) fun names => of_ok _
    intro key
    unfold keyName
    split
    · exact of_ok _
    · exact of_error rfl

theorem validLimit_failsAsExpected (path : String) (v : Value) :
    FailsAsExpected (validLimit path v).outcome := by
  unfold validLimit
  split
  · exact of_ok v
  · exact of_ok _

theorem validSettings_failsAsExpected (policies : Policies) (path : String) (e : Value × Value) :
    FailsAsExpected (validSettings policies path e).outcome := by
  refine report_bind (mapping_failsAsExpected _ e.2) ?_
  intro settings
  split
  · exact of_ok e
  · exact of_ok _

theorem validRuleConfigs_failsAsExpected (policies : Policies) (path : String)
    (entries : Entries) : FailsAsExpected (validRuleConfigs policies path entries).outcome := by
  induction entries with
  | nil => exact of_ok []
  | cons e rest ih =>
    exact report_bind (validSettings_failsAsExpected policies path e) fun first =>
      report_bind ih fun others => of_ok _

theorem validated_failsAsExpected (policies : Policies) (path : String) (c : Config) :
    FailsAsExpected (validated policies path c).outcome :=
  report_bind (validLimit_failsAsExpected path c.maxFindings) fun _ =>
    report_bind (mapping_failsAsExpected _ c.severities) fun _ =>
      report_bind (mapping_failsAsExpected _ c.ruleConfigs) fun ruleConfigs =>
        report_bind (validRuleConfigs_failsAsExpected policies path ruleConfigs) fun _ => of_ok _

/-- Whatever a document holds, the faults on the way to its configuration are expected. -/
theorem ofValue_failsAsExpected (policies : Policies) (path : String) (v : Value) :
    FailsAsExpected (ofValue policies path v).outcome := by
  have htop : FailsAsExpected (topLevel v) := by
    unfold topLevel
    split
    · exact mapping_failsAsExpected _ v
    · exact of_ok []
  exact report_bind htop fun file =>
    report_bind (knownEntries_failsAsExpected path file) fun known =>
      report_bind (merged_failsAsExpected known) fun c =>
        report_bind (validated_failsAsExpected policies path c) fun valid => of_ok _

/-- Where only expected faults come up there is a configuration, the default one after a
fault. -/
theorem exists_orDefault (path : String) {r : Report Config} (h : FailsAsExpected r.outcome) :
    ∃ c, (orDefault path r).outcome = .ok c ∧
      ∀ fault, r.outcome = .error fault → c = default := by
  cases houtcome : r.outcome with
  | ok c =>
    refine ⟨c, ?_, ?_⟩
    · rw [orDefault, houtcome]
      exact houtcome
    · intro fault hfault
      cases hfault
  | error fault =>
    refine ⟨default, ?_, fun _ _ => rfl⟩
    rw [orDefault, houtcome]
    simp only [h fault houtcome, if_true]

/-- **A document leads to a configuration,** unless reading it fails for an unexpected
cause. One that cannot be read leads to the default configuration. -/
theorem exists_ofDocument (policies : Policies) (path : String) {doc : Except Fault Value}
    (h : FailsAsExpected doc) :
    ∃ c, (ofDocument policies path doc).outcome = .ok c ∧
      ∀ fault, doc = .error fault → c = default := by
  have hread : FailsAsExpected (do
      let v ← Report.ofExcept doc
      ofValue policies path v).outcome :=
    report_bind h fun v => ofValue_failsAsExpected policies path v
  obtain ⟨c, hc, hdefault⟩ := exists_orDefault path hread
  refine ⟨c, hc, ?_⟩
  rintro fault rfl
  exact hdefault fault rfl

end Config

end StrictEquality
