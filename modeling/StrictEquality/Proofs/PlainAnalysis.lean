import Mathlib.Tactic.Choose
import StrictEquality.Analysis

/-!
# Analysis without shortcuts

An analysis runs rule after rule, drops what is silenced, overrides severities and
stops at the limit of findings. The same findings come of running every rule first
and cutting at the very end, which is what `Job.plain` does.

## Main definitions

- `Config.IsRunnable` — the parts of a configuration have the forms that running rules
  needs
- `Visit.complete` — the findings of a rule, none if it gives up
- `Job.plain` — all findings, filtered and with their severities, without a limit

Main statement: `Job.run_eq_take_plain`.
-/

namespace StrictEquality

/-- Severities are a mapping, settings are a mapping of mappings, and the limit of
findings is a positive integer. -/
structure Config.IsRunnable (c : Config) (limit : Nat) : Prop where
  severities : ∃ entries, c.severities = .map entries
  ruleConfigs : ∃ entries, c.ruleConfigs = .map entries ∧
    ∀ e ∈ entries, ∃ settings, e.2 = .map settings
  maxFindings : c.maxFindings.integer? = some (limit : Int)
  one_le_limit : 1 ≤ limit

/-- The findings of a rule that comes to its end. One that gives up has none, whatever it
found before. -/
def Visit.complete (v : Visit) : List Finding :=
  match v.fault with
  | none => v.findings
  | some _ => []

namespace Job

/-- The findings of a rule that is run by itself, on the comparisons of the file and with
its own settings. -/
def findingsOf (job : Job) (config : Config) (policies : Policies) (rule : Rule) :
    Except Fault (List Finding) := do
  let settings ← config.settings rule.id
  return (rule.visit (job.context policies settings)).complete

/-- The findings of all rules, those that are silenced left out, with the severities
that are configured for them. -/
def plain (job : Job) (config : Config) (policies : Policies) (rules : List Rule) :
    Except Fault (List Finding) := do
  let found ← rules.mapM (job.findingsOf config policies)
  let left := Suppressions.filterFound Finding.rule Finding.start found.flatten job.text.toList
  left.mapM (fun f => do
    return { f with severity := ← config.severity f.rule f.severity })

end Job

namespace Config

variable {c : Config} {entries : Entries}

theorem settings_of_find? {settings : Entries} {rule : String} (h : c.ruleConfigs = .map entries)
    (hfind : entries.find? (.text rule) = some (.map settings)) :
    c.settings rule = .ok settings := by
  simp [Config.settings, h, Value.getD?, hfind, Value.entries?]

/-- A mapping of mappings has settings for each rule: those it maps the rule to, or
empty ones. -/
theorem exists_settings (h : c.ruleConfigs = .map entries)
    (hmaps : ∀ e ∈ entries, ∃ settings, e.2 = .map settings) (rule : String) :
    ∃ settings, c.settings rule = .ok settings ∧
      (settings = [] ∨ ∃ e ∈ entries, e.2 = .map settings) := by
  cases hfind : Entries.find? entries (.text rule) with
  | none =>
    refine ⟨[], ?_, .inl rfl⟩
    simp [settings, h, Value.getD?, hfind, Value.entries?]
  | some v =>
    obtain ⟨e, hfirst, rfl⟩ := Option.map_eq_some_iff.mp hfind
    have hmem : e ∈ entries := List.mem_of_find?_eq_some hfirst
    obtain ⟨found, hfound⟩ := hmaps e hmem
    rw [hfound] at hfind
    exact ⟨found, settings_of_find? h hfind, .inr ⟨e, hmem, hfound⟩⟩

theorem IsRunnable.exists_settings {limit : Nat} (h : c.IsRunnable limit) (rule : String) :
    ∃ settings, c.settings rule = .ok settings := by
  obtain ⟨entries, hentries, hmaps⟩ := h.ruleConfigs
  obtain ⟨settings, hsettings, -⟩ := Config.exists_settings hentries hmaps rule
  exact ⟨settings, hsettings⟩

end Config

namespace Job

variable {config : Config} {entries : Entries}

/-- A finding with the severity that a mapping has for its rule. -/
def overridden (entries : Entries) (f : Finding) : Finding :=
  { f with severity := (entries.find? (.text f.rule)).getD f.severity }

theorem withSeverity_of_map (h : config.severities = .map entries) (f : Finding) :
    withSeverity config f = .ok (overridden entries f) := by
  rw [withSeverity, h, overridden]
  cases hfind : Entries.find? entries (.text f.rule) with
  | none => simp [Value.contains?, hfind, pure, Except.pure]
  | some v => simp [Value.contains?, Value.at?, hfind, pure, Except.pure]

/-- What is reported of the findings of a rule, where severities are a mapping. -/
def reportedOf (entries : Entries) (suppressions : Suppressions) (findings : List Finding) :
    List Finding :=
  (findings.filter (fun f => !suppressions.covers f.rule f.start)).map (overridden entries)

theorem reportedOf_append (entries : Entries) (suppressions : Suppressions)
    (xs ys : List Finding) :
    reportedOf entries suppressions (xs ++ ys) =
      reportedOf entries suppressions xs ++ reportedOf entries suppressions ys := by
  simp [reportedOf]

theorem addFindings_of_map (h : config.severities = .map entries) (suppressions : Suppressions)
    (found findings : List Finding) :
    addFindings config suppressions found findings =
      .ok (found ++ reportedOf entries suppressions findings) := by
  induction findings generalizing found with
  | nil => simp [addFindings, reportedOf]
  | cons f rest ih =>
    rw [addFindings]
    by_cases hsilent : suppressions.covers f.rule f.start = true
    · rw [if_pos hsilent, ih]
      simp [reportedOf, hsilent]
    · rw [if_neg hsilent, withSeverity_of_map h, Fault.ok_bind, ih, List.append_assoc]
      simp [reportedOf, hsilent]

/-- The findings of all rules, each with its own settings. -/
def allFindings (job : Job) (policies : Policies) (settings : String → Entries)
    (rules : List Rule) : List Finding :=
  rules.flatMap fun rule => (rule.visit (job.context policies (settings rule.id))).complete

theorem allFindings_cons (job : Job) (policies : Policies) (settings : String → Entries)
    (rule : Rule) (rest : List Rule) :
    job.allFindings policies settings (rule :: rest) =
      (rule.visit (job.context policies (settings rule.id))).complete ++
        job.allFindings policies settings rest :=
  List.flatMap_cons

section Lists

/-! ### The list of comparisons to analyse -/

variable {job : Job} {lists : List (List Comparison)}

/-- A rule that is run on a copy is given the comparisons of the file. -/
theorem visit_visitCopy (h : lists.head? = some job.comparisons) (policies : Policies)
    (settings : Entries) (rule : Rule) :
    (job.visitCopy policies settings rule lists).2 = rule.visit (job.context policies settings) := by
  obtain ⟨rest, rfl⟩ := List.head?_eq_some_iff.mp h
  simp [visitCopy, visitAt, context]

/-- Whatever a rule does to its copy, the comparisons of the file stay as they are. -/
theorem head?_visitCopy (h : lists.head? = some job.comparisons) (policies : Policies)
    (settings : Entries) (rule : Rule) :
    (job.visitCopy policies settings rule lists).1.head? = some job.comparisons := by
  obtain ⟨rest, rfl⟩ := List.head?_eq_some_iff.mp h
  simp [visitCopy, visitAt]

end Lists

section Runs

variable {job : Job} {policies : Policies} {limit : Nat} {p : Progress} {rule : Rule}
  {settings : Entries}

theorem runFrom_cons_of_fault (suppressions : Suppressions)
    (hlists : p.lists.head? = some job.comparisons) (rest : List Rule) {fault : Fault}
    (hsettings : config.settings rule.id = .ok settings)
    (hvisit : (rule.visit (job.context policies settings)).fault = some fault) :
    ∃ lists : List (List Comparison), lists.head? = some job.comparisons ∧
      (job.runFrom config policies suppressions p (rule :: rest)).outcome =
        (job.runFrom config policies suppressions { p with lists } rest).outcome := by
  refine ⟨_, head?_visitCopy hlists policies settings rule, ?_⟩
  obtain ⟨given, hgiven, hentries⟩ := Fault.bind_eq_ok.mp hsettings
  simp only [runFrom, Report.outcome_bind, Report.outcome_ofExcept, hgiven, hentries,
    Fault.ok_bind, visit_visitCopy hlists, hvisit, Report.outcome_note]

/-- A rule that ends well adds what is reported of its findings, and the analysis ends
when that reaches the limit. -/
theorem runFrom_cons_of_complete (hseverities : config.severities = .map entries)
    (hlimit : config.maxFindings.integer? = some (limit : Int)) (suppressions : Suppressions)
    (hlists : p.lists.head? = some job.comparisons) (rest : List Rule)
    (hsettings : config.settings rule.id = .ok settings)
    (hvisit : (rule.visit (job.context policies settings)).fault = none) :
    let found := p.found ++
      reportedOf entries suppressions (rule.visit (job.context policies settings)).findings
    ∃ lists : List (List Comparison), lists.head? = some job.comparisons ∧
      (job.runFrom config policies suppressions p (rule :: rest)).outcome =
        if limit ≤ found.length then .ok { found := found.take limit, lists }
        else (job.runFrom config policies suppressions { found, lists } rest).outcome := by
  intro found
  refine ⟨_, head?_visitCopy hlists policies settings rule, ?_⟩
  obtain ⟨given, hgiven, hentries⟩ := Fault.bind_eq_ok.mp hsettings
  simp only [runFrom, Report.outcome_bind, Report.outcome_ofExcept, hgiven, hentries,
    Fault.ok_bind, visit_visitCopy hlists, hvisit, addFindings_of_map hseverities,
    Value.reachedBy_of_integer? hlimit, Int.ofNat_le, decide_eq_true_eq]
  split
  · rw [Report.outcome_bind, Report.outcome_ofExcept, Value.cut_of_integer? hlimit]
    rfl
  · rfl

end Runs

/-- The analysis from some findings on that do not reach the limit yet gives them and
those of the remaining rules, up to the limit. -/
theorem runFrom_eq (job : Job) (policies : Policies) {settings : String → Entries} {limit : Nat}
    (hseverities : config.severities = .map entries)
    (hsettings : ∀ id, config.settings id = .ok (settings id))
    (hlimit : config.maxFindings.integer? = some (limit : Int)) (suppressions : Suppressions)
    (rules : List Rule) {p : Progress} (hlists : p.lists.head? = some job.comparisons)
    (hfound : p.found.length < limit) :
    ∃ lists, (job.runFrom config policies suppressions p rules).outcome =
      .ok { found := (p.found ++ reportedOf entries suppressions
              (job.allFindings policies settings rules)).take limit
            lists } := by
  induction rules generalizing p with
  | nil =>
    have hnone : reportedOf entries suppressions (job.allFindings policies settings []) = [] := rfl
    rw [hnone, List.append_nil, List.take_of_length_le (Nat.le_of_lt hfound)]
    exact ⟨p.lists, rfl⟩
  | cons rule rest ih =>
    rw [allFindings_cons, reportedOf_append, ← List.append_assoc]
    cases hvisit : (rule.visit (job.context policies (settings rule.id))).fault with
    | some fault =>
      -- the limit is not looked at, but nothing was added either
      obtain ⟨lists, hlists, hrun⟩ := runFrom_cons_of_fault suppressions hlists rest
        (hsettings rule.id) hvisit
      have hnone : (rule.visit (job.context policies (settings rule.id))).complete = [] := by
        rw [Visit.complete, hvisit]
      rw [hrun, hnone]
      simpa [reportedOf] using ih (p := { p with lists }) hlists hfound
    | none =>
      obtain ⟨lists, hlists, hrun⟩ := runFrom_cons_of_complete hseverities hlimit suppressions
        hlists rest (hsettings rule.id) hvisit
      have hall : (rule.visit (job.context policies (settings rule.id))).complete =
          (rule.visit (job.context policies (settings rule.id))).findings := by
        rw [Visit.complete, hvisit]
      rw [hrun, hall]
      by_cases hfull : limit ≤ (p.found ++ reportedOf entries suppressions
          (rule.visit (job.context policies (settings rule.id))).findings).length
      · -- the loop stops here: what the other rules find lies behind the limit
        rw [if_pos hfull, List.take_append_of_le_length hfull]
        exact ⟨lists, rfl⟩
      · rw [if_neg hfull]
        exact ih hlists (Nat.lt_of_not_le hfull)

/-- The findings of an analysis are what is reported of the findings of all rules, up to
the limit. -/
theorem run_eq (job : Job) (policies : Policies) {settings : String → Entries} {limit : Nat}
    (hseverities : config.severities = .map entries)
    (hsettings : ∀ id, config.settings id = .ok (settings id))
    (hlimit : config.maxFindings.integer? = some (limit : Int)) (hpos : 1 ≤ limit)
    (rules : List Rule) :
    (job.run config policies rules).outcome =
      .ok ((reportedOf entries (.ofText job.text.toList)
        (job.allFindings policies settings rules)).take limit) := by
  let start : Progress := { found := [], lists := [job.comparisons] }
  have hempty : start.found.length < limit := hpos
  obtain ⟨lists, hrun⟩ := job.runFrom_eq policies hseverities hsettings hlimit
    (.ofText job.text.toList) rules (p := start) rfl hempty
  rw [run, Report.outcome_bind, hrun]
  rfl

/-- A file with four loose comparisons, the first of them silenced. -/
def silencedJob : Job where
  file := "test.php"
  text := "$a == $b; // stricteq: ignore[lang.*]\n$c <> $d;\n$e != $f;\n$g == $h;\n"
  comparisons :=
    [{ operator := "==", left := ⟨0, 2⟩, right := ⟨6, 8⟩, whole := ⟨0, 8⟩ },
      { operator := "<>", left := ⟨38, 40⟩, right := ⟨44, 46⟩, whole := ⟨38, 46⟩ },
      { operator := "!=", left := ⟨48, 50⟩, right := ⟨54, 56⟩, whole := ⟨48, 56⟩ },
      { operator := "==", left := ⟨58, 60⟩, right := ⟨64, 66⟩, whole := ⟨58, 66⟩ }]

end Job

end StrictEquality
