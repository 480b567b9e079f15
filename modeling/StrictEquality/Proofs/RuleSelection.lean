import StrictEquality.Proofs.ConfigValidity
import StrictEquality.Proofs.RuleDiscovery

/-!
# Selection of rules by loaded configurations

Validation does not look at the patterns of a configuration, so that a document may put
any value there. Such a configuration is accepted, and running rules with it is safe, but
selecting rules ends in a fault where the patterns cannot be read. This is the only way in
which a loaded configuration makes an analysis fail.

## Main definitions

- `Value.enables`, `Value.selects` — a pattern, or a value read as patterns, matches an
  identifier
- `Value.ReadsFor` — a value can be read as patterns for an identifier
- `Config.withPatterns` — the default configuration with other patterns

Main statement: `Registry.analyze_eq_ok_iff`.
-/

namespace StrictEquality

namespace Value

/-- Whether a value is a pattern that matches an identifier. -/
def enables (id : String) : Value → Bool
  | text p => globMatches p id
  | _ => false

/-- Whether a value, read as patterns, has one that matches an identifier. -/
def selects (patterns : Value) (id : String) : Bool :=
  match patterns.elements? with
  | .ok items => items.any (enables id)
  | .error _ => false

/-- The patterns before the first one that matches an identifier are texts. -/
def TextsFor (id : String) (items : List Value) : Prop :=
  ∀ v ∈ items.takeWhile (fun v => !v.enables id), ∃ p, v = .text p

/-- A value can be read as patterns for an identifier: it has elements, and what is before
the first match is text. -/
def ReadsFor (patterns : Value) (id : String) : Prop :=
  ∃ items, patterns.elements? = .ok items ∧ TextsFor id items

variable {id : String} {v : Value} {rest : List Value}

theorem textsFor_cons_of_enables (h : v.enables id = true) : TextsFor id (v :: rest) := by
  intro w hw
  rw [List.takeWhile_cons_of_neg (by simp [h])] at hw
  cases hw

theorem textsFor_cons_of_not_enables (h : v.enables id = false) :
    TextsFor id (v :: rest) ↔ (∃ p, v = .text p) ∧ TextsFor id rest := by
  unfold TextsFor
  rw [List.takeWhile_cons_of_pos (by simp [h]), List.forall_mem_cons]

end Value

open Value

namespace Registry

/-- An identifier is looked up in patterns without a fault if those that are looked at are
texts, and then the result is whether one of them matches. -/
theorem isEnabled_eq_ok_iff {id : String} {items : List Value} {b : Bool} :
    isEnabled id items = .ok b ↔ TextsFor id items ∧ b = items.any (enables id) := by
  induction items with
  | nil => simp [isEnabled, TextsFor, eq_comm]
  | cons v rest ih =>
    cases v with
    | text p =>
      by_cases hmatch : globMatches p id = true
      · -- the rest is not looked at
        have htexts : TextsFor id (.text p :: rest) := textsFor_cons_of_enables hmatch
        simp [isEnabled, enables, hmatch, htexts, eq_comm]
      · have hnone : (Value.text p).enables id = false := Bool.not_eq_true _ ▸ hmatch
        rw [textsFor_cons_of_not_enables hnone, List.any_cons, hnone, Bool.false_or, isEnabled,
          if_neg hmatch, ih]
        simp
    | _ =>
      rw [textsFor_cons_of_not_enables rfl]
      simp [isEnabled]

/-- Rules are selected without a fault if the patterns can be read for each of them, and
then those that the patterns match are taken. -/
theorem select_eq_ok_iff {patterns : Value} {rules chosen : List Rule} :
    select patterns rules = .ok chosen ↔
      (∀ rule ∈ rules, patterns.ReadsFor rule.id) ∧
        chosen = rules.filter (fun rule => patterns.selects rule.id) := by
  induction rules generalizing chosen with
  | nil => simp [select, eq_comm]
  | cons rule rest ih =>
    rw [List.forall_mem_cons, select]
    cases hitems : patterns.elements? with
    | error fault => simp [ReadsFor, hitems]
    | ok items =>
      have hreads : patterns.ReadsFor rule.id ↔ TextsFor rule.id items := by
        simp [ReadsFor, hitems]
      have hselects : patterns.selects rule.id = items.any (enables rule.id) := by
        simp [selects, hitems]
      rw [List.filter_cons, hselects, hreads, Fault.ok_bind]
      constructor
      · intro h
        obtain ⟨b, hb, h⟩ := Fault.bind_eq_ok.mp h
        obtain ⟨others, hothers, h⟩ := Fault.bind_eq_ok.mp h
        obtain ⟨htexts, rfl⟩ := isEnabled_eq_ok_iff.mp hb
        obtain ⟨hrest, rfl⟩ := ih.mp hothers
        exact ⟨⟨htexts, hrest⟩, (Except.ok.inj h).symm⟩
      · rintro ⟨⟨htexts, hrest⟩, rfl⟩
        rw [isEnabled_eq_ok_iff.mpr ⟨htexts, rfl⟩, ih.mpr ⟨hrest, rfl⟩]
        rfl

/-- The search of the rule packages there are comes to its end. -/
theorem exists_outcome_search (r : Registry) :
    ∃ n, (r.search Catalog.builtin []).2.outcome = .ok n := by
  have hend : (Catalog.builtin.survey Catalog.defaultPackages).fault = none := by cbv
  exact ⟨_, outcome_discover_eq_ok_iff.mpr ⟨hend, rfl⟩⟩

theorem outcome_load (r : Registry) (catalog : Catalog) (config : Config)
    (language : Option String) (packages : List String) :
    (r.load catalog config language packages).2.outcome =
      (r.search catalog packages).2.outcome >>= fun _ =>
        select config.enabledRules ((r.search catalog packages).1.candidates language) :=
  Report.outcome_bind _ _

theorem outcome_analyze (r : Registry) (catalog : Catalog) (job : Job) (config : Config)
    (policies : Policies) :
    (r.analyze catalog job config policies).2.outcome =
      (r.load catalog config (some job.language) []).2.outcome >>= fun rules =>
        (job.run config policies rules).outcome :=
  Report.outcome_bind _ _

/-- The rules that a configuration enables are loaded if its patterns can be read for each
rule there is to choose from. -/
theorem load_eq_ok_iff {r : Registry} {config : Config} {language : Option String}
    {chosen : List Rule} :
    (r.load Catalog.builtin config language []).2.outcome = .ok chosen ↔
      (∀ rule ∈ (r.search Catalog.builtin []).1.candidates language,
        config.enabledRules.ReadsFor rule.id) ∧
        chosen = ((r.search Catalog.builtin []).1.candidates language).filter
          (fun rule => config.enabledRules.selects rule.id) := by
  obtain ⟨n, hn⟩ := r.exists_outcome_search
  rw [outcome_load, hn, Fault.ok_bind]
  exact select_eq_ok_iff

end Registry

namespace Config

/-- Rules can be run with a valid configuration, whatever rules they are. -/
theorem IsValid.exists_outcome_run {loaded : Policies} {c : Config} (h : c.IsValid loaded)
    (job : Job) (policies : Policies) (rules : List Rule) :
    ∃ findings, (job.run c policies rules).outcome = .ok findings := by
  obtain ⟨limit, -, hrunnable⟩ := h.isRunnable
  obtain ⟨entries, hseverities⟩ := hrunnable.severities
  choose settings hsettings using hrunnable.exists_settings
  exact ⟨_, job.run_eq policies hseverities hsettings hrunnable.maxFindings
    hrunnable.one_le_limit rules⟩

end Config

namespace Registry

/-- **The patterns of a loaded configuration are the only part that can make an analysis
fail.** Rules are loaded, and a file is analysed, exactly if the patterns can be read for
each rule there is to choose from. Running the rules gives findings in any case. -/
theorem analyze_eq_ok_iff (registered : List Policy) {config : Config}
    (h : Config.Loaded (Policies.builtin.registerAll registered) config) (r : Registry) :
    let candidates := (r.search Catalog.builtin []).1.candidates
    (∀ language chosen, (r.load Catalog.builtin config language []).2.outcome = .ok chosen ↔
      (∀ rule ∈ candidates language, config.enabledRules.ReadsFor rule.id) ∧
        chosen = (candidates language).filter
          (fun rule => config.enabledRules.selects rule.id)) ∧
      ∀ (job : Job) (policies : Policies),
        (∀ rules, ∃ findings, (job.run config policies rules).outcome = .ok findings) ∧
        ((∃ findings, (r.analyze Catalog.builtin job config policies).2.outcome = .ok findings) ↔
          ∀ rule ∈ candidates (some job.language), config.enabledRules.ReadsFor rule.id) := by
  intro candidates
  have hvalid := h.isValid (Policies.defaultName_mem_names registered)
  refine ⟨fun language chosen => load_eq_ok_iff, ?_⟩
  intro job policies
  refine ⟨hvalid.exists_outcome_run job policies, ?_⟩
  rw [outcome_analyze]
  constructor
  · rintro ⟨findings, hfindings⟩
    obtain ⟨chosen, hchosen, -⟩ := Fault.bind_eq_ok.mp hfindings
    exact (load_eq_ok_iff.mp hchosen).1
  · intro hreads
    -- once rules are selected, running them cannot fail
    have hchosen := load_eq_ok_iff.mpr ⟨hreads, rfl⟩
    obtain ⟨findings, hfindings⟩ := hvalid.exists_outcome_run job policies _
    exact ⟨findings, Fault.bind_eq_ok.mpr ⟨_, hchosen, hfindings⟩⟩

end Registry

namespace Config

/-- The default configuration with other patterns. -/
def withPatterns (patterns : Value) : Config :=
  { default with enabledRules := patterns }

/-- A document that only gives patterns is accepted as it is, whatever the patterns are. -/
theorem withPatterns_loaded {policies : Policies} {patterns : Value}
    (hdefault : Policy.defaultName ∈ policies.names) (h : patterns ≠ .null) :
    Loaded policies (withPatterns patterns) := by
  have hvalid := default_isValid hdefault
  refine loaded_of_merged [(.text "enabled_rules", patterns)] ?_ rfl ?_ h
  · exact List.forall_mem_singleton.mpr rfl
  · exact ⟨hvalid.maxFindings, hvalid.severities, hvalid.ruleConfigs⟩

end Config

namespace Registry

open Config (withPatterns)

/-- A pattern that is no text does no harm behind one that matches. -/
theorem analyze_eq_ok_iff_lateNumber :
    let config := withPatterns (.list [.text "lang.*", .int 5])
    Config.Loaded (Policies.builtin.registerAll []) config ∧
      (empty.load Catalog.builtin config none []).2.outcome = .ok [LooseComparison.rule] ∧
      ∃ findings, (empty.analyze Catalog.builtin Job.silencedJob config .builtin).2.outcome =
        .ok findings := by
  intro config
  have hloaded : Config.Loaded (Policies.builtin.registerAll []) config :=
    Config.withPatterns_loaded (Policies.defaultName_mem_names []) Value.noConfusion
  have hall : (empty.search Catalog.builtin []).1.candidates none = [LooseComparison.rule] := by
    cbv
  have hphp : (empty.search Catalog.builtin []).1.candidates (some Job.silencedJob.language) =
      [LooseComparison.rule] := by
    cbv
  have hparse : Glob.parse "lang.*".toList = "lang.".toList.map .literal ++ [.star] := by
    simp [Glob.parse]
  have hmatch : (Value.text "lang.*").enables LooseComparison.rule.id = true := by
    show Glob.accepts (Glob.parse "lang.*".toList) "lang.strict_equality".toList = true
    rw [hparse]
    decide
  have hselects : config.enabledRules.selects LooseComparison.rule.id = true := by
    show List.any [Value.text "lang.*", Value.int 5] _ = true
    rw [List.any_cons, hmatch, Bool.true_or]
  have hreads : config.enabledRules.ReadsFor LooseComparison.rule.id :=
    ⟨_, rfl, textsFor_cons_of_enables hmatch⟩
  obtain ⟨hload, hjob⟩ := analyze_eq_ok_iff [] hloaded empty
  obtain ⟨-, hanalyze⟩ := hjob Job.silencedJob .builtin
  refine ⟨hloaded, ?_, ?_⟩
  · rw [hload, hall, List.filter_cons, if_pos hselects]
    exact ⟨List.forall_mem_singleton.mpr hreads, rfl⟩
  · rw [hanalyze, hphp]
    exact List.forall_mem_singleton.mpr hreads

/-- Patterns that are a number are accepted, and then rules cannot be loaded and a file
cannot be analysed. -/
theorem analyze_numberPatterns :
    let config := withPatterns (.int 5)
    Config.Loaded .builtin config ∧
      (empty.load Catalog.builtin config none []).2.outcome = .error (.wrongType "a sequence") ∧
      (empty.analyze Catalog.builtin Job.silencedJob config .builtin).2.outcome =
        .error (.wrongType "a sequence") := by
  refine ⟨Config.withPatterns_loaded (Policies.defaultName_mem_names []) Value.noConfusion, ?_, ?_⟩
  · cbv
  · cbv

end Registry

end StrictEquality
