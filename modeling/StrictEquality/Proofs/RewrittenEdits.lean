import StrictEquality.Proofs.ConfigUse
import StrictEquality.Proofs.EditSelection

/-!
# Edits of the loose comparison rule

Follows a comparison from the file to the edits that are applied: it has to be in the
source and loose, no comment may silence it, it has to be within the limit of findings,
and the policy has to find its operand types compatible.

What the edits should be is said here without the rule, by operators, texts and the
entries of a configuration.

## Main definitions

- `Rewriting` — the entries of a configuration that decide on edits
- `Rewriting.IsOf` — a configuration has these entries
- `Rewriting.edits` — the edits of a file

Main statement: `LooseComparison.edits_of_load`.
-/

namespace StrictEquality

/-- What decides on the edits of a file. -/
structure Rewriting where
  limit : Nat
  alterCode : Value
  allowAnnotated : Value
  policy : Policy

namespace Rewriting

/-- The limit and the settings of a configuration, and the policy that they name. Where
they name none it is the policy called lattice. -/
structure IsOf (w : Rewriting) (config : Config) (policies : Policies) : Prop where
  maxFindings : config.maxFindings = .int w.limit
  ruleConfigs : ∃ ruleConfigs settings : Entries, config.ruleConfigs = .map ruleConfigs ∧
    ruleConfigs.find? (.text "lang.strict_equality") = some (.map settings) ∧
    settings.find? (.text "alter_code") = some w.alterCode ∧
    settings.find? (.text "allow_annotated_types") = some w.allowAnnotated ∧
    ∃ name, (settings.find? (.text "policy") = some (.text name) ∨
        settings.find? (.text "policy") = some .null ∧ name = "lattice") ∧
      policies.find? name = some w.policy

/-- Whether a comparison of a text uses up the limit: it is in the source and loose, and no
comment silences it where it starts. -/
def counts (text : String) (c : Comparison) : Bool :=
  !c.isVirtual && ["==", "!=", "<>"].contains c.operator &&
    !(Suppressions.ofText text.toList).covers "lang.strict_equality" c.whole.start

/-- Whether a comparison is rewritten: code may be altered, both operand types are known,
and the policy finds the rewrite safe. -/
def applies (w : Rewriting) (c : Comparison) : Bool :=
  match c.leftType, c.rightType with
  | some left, some right =>
    w.alterCode.truthy &&
      (Decision.evaluate w.policy w.allowAnnotated.truthy left right
        (if c.operator = "==" then .equal else .notEqual)).isSafe
  | _, _ => false

/-- The strict operator in place of what stands between the operands. -/
def edit (c : Comparison) : Edit where
  start := c.left.stop
  stop := c.right.start
  replacement := if c.operator = "==" then " === " else " !== "

/-- The edits of the comparisons that are rewritten, among the first ones that count, in
the order of their ranges. Edits of one range stay in their order. -/
def edits (w : Rewriting) (job : Job) : List Edit :=
  ((((job.comparisons.filter (counts job.text)).take w.limit).filter w.applies).map
    edit).mergeSort fun a b => decide (a.start < b.start ∨ a.start = b.start ∧ a.stop ≤ b.stop)

/-- The settings of the rule, as far as edits depend on them. -/
def settings (w : Rewriting) : LooseComparison.Settings where
  policy := w.policy
  alterCode := w.alterCode.truthy
  allowAnnotated := w.allowAnnotated.truthy

end Rewriting

namespace LooseComparison

open Rewriting

variable {w : Rewriting} {config : Config}

theorem fixes_settings (w : Rewriting) (c : Comparison) :
    fixes w.settings c = if w.applies c then [edit c] else [] := by
  have hreplacement : (polarity c).replacement = if c.operator = "==" then " === " else " !== " := by
    unfold polarity
    split <;> rfl
  unfold fixes decision? Rewriting.applies Rewriting.settings
  -- a decision is made, and may put something in, only where all three are given
  cases halter : w.alterCode.truthy with
  | false => cases c.leftType <;> cases c.rightType <;> rfl
  | true =>
    cases hleft : c.leftType with
    | none => rfl
    | some left =>
      cases hright : c.rightType with
      | none => rfl
      | some right =>
        simp only [Option.bind_some, Decision.replacement?_evaluate, Bool.true_and, hreplacement]
        change _ = if (Decision.evaluate w.policy w.allowAnnotated.truthy left right
          (polarity c)).isSafe then _ else _
        cases (Decision.evaluate w.policy w.allowAnnotated.truthy left right
          (polarity c)).isSafe <;> rfl

theorem flatMap_fixes (w : Rewriting) (comparisons : List Comparison) :
    comparisons.flatMap (fixes w.settings) = (comparisons.filter w.applies).map edit := by
  induction comparisons with
  | nil => rfl
  | cons c rest ih =>
    rw [List.flatMap_cons, ih, fixes_settings]
    by_cases happlies : w.applies c
    · simp [happlies]
    · simp [happlies]

/-- What is reported of the findings for loose comparisons are those for the comparisons
that count. -/
theorem reportedOf_finding (entries : Entries) (text : String) (s : Settings) (file : String)
    (comparisons : List Comparison) :
    Job.reportedOf entries (.ofText text.toList)
        ((comparisons.filter isReported).map (finding s file)) =
      (comparisons.filter (counts text)).map
        (fun c => Job.overridden entries (finding s file c)) := by
  rw [Job.reportedOf, List.filter_map, List.filter_filter, List.map_map]
  congr 1
  refine List.filter_congr ?_
  intro c _
  rw [counts, Bool.and_comm]
  rfl

theorem fixes_of_findings (entries : Entries) (s : Settings) (file : String)
    (comparisons : List Comparison) :
    (comparisons.map (fun c => Job.overridden entries (finding s file c))).flatMap Finding.fixes =
      comparisons.flatMap (fixes s) := by
  rw [List.flatMap_map]
  rfl

/-- What a configuration says about edits are the settings that the rule reads, and the
policy that it chooses. -/
theorem exists_settings_of_isOf {policies : Policies} (h : w.IsOf config policies)
    (file : String) :
    ∃ settings, config.settings ruleId = .ok settings ∧
      (choosePolicy policies settings file).outcome = .ok w.policy ∧
      settingsWith w.policy settings = w.settings := by
  obtain ⟨ruleConfigs, settings, hruleConfigs, hrule, halter, hallow, name, hname, hpolicy⟩ :=
    h.ruleConfigs
  refine ⟨settings, Config.settings_of_find? hruleConfigs hrule, ?_, ?_⟩
  · rcases hname with htext | ⟨hnull, rfl⟩
    · exact outcome_choosePolicy_of_text htext hpolicy file
    · exact outcome_choosePolicy_of_null hnull hpolicy file
  · rw [settingsWith, Rewriting.settings, flag, flag, halter, hallow]
    rfl

/-- A loaded configuration has all entries that edits depend on, and the policy that it
names is there, also when policies were registered since. -/
theorem exists_isOf_of_loaded {registered : List Policy}
    (h : Config.Loaded (Policies.builtin.registerAll registered) config) (later : List Policy) :
    ∃ w : Rewriting, w.IsOf config (Policies.builtin.registerAll (registered ++ later)) := by
  have hvalid := h.isValid (Policies.defaultName_mem_names registered)
  obtain ⟨limit, hlimit, -⟩ := hvalid.maxFindings
  obtain ⟨ruleConfigs, hruleConfigs, settings, hrule, hall⟩ := h.coversRule.settings
  obtain ⟨allowed, hallow⟩ := Option.isSome_iff_exists.mp (hall "allow_annotated_types" (by decide))
  obtain ⟨alter, halter⟩ := Option.isSome_iff_exists.mp (hall "alter_code" (by decide))
  obtain ⟨v, hv⟩ := Option.isSome_iff_exists.mp (hall "policy" (by decide))
  have hsettings : config.settings ruleId = .ok settings :=
    Config.settings_of_find? hruleConfigs hrule
  -- validation lets null pass, which the rule reads as the default policy
  have hname : ∃ name ∈ (Policies.builtin.registerAll registered).names,
      settings.find? (.text "policy") = some (.text name) ∨
        settings.find? (.text "policy") = some .null ∧ name = "lattice" := by
    rcases hvalid.policySetting hsettings v hv with rfl | ⟨name, hname, rfl⟩
    · exact ⟨"lattice", Policies.defaultName_mem_names registered, .inr ⟨hv, rfl⟩⟩
    · exact ⟨name, hname, .inl hv⟩
  obtain ⟨name, hregistered, hname⟩ := hname
  -- names that were registered at load time still are
  have hstill : name ∈ (Policies.builtin.registerAll (registered ++ later)).names := by
    rw [Policies.registerAll_append]
    exact Policies.mem_names_registerAll hregistered later
  obtain ⟨policy, hpolicy⟩ := Policies.exists_find?_of_mem_names hstill
  exact ⟨{ limit, alterCode := alter, allowAnnotated := allowed, policy }, {
    maxFindings := hlimit
    ruleConfigs := ⟨ruleConfigs, settings, hruleConfigs, hrule, halter, hallow, name, hname,
      hpolicy⟩ }⟩

/-- The findings of an analysis are those of the comparisons that count, up to the
limit. -/
theorem run_rule_eq {policies : Policies} {entries : Entries} (job : Job)
    (hrunnable : config.IsRunnable w.limit) (hseverities : config.severities = .map entries)
    (h : w.IsOf config policies) :
    (job.run config policies [rule]).outcome =
      .ok (((job.comparisons.filter (counts job.text)).take w.limit).map
        (fun c => Job.overridden entries (finding w.settings job.file c))) := by
  obtain ⟨settings, hsettings, hpolicy, hread⟩ := exists_settings_of_isOf h job.file
  choose settingsOf hsettingsOf using hrunnable.exists_settings
  obtain rfl : settingsOf ruleId = settings := by
    exact Except.ok.inj ((hsettingsOf ruleId).symm.trans hsettings)
  have hall : job.allFindings policies settingsOf [rule] =
      (job.comparisons.filter isReported).map (finding w.settings job.file) := by
    rw [Job.allFindings, List.flatMap_singleton, ← hread]
    exact complete_visit hpolicy
  rw [job.run_eq policies hseverities hsettingsOf hrunnable.maxFindings hrunnable.one_le_limit,
    hall, reportedOf_finding, List.map_take]

/-- **The edits that are applied are exactly those of the comparisons to rewrite,** among
the first ones that count, in the order of their ranges. The settings are those of any
loaded configuration, and policies may have been registered since it was loaded. -/
theorem edits_of_load {registered : List Policy}
    (h : Config.Loaded (Policies.builtin.registerAll registered) config) (later : List Policy)
    (job : Job) (hgaps : job.comparisons.Pairwise
      (fun c d => c.right.start ≤ d.left.stop ∨ d.right.start ≤ c.left.stop)) :
    let policies := Policies.builtin.registerAll (registered ++ later)
    (∃ w : Rewriting, w.IsOf config policies) ∧
      ∀ w : Rewriting, w.IsOf config policies →
        (job.run config policies [rule] >>= Finding.edits).outcome = .ok (w.edits job) := by
  intro policies
  refine ⟨exists_isOf_of_loaded h later, ?_⟩
  intro w hw
  obtain ⟨limit, hlimit, hrunnable⟩ :=
    (h.isValid (Policies.defaultName_mem_names registered)).isRunnable
  obtain rfl : limit = w.limit := by
    exact Int.ofNat.inj (Value.int.inj (hlimit.symm.trans hw.maxFindings))
  obtain ⟨entries, hseverities⟩ := hrunnable.severities
  -- so no edit is lost between the findings and what is applied
  have hedits : ((((job.comparisons.filter (counts job.text)).take w.limit).filter
      w.applies).map edit).Pairwise (fun a b => a.overlaps b = false) := by
    have hapart : job.comparisons.Pairwise (fun c d => (edit c).overlaps (edit d) = false) := by
      refine hgaps.imp ?_
      intro c d hcd
      rw [← Bool.not_eq_true, Edit.overlaps_iff]
      simp only [edit]
      omega
    -- what is left of the comparisons overlaps no more than all of them do
    refine List.Pairwise.map _ (fun _ _ h => h) (hapart.sublist ?_)
    exact List.filter_sublist.trans ((List.take_sublist _ _).trans List.filter_sublist)
  rw [Report.outcome_bind, run_rule_eq job hrunnable hseverities hw, Fault.ok_bind, Finding.edits,
    fixes_of_findings, flatMap_fixes, Edit.collect, Edit.accepted_of_pairwise hedits]
  have horder : Edit.before =
      fun a b => decide (a.start < b.start ∨ a.start = b.start ∧ a.stop ≤ b.stop) := by
    funext a b
    rw [Bool.eq_iff_iff, Edit.before_iff, decide_eq_true_eq]
  rw [Edit.sort, horder]
  rfl

/-- Four findings at most, a number for the permission to alter code, and a policy that does
not trust arrays. -/
def cautious : Config :=
  { Config.default with
    maxFindings := .int 4
    ruleConfigs := .map [(.text ruleId, .map [(.text "allow_annotated_types", .bool false),
      (.text "alter_code", .int 1), (.text "policy", .text "conservative")])] }

/-- There is a document that gives that configuration. It leaves open whether annotated types
are allowed. -/
theorem cautious_loaded : Config.Loaded (Policies.builtin.registerAll []) cautious := by
  let file : Entries := [(.text "max_findings_per_file", .int 4),
    (.text "rule_configs", .map [(.text ruleId,
      .map [(.text "policy", .text "conservative"), (.text "alter_code", .int 1)])])]
  have hvalid : cautious.IsValid (Policies.builtin.registerAll []) :=
    Config.isValid_of_singleton 4 rfl (by decide) rfl rfl (Config.policySetting_of_find? rfl
      (.inr ⟨_, Policies.conservative_mem_names [], rfl⟩))
  exact Config.loaded_of_merged file (by decide) rfl hvalid Value.noConfusion

/-- A file with six comparisons, not in the order of the file. The first is silenced, one
has an operand of unknown type, one is of arrays, and the last is beyond a limit of four. -/
def crowdedJob : Job where
  file := "test.php"
  text := "$a == $b; // stricteq: ignore[*]\n$c <> $d; $e == $f; $g == $h; $i != $j; $k == $l;\n"
  comparisons :=
    let integer : TypeDescriptor := .ofNonempty [{ kind := .int }] (List.cons_ne_nil _ _)
    let array : TypeDescriptor := .ofNonempty [{ kind := .array }] (List.cons_ne_nil _ _)
    let list : TypeDescriptor := .ofNonempty [{ kind := .list }] (List.cons_ne_nil _ _)
    [{ operator := "==", left := ⟨0, 2⟩, right := ⟨6, 8⟩, whole := ⟨0, 8⟩
       leftType := some integer, rightType := some integer },
      { operator := "==", left := ⟨53, 55⟩, right := ⟨59, 61⟩, whole := ⟨53, 61⟩
        leftType := some integer, rightType := some integer },
      { operator := "<>", left := ⟨33, 35⟩, right := ⟨39, 41⟩, whole := ⟨33, 41⟩
        leftType := some integer, rightType := some integer },
      { operator := "==", left := ⟨43, 45⟩, right := ⟨49, 51⟩, whole := ⟨43, 51⟩
        leftType := some integer },
      { operator := "!=", left := ⟨63, 65⟩, right := ⟨69, 71⟩, whole := ⟨63, 71⟩
        leftType := some list, rightType := some array },
      { operator := "==", left := ⟨73, 75⟩, right := ⟨79, 81⟩, whole := ⟨73, 81⟩
        leftType := some integer, rightType := some integer }]

/-- Of the comparisons of that file two are rewritten, the later one in the file first
among the findings. -/
theorem edits_of_load_crowded :
    let w : Rewriting :=
      { limit := 4, alterCode := .int 1, allowAnnotated := .bool false, policy := .conservative }
    let policies := Policies.builtin.registerAll ([] ++ [.table "bogus" [] ""])
    Config.Loaded (Policies.builtin.registerAll []) cautious ∧
      crowdedJob.comparisons.Pairwise
        (fun c d => c.right.start ≤ d.left.stop ∨ d.right.start ≤ c.left.stop) ∧
      w.IsOf cautious policies ∧
      (crowdedJob.run cautious policies [rule] >>= Finding.edits).outcome = .ok (w.edits crowdedJob) ∧
      w.edits crowdedJob = [⟨35, 39, " !== "⟩, ⟨55, 59, " === "⟩] := by
  intro w policies
  have hgaps : crowdedJob.comparisons.Pairwise
      (fun c d => c.right.start ≤ d.left.stop ∨ d.right.start ≤ c.left.stop) := by
    decide
  have hw : w.IsOf cautious policies := {
    maxFindings := rfl
    ruleConfigs := ⟨_, _, rfl, rfl, rfl, rfl, "conservative", .inl rfl, rfl⟩ }
  have hrewritten : (((crowdedJob.comparisons.filter (counts crowdedJob.text)).take 4).filter
      w.applies).map edit = [⟨55, 59, " === "⟩, ⟨35, 39, " !== "⟩] := by
    decide +kernel
  have hsorted : w.edits crowdedJob = [⟨35, 39, " !== "⟩, ⟨55, 59, " === "⟩] := by
    rw [Rewriting.edits, hrewritten]
    simp [List.mergeSort]
  obtain ⟨-, hedits⟩ := edits_of_load cautious_loaded [.table "bogus" [] ""] crowdedJob hgaps
  exact ⟨cautious_loaded, hgaps, hw, hedits w hw, hsorted⟩

end LooseComparison

end StrictEquality
