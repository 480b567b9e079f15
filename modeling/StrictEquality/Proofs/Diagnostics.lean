import StrictEquality.Proofs.PolicyChoice

/-!
# Diagnostics of the loose comparison rule

The rule tells of every loose comparison in the source, whether or not it can be rewritten.
The settings and the registered policies decide on edits, and on what a finding says about
them, but not on which findings there are or what else is in them.

## Main definitions

- `Finding.withoutRewrite` — what a finding says apart from the rewrite
- `LooseComparison.diagnostic` — what is said about a comparison

Main statement: `LooseComparison.visit_eq_diagnostics`.
-/

namespace StrictEquality

/-- A finding without its edits and without what it says about the policy and the
verdict. -/
def Finding.withoutRewrite (f : Finding) : Finding :=
  { f with
    fixes := []
    details := f.details.filter (fun e => !(e.1.isText "policy" || e.1.isText "verdict")) }

namespace LooseComparison

/-- What is said about a comparison, whatever the settings are. -/
def diagnostic (file : String) (c : Comparison) : Finding where
  rule := "lang.strict_equality"
  message := "Using " ++ c.operator ++ " is deprecated, prefer " ++
    if c.operator = "==" then "===" else "!=="
  file := file
  start := c.whole.start
  stop := c.whole.stop
  severity := .text "warn"
  details := [(.text "operator", .text c.operator)]

theorem withoutRewrite_finding (s : Settings) (file : String) (c : Comparison) :
    (finding s file c).withoutRewrite = diagnostic file c := by
  have hmessage : (polarity c).strict = if c.operator = "==" then "===" else "!==" := by
    unfold polarity
    split <;> rfl
  have hdetails : (details s c).filter
      (fun e => !(e.1.isText "policy" || e.1.isText "verdict")) =
        [(.text "operator", .text c.operator)] := by
    -- a verdict is there only where a decision was made
    unfold details
    cases decision? s c with
    | none => rfl
    | some d => rfl
  rw [Finding.withoutRewrite, finding, diagnostic, hdetails, hmessage]
  rfl

/-- A run of the rule comes to its end and tells of the loose comparisons in the source. -/
theorem exists_visit_eq_diagnostics (ctx : RuleContext) (h : PolicyIsKey ctx.settings)
    (hdefault : Policy.defaultName ∈ ctx.policies.names) :
    ∃ found, (visit ctx).outcome = .ok found ∧ found.map Finding.withoutRewrite =
      (ctx.comparisons.filter isReported).map (diagnostic ctx.file) := by
  obtain ⟨policy, hchosen⟩ := exists_choosePolicy h hdefault ctx.file
  refine ⟨_, outcome_visit hchosen, ?_⟩
  rw [List.map_map]
  apply List.map_congr_left
  intro c _
  exact withoutRewrite_finding _ ctx.file c

/-- **Diagnostics do not depend on the settings.** With any two settings, under any
policies registered since the start, the rule comes to its end. What it finds differs in
the rewrites only, and there is one finding for each comparison that is in the source and
loose, in their order. -/
theorem visit_eq_diagnostics (registered : List Policy) (job : Job) {settings settings' : Entries}
    (h : PolicyIsKey settings) (h' : PolicyIsKey settings') :
    let policies := Policies.builtin.registerAll registered
    let loose := job.comparisons.filter
      (fun c => !c.isVirtual && ["==", "!=", "<>"].contains c.operator)
    ∃ found found', (visit (job.context policies settings)).outcome = .ok found ∧
      (visit (job.context policies settings')).outcome = .ok found' ∧
      found.map Finding.withoutRewrite = found'.map Finding.withoutRewrite ∧
      found.map Finding.withoutRewrite = loose.map (diagnostic job.file) := by
  intro policies loose
  have hdefault := Policies.defaultName_mem_names registered
  obtain ⟨found, hfound, hsaid⟩ :=
    exists_visit_eq_diagnostics (job.context policies settings) h hdefault
  obtain ⟨found', hfound', hsaid'⟩ :=
    exists_visit_eq_diagnostics (job.context policies settings') h' hdefault
  exact ⟨found, found', hfound, hfound', hsaid.trans hsaid'.symm, hsaid⟩

/-- A file with two comparisons of integers, the first of them silenced. -/
def integerJob : Job where
  file := "test.php"
  text := "$a == $b; // stricteq: ignore[lang.*]\n$c <> $d;\n"
  comparisons :=
    let integer : TypeDescriptor := .ofNonempty [{ kind := .int }] (by simp)
    [{ operator := "==", left := ⟨0, 2⟩, right := ⟨6, 8⟩, whole := ⟨0, 8⟩
       leftType := some integer, rightType := some integer },
      { operator := "<>", left := ⟨38, 40⟩, right := ⟨44, 46⟩, whole := ⟨38, 46⟩
        leftType := some integer, rightType := some integer }]

/-- Settings that name no policy and forbid edits, and settings that do not even name it
by a text, after the default policy was replaced by one that accepts nothing. -/
theorem visit_eq_diagnostics_unknownPolicy :
    let settings : Entries := [(.text "policy", .text "bogus"), (.text "alter_code", .bool false)]
    let settings' : Entries := [(.text "allow_annotated_types", .bool true), (.text "policy", .int 5)]
    let policies := Policies.builtin.registerAll [.table "lattice" [] ""]
    PolicyIsKey settings ∧ PolicyIsKey settings' ∧
      ∃ found found', (visit (integerJob.context policies settings)).outcome = .ok found ∧
        (visit (integerJob.context policies settings')).outcome = .ok found' ∧
        found.map Finding.withoutRewrite = found'.map Finding.withoutRewrite ∧
        found.map Finding.withoutRewrite = integerJob.comparisons.map (diagnostic "test.php") := by
  intro settings settings' policies
  have hkey : PolicyIsKey settings := by
    intro v hfind
    obtain rfl : Value.text "bogus" = v := Option.some.inj hfind
    rfl
  have hkey' : PolicyIsKey settings' := by
    intro v hfind
    obtain rfl : Value.int 5 = v := Option.some.inj hfind
    rfl
  exact ⟨hkey, hkey', visit_eq_diagnostics [.table "lattice" [] ""] integerJob hkey hkey'⟩

end LooseComparison

end StrictEquality
