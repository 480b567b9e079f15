import Mathlib.Data.List.Permutation
import StrictEquality.Proofs.RuleRegistry

/-!
# Rules that a search adds

A search that comes to its end adds the rules that are listed in the modules it can
import, in the order of its walk. Of the rules with one identifier the first one counts,
and none counts whose identifier is taken already.

## Main definitions

- `Entry.rule?`, `RuleModule.listed` — the rules that an entry and a module stand for
- `RuleModule.importable`, `Catalog.importable` — the modules that can be imported, in the
  order of the walk
- `Registry.additions` — the first rule for each identifier that is not taken

Main statement: `Registry.discover_eq_merge`.
-/

namespace StrictEquality

namespace Survey

theorem fault_andThen_eq_none_iff {a b : Survey} :
    (a.andThen b).fault = none ↔ a.fault = none ∧ b.fault = none := by
  unfold andThen
  cases ha : a.fault with
  | none => simp
  | some fault => simp [ha]

theorem rules_andThen {a b : Survey} (h : a.fault = none) :
    (a.andThen b).rules = a.rules ++ b.rules := by
  rw [andThen, h]

theorem fault_concat_eq_none_iff {surveys : List Survey} :
    (concat surveys).fault = none ↔ ∀ s ∈ surveys, s.fault = none := by
  induction surveys with
  | nil => simp [concat, nothing]
  | cons s rest ih =>
    rw [List.forall_mem_cons, ← ih]
    exact fault_andThen_eq_none_iff

theorem rules_concat {surveys : List Survey} (h : ∀ s ∈ surveys, s.fault = none) :
    (concat surveys).rules = surveys.flatMap Survey.rules := by
  induction surveys with
  | nil => rfl
  | cons s rest ih =>
    obtain ⟨hs, hrest⟩ := List.forall_mem_cons.mp h
    rw [List.flatMap_cons, ← ih hrest]
    exact rules_andThen hs

end Survey

/-- The rule that an entry stands for: an object, or what a class makes, that has all the
attributes of a rule. -/
def Entry.rule? : Entry → Option Rule
  | rule r => some r
  | ruleClass (.error _) _ => none
  | ruleClass (.ok r) attributes | object r attributes =>
    if ruleAttributes.all attributes.contains then some r else none
  | value _ => none

theorem Entry.rules_survey {e : Entry} {module : String} (h : (e.survey module).fault = none) :
    (e.survey module).rules = e.rule?.toList := by
  have hobject : ∀ (r : Rule) (attributes : List String),
      (if ruleAttributes.all attributes.contains then ({ rules := [r] } : Survey)
        else .note (.entryIgnored .object module)).rules =
          (if ruleAttributes.all attributes.contains then some r else none).toList := by
    intro r attributes
    split <;> rfl
  cases e with
  | rule r => rfl
  | ruleClass make attributes =>
    cases make with
    | error fault => cases h
    | ok r => exact hobject r attributes
  | object r attributes => exact hobject r attributes
  | value v => rfl

/-- The rules that a rule list stands for. Only a list is looked into. -/
def RuleList.valid : RuleList → List Rule
  | list entries => entries.filterMap Entry.rule?
  | absent | other _ => []

theorem RuleList.rules_survey {rules : RuleList} {module : String}
    (h : (rules.survey module).fault = none) : (rules.survey module).rules = rules.valid := by
  cases rules with
  | absent => rfl
  | other entries => rfl
  | list entries =>
    have hentries := Survey.fault_concat_eq_none_iff.mp h
    rw [survey, Survey.rules_concat hentries, List.flatMap_map, valid,
      List.filterMap_eq_flatMap_toList]
    apply List.flatMap_congr
    intro e he
    exact Entry.rules_survey (hentries _ (List.mem_map_of_mem he))

namespace RuleModule

/-- The rules that a module lists. -/
def listed (m : RuleModule) : List Rule :=
  m.rules.valid

/-- Whether a module comes before another one, or has its name. -/
def byName (a b : RuleModule) : Bool :=
  decide (a.name ≤ b.name)

mutual

/-- A module and the modules below it that can be imported. A module that refuses to be
imported hides those below it. -/
def importable : RuleModule → List RuleModule
  | mk name rules refusal children =>
    match refusal with
    | some _ => []
    | none =>
      mk name rules none children ::
        (match children with
          | none => []
          | some children =>
            ((importableBelow children).mergeSort (fun a b => decide (a.1 ≤ b.1))).flatMap Prod.snd)

def importableBelow : List RuleModule → List (String × List RuleModule)
  | [] => []
  | m :: ms => (m.name, m.importable) :: importableBelow ms

end

theorem importableBelow_eq_map (children : List RuleModule) :
    importableBelow children = children.map (fun c => (c.name, c.importable)) := by
  induction children with
  | nil => rfl
  | cons c rest ih => rw [importableBelow, ih, List.map_cons]

theorem surveyAll_eq_map (path : String) (children : List RuleModule) :
    surveyAll path children =
      children.map (fun c => (c.name, c.survey (path ++ "." ++ c.name))) := by
  induction children with
  | nil => rfl
  | cons c rest ih => rw [surveyAll, ih, List.map_cons]

/-- What is found for each module, in the order of the names, is what is found for the
modules in that order. -/
theorem mergeSort_map_name {α : Type} (f : RuleModule → α) (children : List RuleModule) :
    (children.map (fun c => (c.name, f c))).mergeSort (fun a b => decide (a.1 ≤ b.1)) =
      (children.mergeSort byName).map (fun c => (c.name, f c)) := by
  rw [List.map_mergeSort]
  intro a _ b _
  rfl

/-- The walk takes a package first, and then its submodules in the order of their names,
each with all that is below it. -/
theorem importable_package (name : String) (rules : RuleList) (children : List RuleModule) :
    (mk name rules none (some children)).importable =
      mk name rules none (some children) :: (children.mergeSort byName).flatMap importable := by
  rw [importable, importableBelow_eq_map, mergeSort_map_name, List.flatMap_map]

theorem inOrder_surveyAll (path : String) (children : List RuleModule) :
    inOrder (surveyAll path children) =
      .concat ((children.mergeSort byName).map (fun c => c.survey (path ++ "." ++ c.name))) := by
  rw [inOrder, surveyAll_eq_map, mergeSort_map_name, List.map_map]
  rfl

theorem rules_refused (path : String) (fault : Fault) (isPackage : Bool) :
    (refused path fault isPackage).rules = [] := by
  unfold refused
  split <;> rfl

mutual

/-- A search of a module finds the rules that the importable modules list. -/
theorem rules_survey (path : String) :
    (m : RuleModule) → (m.survey path).fault = none →
      (m.survey path).rules = m.importable.flatMap listed
  | mk name rules (some fault) children, _ => by
    rw [survey, importable]
    exact rules_refused path fault children.isSome
  | mk name rules none none, h => by
    rw [survey] at h ⊢
    obtain ⟨hown, -⟩ := Survey.fault_andThen_eq_none_iff.mp h
    rw [Survey.rules_andThen hown, RuleList.rules_survey hown, importable, List.flatMap_cons]
    rfl
  | mk name rules none (some children), h => by
    rw [survey, inOrder_surveyAll] at h
    obtain ⟨hown, hbelow⟩ := Survey.fault_andThen_eq_none_iff.mp h
    have hchildren := Survey.fault_concat_eq_none_iff.mp hbelow
    rw [survey, inOrder_surveyAll, Survey.rules_andThen hown, RuleList.rules_survey hown,
      Survey.rules_concat hchildren, List.flatMap_map, importable_package, List.flatMap_cons,
      List.flatMap_assoc]
    congr 1
    apply List.flatMap_congr
    intro c hc
    exact rules_survey_below path children c (List.mem_mergeSort.mp hc)
      (hchildren _ (List.mem_map_of_mem hc))

theorem rules_survey_below (path : String) :
    (children : List RuleModule) → ∀ c ∈ children,
      (c.survey (path ++ "." ++ c.name)).fault = none →
        (c.survey (path ++ "." ++ c.name)).rules = c.importable.flatMap listed
  | [], c, hc, _ => by cases hc
  | first :: rest, c, hc, h => by
    cases hc with
    | head => exact rules_survey _ first h
    | tail _ hrest => exact rules_survey_below path rest c hrest h

end

end RuleModule

namespace Catalog

/-- The modules that a search of packages can import, package by package. -/
def importable (catalog : Catalog) (packages : List String) : List RuleModule :=
  packages.flatMap (fun name =>
    match catalog.load name with
    | .ok m => m.importable
    | .error _ => [])

/-- The rules that these modules list. -/
def listed (catalog : Catalog) (packages : List String) : List Rule :=
  (catalog.importable packages).flatMap RuleModule.listed

variable {catalog : Catalog}

theorem listed_append (first second : List String) :
    catalog.listed (first ++ second) = catalog.listed first ++ catalog.listed second := by
  rw [listed, importable, List.flatMap_append, List.flatMap_append]
  rfl

theorem rules_surveyPackage {name : String} (h : (catalog.surveyPackage name).fault = none) :
    (catalog.surveyPackage name).rules = catalog.listed [name] := by
  rw [listed, importable, List.flatMap_singleton]
  unfold surveyPackage at h ⊢
  cases hload : catalog.load name with
  | ok m =>
    rw [hload] at h
    exact m.rules_survey name h
  | error fault =>
    -- a package that cannot be imported is passed over
    simp only
    split <;> rfl

theorem fault_survey_append_eq_none_iff {first second : List String} :
    (catalog.survey (first ++ second)).fault = none ↔
      (catalog.survey first).fault = none ∧ (catalog.survey second).fault = none := by
  simp only [survey, Survey.fault_concat_eq_none_iff, List.map_append, List.forall_mem_append]

/-- A search that comes to its end finds the rules that the importable modules list. -/
theorem rules_survey {packages : List String} (h : (catalog.survey packages).fault = none) :
    (catalog.survey packages).rules = catalog.listed packages := by
  have hpackages := Survey.fault_concat_eq_none_iff.mp h
  rw [survey, Survey.rules_concat hpackages, List.flatMap_map, listed, importable,
    List.flatMap_assoc]
  apply List.flatMap_congr
  intro name hname
  rw [rules_surveyPackage (hpackages _ (List.mem_map_of_mem hname)), listed, importable,
    List.flatMap_singleton]

end Catalog

namespace Registry

/-- The rules to add: of those whose identifier is not taken, the first one for each. -/
def additions (r : Registry) (rules : List Rule) : List Rule :=
  (rules.filter (fun rule => !r.ids.contains rule.id)).eraseDupsBy (fun a b => a.id == b.id)

variable {r : Registry}

theorem register_of_mem {rule : Rule} (h : rule.id ∈ r.ids) : r.register rule = r := by
  rw [register, if_pos (List.contains_iff_mem.mpr h)]

theorem register_of_not_mem {rule : Rule} (h : rule.id ∉ r.ids) :
    r.register rule = { rules := r.rules ++ [rule], index := r.index ++ [(rule.id, rule)] } := by
  have hnew : ¬ r.ids.contains rule.id = true := fun hmem => h (List.contains_iff_mem.mp hmem)
  rw [register, if_neg hnew, RuleIndex.insert_of_not_mem rule h]

theorem ids_register_of_not_mem {rule : Rule} (h : rule.id ∉ r.ids) :
    (r.register rule).ids = r.ids ++ [rule.id] := by
  rw [register_of_not_mem h, ids, List.map_append]
  rfl

theorem mem_ids_register (r : Registry) (rule : Rule) : rule.id ∈ (r.register rule).ids := by
  by_cases h : rule.id ∈ r.ids
  · rw [register_of_mem h]
    exact h
  · rw [ids_register_of_not_mem h]
    exact List.mem_append_right _ List.mem_cons_self

theorem ids_subset_register (r : Registry) (rule : Rule) : r.ids ⊆ (r.register rule).ids := by
  by_cases h : rule.id ∈ r.ids
  · rw [register_of_mem h]
    exact List.Subset.refl r.ids
  · rw [ids_register_of_not_mem h]
    exact List.subset_append_left _ _

theorem ids_subset_registerAll (r : Registry) (rules : List Rule) :
    r.ids ⊆ (r.registerAll rules).ids := by
  induction rules generalizing r with
  | nil => exact List.Subset.refl r.ids
  | cons rule rest ih => exact List.Subset.trans (ids_subset_register r rule) (ih _)

theorem mem_ids_registerAll {rules : List Rule} {rule : Rule} (h : rule ∈ rules) :
    rule.id ∈ (r.registerAll rules).ids := by
  induction rules generalizing r with
  | nil => cases h
  | cons first rest ih =>
    cases h with
    | head => exact ids_subset_registerAll (r.register rule) rest (mem_ids_register r rule)
    | tail _ hrest => exact ih hrest

theorem additions_cons_of_mem {rule : Rule} (h : rule.id ∈ r.ids) (rest : List Rule) :
    r.additions (rule :: rest) = r.additions rest := by
  rw [additions, List.filter_cons_of_neg (by simpa using h)]
  rfl

/-- Once a rule is added no other rule of its identifier is. -/
theorem additions_cons_of_not_mem {rule : Rule} (h : rule.id ∉ r.ids) (rest : List Rule) :
    r.additions (rule :: rest) = rule :: (r.register rule).additions rest := by
  rw [additions, List.filter_cons_of_pos (by simpa using h), List.eraseDupsBy_cons, additions,
    List.filter_filter, ids_register_of_not_mem h]
  congr 2
  apply List.filter_congr
  intro other _
  by_cases hsame : other.id = rule.id
  · simp [hsame]
  · simp [hsame]

theorem additions_eq_nil {rules : List Rule} (h : ∀ rule ∈ rules, rule.id ∈ r.ids) :
    r.additions rules = [] := by
  have hnone : rules.filter (fun rule => !r.ids.contains rule.id) = [] := by
    rw [List.filter_eq_nil_iff]
    intro rule hrule
    simpa using h rule hrule
  rw [additions, hnone, List.eraseDupsBy_nil]

/-- Registering rules one after another adds the first one for each identifier that is not
taken. -/
theorem registerAll_eq (r : Registry) (rules : List Rule) :
    r.registerAll rules =
      { rules := r.rules ++ r.additions rules
        index := r.index ++ (r.additions rules).map (fun rule => (rule.id, rule)) } := by
  induction rules generalizing r with
  | nil => simp [registerAll, additions]
  | cons rule rest ih =>
    have hstep : r.registerAll (rule :: rest) = (r.register rule).registerAll rest := rfl
    by_cases h : rule.id ∈ r.ids
    · rw [hstep, register_of_mem h, ih, additions_cons_of_mem h]
    · rw [hstep, ih, additions_cons_of_not_mem h]
      simp only [register_of_not_mem h, List.append_assoc, List.singleton_append, List.map_cons]

theorem registerAll_append (r : Registry) (first second : List Rule) :
    r.registerAll (first ++ second) = (r.registerAll first).registerAll second :=
  List.foldl_append

theorem registerAll_registerAll_self (r : Registry) (rules : List Rule) :
    (r.registerAll rules).registerAll rules = r.registerAll rules := by
  have hnone : (r.registerAll rules).additions rules = [] :=
    additions_eq_nil fun rule hrule => mem_ids_registerAll hrule
  rw [registerAll_eq (r.registerAll rules) rules, hnone]
  simp

/-- A search gives how many rules it added, unless a fault ends it. -/
theorem outcome_discover_eq_ok_iff {catalog : Catalog} {packages : List String} {n : Nat} :
    (r.discover catalog packages).2.outcome = .ok n ↔
      (catalog.survey packages).fault = none ∧
        n = (r.additions (catalog.listed packages)).length := by
  simp only [discover]
  cases hfault : (catalog.survey packages).fault with
  | some fault => simp
  | none =>
    have hcount : (r.registerAll (catalog.survey packages).rules).rules.length - r.rules.length =
        (r.additions (catalog.listed packages)).length := by
      rw [Catalog.rules_survey hfault, registerAll_eq, List.length_append]
      omega
    simp only [hcount, Except.ok.injEq, true_and, eq_comm]

theorem discover_fst_eq {catalog : Catalog} {packages : List String}
    (h : (catalog.survey packages).fault = none) :
    (r.discover catalog packages).1 = r.registerAll (catalog.listed packages) := by
  rw [discover_fst, Catalog.rules_survey h]

theorem discover_append_fst {catalog : Catalog} {first second : List String}
    (hfirst : (catalog.survey first).fault = none)
    (hsecond : (catalog.survey second).fault = none) :
    (r.discover catalog (first ++ second)).1 =
      ((r.discover catalog first).1.discover catalog second).1 := by
  have hboth := Catalog.fault_survey_append_eq_none_iff.mpr ⟨hfirst, hsecond⟩
  rw [discover_fst_eq hboth, discover_fst_eq hsecond, discover_fst_eq hfirst,
    Catalog.listed_append, registerAll_append]

theorem length_additions_append (r : Registry) (first second : List Rule) :
    (r.additions (first ++ second)).length =
      (r.additions first).length + ((r.registerAll first).additions second).length := by
  have hlength : ∀ (r : Registry) (rules : List Rule),
      (r.registerAll rules).rules.length = r.rules.length + (r.additions rules).length := by
    intro r rules
    rw [registerAll_eq, List.length_append]
  have hboth := hlength r (first ++ second)
  rw [registerAll_append, hlength, hlength] at hboth
  omega

/-- Searching some packages and then others is one search. -/
theorem discover_append {catalog : Catalog} (r : Registry) (first second : List String) {n : Nat} :
    (r.discover catalog (first ++ second)).2.outcome = .ok n ↔
      ∃ k l, (r.discover catalog first).2.outcome = .ok k ∧
        ((r.discover catalog first).1.discover catalog second).2.outcome = .ok l ∧ n = k + l := by
  simp only [outcome_discover_eq_ok_iff, Catalog.fault_survey_append_eq_none_iff,
    Catalog.listed_append, length_additions_append]
  constructor
  · rintro ⟨⟨hfirst, hsecond⟩, hn⟩
    rw [← discover_fst_eq hfirst] at hn
    exact ⟨_, _, ⟨hfirst, rfl⟩, ⟨hsecond, rfl⟩, hn⟩
  · rintro ⟨k, l, ⟨hfirst, rfl⟩, ⟨hsecond, rfl⟩, hn⟩
    rw [discover_fst_eq hfirst] at hn
    exact ⟨⟨hfirst, hsecond⟩, hn⟩

/-- **A search merges the rules it finds into the registry, and the first one wins.** If it
comes to its end it has added, behind what was there, the rules that the importable
modules list, the first one for each identifier and none whose identifier was taken, and
it gives their number. Searching packages at once or in two parts comes to the same, and
searching them again adds nothing. -/
theorem discover_eq_merge (r : Registry) (catalog : Catalog) (packages : List String) {n : Nat}
    (h : (r.discover catalog packages).2.outcome = .ok n) :
    let added := r.additions (catalog.listed packages)
    let grown := (r.discover catalog packages).1
    grown = { rules := r.rules ++ added
              index := r.index ++ added.map (fun rule => (rule.id, rule)) } ∧
      n = added.length ∧
      (∀ first second, packages = first ++ second →
        ∃ k l, (r.discover catalog first).2.outcome = .ok k ∧
          ((r.discover catalog first).1.discover catalog second).2.outcome = .ok l ∧
          n = k + l ∧ grown = ((r.discover catalog first).1.discover catalog second).1) ∧
      (∀ more m, (grown.discover catalog more).2.outcome = .ok m →
        (r.discover catalog (packages ++ more)).2.outcome = .ok (n + m) ∧
          (r.discover catalog (packages ++ more)).1 = (grown.discover catalog more).1) ∧
      (grown.discover catalog packages).2.outcome = .ok 0 ∧
      (grown.discover catalog packages).1 = grown := by
  intro added grown
  obtain ⟨hend, hn⟩ := outcome_discover_eq_ok_iff.mp h
  have hgrown : grown = r.registerAll (catalog.listed packages) := discover_fst_eq hend
  refine ⟨?_, hn, ?_, ?_, ?_, ?_⟩
  · rw [hgrown, registerAll_eq]
  · rintro first second rfl
    obtain ⟨hfirst, hsecond⟩ := Catalog.fault_survey_append_eq_none_iff.mp hend
    obtain ⟨k, l, hk, hl, hsum⟩ := (r.discover_append first second).mp h
    exact ⟨k, l, hk, hl, hsum, discover_append_fst hfirst hsecond⟩
  · intro more m hmore
    obtain ⟨hsecond, -⟩ := outcome_discover_eq_ok_iff.mp hmore
    exact ⟨(r.discover_append packages more).mpr ⟨n, m, h, hmore, rfl⟩,
      discover_append_fst hend hsecond⟩
  · rw [outcome_discover_eq_ok_iff]
    refine ⟨hend, ?_⟩
    rw [hgrown, additions_eq_nil fun rule hrule => mem_ids_registerAll hrule]
    rfl
  · rw [discover_fst_eq hend, hgrown, registerAll_registerAll_self]

/-- A package with rules of its own, of which only the first one is new, and with submodules
out of order: one lists a rule of a known identifier and a new one, one refuses to be
imported, and one has no list. -/
def scatteredCatalog : Catalog :=
  [.mk "rules"
    (.list [.rule (silentRule "test.first" ["php"]), .ruleClass (.ok (silentRule "test.second" [])),
      .ruleClass (.ok (silentRule "test.partial" [])) ["meta"], .value (.int 5)])
    none
    (some [
      .mk "c" (.other [.rule (silentRule "test.other" [])]) none none,
      .mk "b" (.list [.rule (silentRule "test.hidden" [])]) (some (.ruleFailure "boom")) none,
      .mk "a" (.list [.rule (silentRule "test.first" []), .object (silentRule "test.third" [])
        ["requires", "visit", "meta"]]) none none])]

/-- One of the rules is registered before, one package is missing, and one is searched
twice. -/
theorem discover_eq_merge_scattered :
    let r := empty.register (silentRule "test.second" ["hack"])
    let packages := ["rules", "missing", "rules.a"]
    let added := r.additions (scatteredCatalog.listed packages)
    let grown := (r.discover scatteredCatalog packages).1
    (r.discover scatteredCatalog packages).2.outcome = .ok 2 ∧ 2 = added.length ∧
      grown.ids = ["test.second", "test.first", "test.third"] ∧
      grown = { rules := r.rules ++ added
                index := r.index ++ added.map (fun rule => (rule.id, rule)) } ∧
      (grown.discover scatteredCatalog packages).2.outcome = .ok 0 := by
  intro r packages added grown
  have hend : (r.discover scatteredCatalog packages).2.outcome = .ok 2 := by cbv
  have hids : (r.discover scatteredCatalog packages).1.ids =
      ["test.second", "test.first", "test.third"] := by cbv
  obtain ⟨hgrown, hcount, -, -, hagain, -⟩ := r.discover_eq_merge scatteredCatalog packages hend
  exact ⟨hend, hcount, hids, hgrown, hagain⟩

end Registry

end StrictEquality
