import Mathlib.Data.List.TakeWhile
import StrictEquality.Proofs.RuleDiscovery

/-!
# Modules that refuse to be imported

A search walks through packages, and some of the modules it comes to may refuse to be
imported. Such a module is passed over, whatever its fault is, if it has no submodules. A
package is tried once more, and passed over too if it cannot be imported; any other fault
of a package ends the whole search. The rules of the modules before it are registered then,
and those behind it are not.

## Main definitions

- `RuleModule.walk`, `Catalog.walk` — the modules that a search comes to, in order
- `RuleModule.endsSearch` — a package whose fault ends a search
- `RuleList.ClassesSucceed` — no class of a rule list fails to make an object
- `Survey.Follows` — a search finds what the modules of a walk list, up to the first one
  that ends it

Main statement: `Registry.discover_eq_ok_iff_walk`.
-/

namespace StrictEquality

namespace RuleModule

mutual

/-- The modules that a search of a module comes to: the module, and those below it if it
can be imported. -/
def walk : RuleModule → List RuleModule
  | mk name rules refusal children =>
    mk name rules refusal children ::
      (match refusal with
        | some _ => []
        | none =>
          match children with
          | none => []
          | some children =>
            ((walkBelow children).mergeSort (fun a b => decide (a.1 ≤ b.1))).flatMap Prod.snd)

def walkBelow : List RuleModule → List (String × List RuleModule)
  | [] => []
  | m :: ms => (m.name, m.walk) :: walkBelow ms

end

/-- Whether a module can be imported. -/
def isImportable (m : RuleModule) : Bool :=
  m.refusal.isNone

/-- Whether a module ends a search: it is a package, and its fault is of another kind than
those of imports. -/
def endsSearch (m : RuleModule) : Bool :=
  m.children.isSome && m.refusal.any (fun fault => !fault.isImport)

theorem endsSearch_iff {m : RuleModule} :
    m.endsSearch = true ↔
      m.children.isSome ∧ ∃ fault, m.refusal = some fault ∧ fault.isImport = false := by
  rw [endsSearch, Bool.and_eq_true, Option.any_eq_true]
  simp

theorem walkBelow_eq_map (children : List RuleModule) :
    walkBelow children = children.map (fun c => (c.name, c.walk)) := by
  induction children with
  | nil => rfl
  | cons c rest ih => rw [walkBelow, ih, List.map_cons]

theorem walk_package (name : String) (rules : RuleList) (children : List RuleModule) :
    (mk name rules none (some children)).walk =
      mk name rules none (some children) :: (children.mergeSort byName).flatMap walk := by
  rw [walk, walkBelow_eq_map, mergeSort_map_name, List.flatMap_map]

mutual

/-- The modules that can be imported are those of the walk that do not refuse to be. -/
theorem importable_eq_filter_walk : (m : RuleModule) → m.importable = m.walk.filter isImportable
  | mk name rules (some fault) children => by
    rw [importable, walk]
    rfl
  | mk name rules none none => by
    rw [importable, walk]
    rfl
  | mk name rules none (some children) => by
    rw [importable_package, walk_package, List.filter_cons_of_pos rfl, List.filter_flatMap]
    congr 1
    apply List.flatMap_congr
    intro c hc
    exact importable_eq_filter_walk_below children c (List.mem_mergeSort.mp hc)

theorem importable_eq_filter_walk_below :
    (children : List RuleModule) → ∀ c ∈ children, c.importable = c.walk.filter isImportable
  | [], c, hc => by cases hc
  | first :: rest, c, hc => by
    cases hc with
    | head => exact importable_eq_filter_walk first
    | tail _ hrest => exact importable_eq_filter_walk_below rest c hrest

end

end RuleModule

open RuleModule

/-- No class in a rule list fails to make an object. -/
def RuleList.ClassesSucceed : RuleList → Prop
  | list entries => ∀ fault attributes, Entry.ruleClass (.error fault) attributes ∉ entries
  | absent | other _ => True

theorem RuleList.fault_survey {rules : RuleList} (h : rules.ClassesSucceed) (module : String) :
    (rules.survey module).fault = none := by
  cases rules with
  | absent => rfl
  | other entries => rfl
  | list entries =>
    rw [survey, Survey.fault_concat_eq_none_iff]
    intro s hs
    obtain ⟨e, he, rfl⟩ := List.mem_map.mp hs
    cases e with
    | rule r => rfl
    | value v => rfl
    | object r attributes =>
      rw [Entry.survey]
      split <;> rfl
    | ruleClass make attributes =>
      cases make with
      | error fault => exact absurd he (h fault attributes)
      | ok r =>
        rw [Entry.survey]
        split <;> rfl

namespace Survey

/-- A search finds the rules that the importable modules of a walk list, up to the first
module that ends the search, and ends with the fault of that one. -/
structure Follows (s : Survey) (walk : List RuleModule) : Prop where
  rules : s.rules =
    ((walk.takeWhile (fun m => !m.endsSearch)).filter isImportable).flatMap listed
  fault : s.fault = (walk.find? endsSearch).bind RuleModule.refusal

variable {a b : Survey} {front rest : List RuleModule}

theorem takeWhile_of_endsSearch {m : RuleModule}
    (hfront : ∀ other ∈ front, ¬ other.endsSearch = true) (hm : m.endsSearch = true)
    (rest : List RuleModule) :
    (front ++ m :: rest).takeWhile (fun m => !m.endsSearch) = front := by
  have hpos : ∀ other ∈ front, (!other.endsSearch) = true := by
    simpa using hfront
  rw [List.takeWhile_append_of_pos hpos, List.takeWhile_cons_of_neg (by simp [hm]),
    List.append_nil]

theorem follows_nothing : nothing.Follows [] where
  rules := rfl
  fault := rfl

theorem Follows.andThen (ha : a.Follows front) (hb : b.Follows rest) :
    (a.andThen b).Follows (front ++ rest) := by
  cases hfind : front.find? endsSearch with
  | none =>
    -- the first walk comes to its end
    have hnone : ∀ m ∈ front, (!m.endsSearch) = true := by
      simpa using List.find?_eq_none.mp hfind
    have hfault : a.fault = none := by
      rw [ha.fault, hfind]
      rfl
    refine { rules := ?_, fault := ?_ }
    · rw [rules_andThen hfault, ha.rules, hb.rules, List.takeWhile_append_of_pos hnone,
        List.takeWhile_eq_self_iff.mpr hnone, List.filter_append, List.flatMap_append]
    · rw [Survey.andThen, hfault, List.find?_append, hfind, Option.none_or]
      exact hb.fault
  | some m =>
    -- nothing counts behind the module that ends the first search
    obtain ⟨hm, before, after, rfl, hbefore⟩ := List.find?_eq_some_iff_append.mp hfind
    obtain ⟨-, fault, hrefusal, -⟩ := endsSearch_iff.mp hm
    have hends : a.andThen b = a := by
      rw [Survey.andThen, ha.fault, hfind, Option.bind_some, hrefusal]
    have hfirst : ∀ other ∈ before, ¬ other.endsSearch = true := by
      simpa using hbefore
    refine { rules := ?_, fault := ?_ }
    · rw [hends, ha.rules, List.append_assoc, List.cons_append,
        takeWhile_of_endsSearch hfirst hm, takeWhile_of_endsSearch hfirst hm]
    · have hboth : (before ++ m :: after ++ rest).find? endsSearch = some m := by
        rw [List.find?_append, hfind, Option.some_or]
      rw [hends, ha.fault, hfind, hboth]

/-- A search comes to its end if no module of its walk ends it. -/
theorem Follows.fault_eq_none_iff (h : a.Follows front) :
    a.fault = none ↔ ∀ m ∈ front, ¬ m.endsSearch = true := by
  rw [h.fault, ← List.find?_eq_none]
  cases hfind : front.find? endsSearch with
  | none => simp
  | some m =>
    obtain ⟨-, fault, hrefusal, -⟩ := endsSearch_iff.mp (List.find?_some hfind)
    simp [hrefusal]

theorem follows_concat {α : Type} {search : α → Survey} {walkOf : α → List RuleModule}
    {xs : List α} (h : ∀ x ∈ xs, (search x).Follows (walkOf x)) :
    (concat (xs.map search)).Follows (xs.flatMap walkOf) := by
  induction xs with
  | nil => exact follows_nothing
  | cons x rest ih =>
    obtain ⟨hfirst, hrest⟩ := List.forall_mem_cons.mp h
    rw [List.flatMap_cons]
    exact hfirst.andThen (ih hrest)

end Survey

namespace RuleModule

/-- Looking at a module that is imported finds what it lists. -/
theorem follows_rules {m : RuleModule} (h : m.refusal = none) (hclasses : m.rules.ClassesSucceed)
    (path : String) : (m.rules.survey path).Follows [m] := by
  have hfault := RuleList.fault_survey hclasses path
  have hcontinues : m.endsSearch = false := by
    rw [endsSearch, h, Option.any_none, Bool.and_false]
  refine { rules := ?_, fault := ?_ }
  · rw [RuleList.rules_survey hfault]
    simp [hcontinues, isImportable, h, listed]
  · simp [hfault, hcontinues]

/-- Passing over a module finds nothing, and ends the search for a package with a fault of
another kind. -/
theorem follows_refused (path : String) (m : RuleModule) {fault : Fault}
    (h : m.refusal = some fault) : (refused path fault m.children.isSome).Follows [m] := by
  have hends : m.endsSearch = (m.children.isSome && !fault.isImport) := by
    rw [endsSearch, h, Option.any_some]
  refine { rules := ?_, fault := ?_ }
  · rw [rules_refused]
    cases hm : m.endsSearch <;> simp [hm, isImportable, h]
  · rw [refused, ← hends]
    cases hm : m.endsSearch
    · simp [hm, Survey.andThen, Survey.note, Survey.nothing]
    · simp [hm, Survey.andThen, Survey.note, Survey.abort, h]

mutual

/-- A search of a module follows its walk, unless a class fails. -/
theorem survey_follows (path : String) :
    (m : RuleModule) → (∀ reached ∈ m.walk, reached.refusal = none → reached.rules.ClassesSucceed) →
      (m.survey path).Follows m.walk
  | mk name rules (some fault) children, _ => by
    rw [survey, walk]
    exact follows_refused path (mk name rules (some fault) children) rfl
  | mk name rules none none, h => by
    have hown := h _ (by rw [walk]; exact List.mem_cons_self) rfl
    rw [survey, walk]
    exact (follows_rules (m := mk name rules none none) rfl hown path).andThen
      Survey.follows_nothing
  | mk name rules none (some children), h => by
    rw [walk_package] at h ⊢
    have hown := h _ List.mem_cons_self rfl
    rw [survey, inOrder_surveyAll]
    refine (follows_rules (m := mk name rules none (some children)) rfl hown path).andThen
      (Survey.follows_concat ?_)
    intro c hc
    refine survey_follows_below path children c (List.mem_mergeSort.mp hc) ?_
    exact fun reached hreached =>
      h reached (List.mem_cons_of_mem _ (List.mem_flatMap.mpr ⟨c, hc, hreached⟩))

theorem survey_follows_below (path : String) :
    (children : List RuleModule) → ∀ c ∈ children,
      (∀ reached ∈ c.walk, reached.refusal = none → reached.rules.ClassesSucceed) →
        (c.survey (path ++ "." ++ c.name)).Follows c.walk
  | [], c, hc, _ => by cases hc
  | first :: rest, c, hc, h => by
    cases hc with
    | head => exact survey_follows _ first h
    | tail _ hrest => exact survey_follows_below path rest c hrest h

end

end RuleModule

namespace Catalog

/-- The modules that a search of packages comes to, package by package. -/
def walk (catalog : Catalog) (packages : List String) : List RuleModule :=
  packages.flatMap (fun name =>
    match catalog.load name with
    | .ok m => m.walk
    | .error _ => [])

variable {catalog : Catalog} {packages : List String}

theorem importable_eq_filter_walk (catalog : Catalog) (packages : List String) :
    catalog.importable packages = (catalog.walk packages).filter isImportable := by
  rw [importable, walk, List.filter_flatMap]
  apply List.flatMap_congr
  intro name _
  cases catalog.load name with
  | ok m => exact m.importable_eq_filter_walk
  | error fault => rfl

/-- A search of packages follows their walk, unless a package fails in another way than
being no module, or a class fails. -/
theorem survey_follows
    (hpackages : ∀ name ∈ packages, ∀ fault, catalog.load name = .error fault →
      fault.isImport = true)
    (hclasses : ∀ m ∈ catalog.walk packages, m.refusal = none → m.rules.ClassesSucceed) :
    (catalog.survey packages).Follows (catalog.walk packages) := by
  refine Survey.follows_concat ?_
  intro name hname
  rw [surveyPackage]
  cases hload : catalog.load name with
  | ok m =>
    refine m.survey_follows name ?_
    intro reached hreached
    refine hclasses reached (List.mem_flatMap.mpr ⟨name, hname, ?_⟩)
    rw [hload]
    exact hreached
  | error fault =>
    simp only [hpackages name hname fault hload, if_true]
    exact { rules := rfl, fault := rfl }

end Catalog

namespace Registry

theorem outcome_discover_of_fault {r : Registry} {catalog : Catalog} {packages : List String}
    {fault : Fault} (h : (catalog.survey packages).fault = some fault) :
    (r.discover catalog packages).2.outcome = .error fault := by
  simp only [discover, h]

/-- **A module that refuses to be imported does not end a search, unless it is a package
and its fault is of another kind than those of imports.** Without such packages the search
comes to its end, and has registered all rules that the modules of its walk list, as far as
these can be imported. With one, the search ends in its fault, and has registered the rules
of the modules before it. -/
theorem discover_eq_ok_iff_walk (r : Registry) {catalog : Catalog} {packages : List String}
    (hpackages : ∀ name ∈ packages, ∀ fault, catalog.load name = .error fault →
      fault.isImport = true)
    (hclasses : ∀ m ∈ catalog.walk packages, m.refusal = none → m.rules.ClassesSucceed) :
    let walk := catalog.walk packages
    let grown := (r.discover catalog packages).1
    let outcome := (r.discover catalog packages).2.outcome
    ((∃ n, outcome = .ok n) ↔ ∀ m ∈ walk, ¬ m.endsSearch = true) ∧
    ((∃ n, outcome = .ok n) →
      grown = r.registerAll ((walk.filter isImportable).flatMap listed) ∧
        ∀ m ∈ walk, m.refusal = none → ∀ rule ∈ m.listed, rule.id ∈ grown.ids) ∧
    ∀ before m after fault, walk = before ++ m :: after →
      (∀ other ∈ before, ¬ other.endsSearch = true) → m.endsSearch = true →
        m.refusal = some fault → outcome = .error fault ∧
          grown = r.registerAll ((before.filter isImportable).flatMap listed) := by
  intro walk grown outcome
  have hfollows := Catalog.survey_follows hpackages hclasses
  have hok : (∃ n, outcome = .ok n) ↔ (catalog.survey packages).fault = none :=
    ⟨fun ⟨_, hn⟩ => (outcome_discover_eq_ok_iff.mp hn).1,
      fun hend => ⟨_, outcome_discover_eq_ok_iff.mpr ⟨hend, rfl⟩⟩⟩
  refine ⟨hok.trans hfollows.fault_eq_none_iff, ?_, ?_⟩
  · intro hn
    have hgrown : grown = r.registerAll ((walk.filter isImportable).flatMap listed) := by
      rw [← Catalog.importable_eq_filter_walk]
      exact discover_fst_eq (hok.mp hn)
    refine ⟨hgrown, ?_⟩
    intro m hm hrefusal rule hrule
    rw [hgrown]
    refine mem_ids_registerAll (List.mem_flatMap.mpr ⟨m, ?_, hrule⟩)
    rw [List.mem_filter, isImportable, hrefusal]
    exact ⟨hm, rfl⟩
  · intro before m after fault hwalk hbefore hm hrefusal
    have hfind : (catalog.walk packages).find? endsSearch = some m := by
      show walk.find? endsSearch = some m
      rw [hwalk]
      exact List.find?_eq_some_iff_append.mpr ⟨hm, before, after, rfl, by simpa using hbefore⟩
    have hrules : (catalog.survey packages).rules =
        (before.filter isImportable).flatMap listed := by
      rw [hfollows.rules, show catalog.walk packages = _ from hwalk,
        Survey.takeWhile_of_endsSearch hbefore hm]
    refine ⟨outcome_discover_of_fault ?_, ?_⟩
    · rw [hfollows.fault, hfind]
      exact hrefusal
    · rw [← hrules]
      exact discover_fst r catalog packages

section Faulty

/-! ### A package with faulty submodules -/

/-- A module with a rule. -/
def lastModule : RuleModule :=
  .mk "c" (.list [.rule (silentRule "test.last" [])]) none none

/-- A module that fails when it is imported, and may be a package. -/
def failingModule (below : Option (List RuleModule)) : RuleModule :=
  .mk "a" .absent (some (.ruleFailure "boom")) below

/-- A package that cannot be imported, with a rule below it. -/
def closedPackage : RuleModule :=
  .mk "b" .absent (some (.importRefused "closed"))
    (some [.mk "d" (.list [.rule (silentRule "test.hidden" [])]) none none])

def faultyPackage (below : Option (List RuleModule)) : RuleModule :=
  .mk "rules" .absent none (some [lastModule, failingModule below, closedPackage])

variable (below : Option (List RuleModule))

theorem isImport_of_load_faultyPackage :
    ∀ name ∈ ["rules", "missing"], ∀ fault,
      Catalog.load [faultyPackage below] name = .error fault → fault.isImport = true := by
  have hrules : Catalog.load [faultyPackage below] "rules" = .ok (faultyPackage below) := by
    cbv
  have hmissing : Catalog.load [faultyPackage below] "missing" =
      .error (.moduleMissing "missing") := by
    cbv
  intro name hname fault hfault
  rcases List.mem_pair.mp hname with rfl | rfl
  · rw [hrules] at hfault
    cases hfault
  · rw [hmissing] at hfault
    obtain rfl := Except.error.inj hfault
    rfl

theorem walk_faultyPackage :
    Catalog.walk [faultyPackage below] ["rules", "missing"] =
      [faultyPackage below, failingModule below, closedPackage, lastModule] := by
  cbv

theorem classesSucceed_faultyPackage :
    ∀ m ∈ Catalog.walk [faultyPackage below] ["rules", "missing"],
      m.refusal = none → m.rules.ClassesSucceed := by
  rw [walk_faultyPackage]
  simp [faultyPackage, failingModule, closedPackage, lastModule, RuleModule.refusal,
    RuleModule.rules, RuleList.ClassesSucceed]

end Faulty

/-- A module that fails, a package that cannot be imported and a package that is missing do
not keep the rule behind them from being registered. -/
theorem discover_eq_ok_iff_walk_faulty :
    let catalog : Catalog := [faultyPackage none]
    let packages := ["rules", "missing"]
    let grown := (empty.discover catalog packages).1
    (∀ name ∈ packages, ∀ fault, catalog.load name = .error fault → fault.isImport = true) ∧
      (∀ m ∈ catalog.walk packages, m.refusal = none → m.rules.ClassesSucceed) ∧
      (∃ n, (empty.discover catalog packages).2.outcome = .ok n) ∧
      grown = empty.registerAll (((catalog.walk packages).filter isImportable).flatMap listed) ∧
      "test.last" ∈ grown.ids := by
  intro catalog packages grown
  have hpackages := isImport_of_load_faultyPackage none
  have hclasses := classesSucceed_faultyPackage none
  obtain ⟨hok, hregistered, -⟩ := empty.discover_eq_ok_iff_walk hpackages hclasses
  have hend : ∃ n, (empty.discover catalog packages).2.outcome = .ok n := by
    rw [hok, walk_faultyPackage]
    simp [endsSearch, faultyPackage, failingModule, closedPackage, lastModule,
      RuleModule.refusal, RuleModule.children, Fault.isImport]
  obtain ⟨hgrown, hrules⟩ := hregistered hend
  refine ⟨hpackages, hclasses, hend, hgrown, ?_⟩
  refine hrules lastModule ?_ rfl (silentRule "test.last" []) List.mem_cons_self
  rw [walk_faultyPackage]
  simp

/-- If the module that fails is a package, even an empty one, the search ends with its
fault, and the rule behind it is not registered. -/
theorem discover_faultySubpackage :
    let catalog : Catalog := [faultyPackage (some [])]
    let packages := ["rules", "missing"]
    (∀ name ∈ packages, ∀ fault, catalog.load name = .error fault → fault.isImport = true) ∧
      (∀ m ∈ catalog.walk packages, m.refusal = none → m.rules.ClassesSucceed) ∧
      lastModule ∈ catalog.walk packages ∧ lastModule.refusal = none ∧
      silentRule "test.last" [] ∈ lastModule.listed ∧
      (empty.discover catalog packages).2.outcome = .error (.ruleFailure "boom") ∧
      "test.last" ∉ (empty.discover catalog packages).1.ids := by
  intro catalog packages
  have hwalk := walk_faultyPackage (some [])
  have hids : (empty.discover catalog packages).1.ids = [] := by
    cbv
  refine ⟨isImport_of_load_faultyPackage _, classesSucceed_faultyPackage _, ?_, rfl,
    List.mem_cons_self, ?_, ?_⟩
  · show lastModule ∈ Catalog.walk [faultyPackage (some [])] ["rules", "missing"]
    rw [hwalk]
    simp
  · cbv
  · rw [hids]
    exact List.not_mem_nil

end Registry

end StrictEquality
