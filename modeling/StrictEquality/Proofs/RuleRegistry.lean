import Mathlib.Data.List.Nodup
import StrictEquality.Catalog

/-!
# Registered rules

The registry keeps its rules twice, as a list and as an index by identifier. Every
operation, also a search that a fault ends, keeps the two in agreement, and only
clearing the registry takes a rule away.

## Main definitions

- `Registry.IsIndexed` — identifiers are distinct, and the index agrees with the list
- `Registry.Operation` — what can be done to a registry
- `Registry.runAll` — the registry after some operations, from the empty one

Main statement: `Registry.runAll_isIndexed`.
-/

namespace StrictEquality

namespace RuleIndex

theorem insert_of_not_mem {index : RuleIndex} {id : String} (rule : Rule)
    (h : id ∉ index.map Prod.fst) : index.insert id rule = index ++ [(id, rule)] := by
  induction index with
  | nil => rfl
  | cons e rest ih =>
    rw [List.map_cons, List.mem_cons, not_or] at h
    have hne : ¬ (e.1 == id) = true := fun heq => h.1 (beq_iff_eq.mp heq).symm
    rw [insert, if_neg hne, ih h.2, List.cons_append]

end RuleIndex

namespace Registry

/-- No identifier is registered twice, and the index has each rule under its identifier,
in the order of the list. -/
structure IsIndexed (r : Registry) : Prop where
  nodup : (r.rules.map Rule.id).Nodup
  index_eq : r.index = r.rules.map (fun rule => (rule.id, rule))

theorem empty_isIndexed : empty.IsIndexed where
  nodup := List.nodup_nil
  index_eq := rfl

namespace IsIndexed

variable {r : Registry}

theorem ids_eq (h : r.IsIndexed) : r.ids = r.rules.map Rule.id := by
  rw [ids, h.index_eq, List.map_map]
  rfl

theorem find?_eq (h : r.IsIndexed) (id : String) :
    r.find? id = r.rules.find? (fun rule => rule.id == id) := by
  rw [find?, h.index_eq, List.find?_map, Option.map_map]
  exact Option.map_id'

/-- A look-up finds the one rule with the identifier, and nothing where there is none. -/
theorem find?_eq_some_iff (h : r.IsIndexed) {id : String} {rule : Rule} :
    r.find? id = some rule ↔ rule ∈ r.rules ∧ rule.id = id := by
  rw [h.find?_eq]
  constructor
  · intro hfound
    exact ⟨List.mem_of_find?_eq_some hfound, by simpa using List.find?_some hfound⟩
  · rintro ⟨hmem, rfl⟩
    obtain ⟨found, hfound⟩ : ∃ found, r.rules.find? (fun other => other.id == rule.id) =
        some found := by
      apply Option.isSome_iff_exists.mp
      rw [List.find?_isSome]
      exact ⟨rule, hmem, beq_self_eq_true _⟩
    -- two rules with one identifier would be a repetition in the list
    have hid : found.id = rule.id := by simpa using List.find?_some hfound
    have hsame : found = rule :=
      List.inj_on_of_nodup_map h.nodup (List.mem_of_find?_eq_some hfound) hmem hid
    rw [hfound, hsame]

theorem register (h : r.IsIndexed) (rule : Rule) : (r.register rule).IsIndexed := by
  unfold Registry.register
  split
  · exact h
  · next hnew =>
    -- the check is made on the index, which has the identifiers of the list
    have hkey : rule.id ∉ r.ids := fun hmem => hnew (List.contains_iff_mem.mpr hmem)
    have hid : rule.id ∉ r.rules.map Rule.id := by
      rw [← h.ids_eq]
      exact hkey
    refine ⟨?_, ?_⟩
    · show ((r.rules ++ [rule]).map Rule.id).Nodup
      rw [List.map_append, List.map_singleton, ← List.concat_eq_append]
      exact h.nodup.concat hid
    · show r.index.insert rule.id rule = (r.rules ++ [rule]).map _
      rw [RuleIndex.insert_of_not_mem rule hkey, h.index_eq, List.map_append, List.map_singleton]

theorem registerAll (h : r.IsIndexed) (rules : List Rule) : (r.registerAll rules).IsIndexed := by
  induction rules generalizing r with
  | nil => exact h
  | cons rule rest ih => exact ih (h.register rule)

end IsIndexed

theorem rules_prefix_register (r : Registry) (rule : Rule) :
    r.rules <+: (r.register rule).rules := by
  unfold register
  split
  · exact List.prefix_rfl
  · exact List.prefix_append r.rules [rule]

theorem rules_prefix_registerAll (r : Registry) (rules : List Rule) :
    r.rules <+: (r.registerAll rules).rules := by
  induction rules generalizing r with
  | nil => exact List.prefix_rfl
  | cons rule rest ih => exact (rules_prefix_register r rule).trans (ih (r.register rule))

/-- A search registers the rules it finds, whether it comes to its end or not. -/
theorem discover_fst (r : Registry) (catalog : Catalog) (packages : List String) :
    (r.discover catalog packages).1 = r.registerAll (catalog.survey packages).rules := by
  simp only [discover]
  split <;> rfl

/-- What can be done to a registry. Every search has the modules there are at its time. -/
inductive Operation
  | register (rule : Rule)
  | discover (catalog : Catalog) (packages : List String)
  | clear

/-- The registry after an operation, whether that gives a result or a fault. -/
def apply (r : Registry) : Operation → Registry
  | .register rule => r.register rule
  | .discover catalog packages => (r.discover catalog packages).1
  | .clear => r.clear

/-- The registry after some operations, from the empty one. -/
def runAll (operations : List Operation) : Registry :=
  operations.foldl apply empty

/-- Every operation keeps the list and the index in agreement. -/
theorem IsIndexed.apply {r : Registry} (h : r.IsIndexed) (operation : Operation) :
    (r.apply operation).IsIndexed := by
  cases operation with
  | register rule => exact h.register rule
  | discover catalog packages =>
    rw [Registry.apply, discover_fst]
    exact h.registerAll _
  | clear => exact empty_isIndexed

theorem IsIndexed.foldl_apply {r : Registry} (h : r.IsIndexed) (operations : List Operation) :
    (operations.foldl Registry.apply r).IsIndexed := by
  induction operations generalizing r with
  | nil => exact h
  | cons operation rest ih => exact ih (h.apply operation)

/-- Only clearing takes rules away or changes their order. -/
theorem rules_prefix_apply (r : Registry) {operation : Operation} (h : operation ≠ .clear) :
    r.rules <+: (r.apply operation).rules := by
  cases operation with
  | register rule => exact rules_prefix_register r rule
  | discover catalog packages =>
    rw [apply, discover_fst]
    exact rules_prefix_registerAll r _
  | clear => exact absurd rfl h

/-- **The list and the index of a registry are two forms of the same rules,** after any
operations. Identifiers are distinct, look-up finds the one rule with an identifier, and
what is registered stays in its place, under its identifier, until the registry is
cleared. -/
theorem runAll_isIndexed (operations : List Operation) :
    let r := runAll operations
    (r.rules.map Rule.id).Nodup ∧ r.ids = r.rules.map Rule.id ∧
      (∀ id rule, r.find? id = some rule ↔ rule ∈ r.rules ∧ rule.id = id) ∧
      ∀ operation : Operation, operation ≠ .clear →
        r.rules <+: (r.apply operation).rules ∧
          ∀ id rule, r.find? id = some rule → (r.apply operation).find? id = some rule := by
  intro r
  have h : r.IsIndexed := empty_isIndexed.foldl_apply operations
  refine ⟨h.nodup, h.ids_eq, fun _ _ => h.find?_eq_some_iff, ?_⟩
  intro operation hkeeps
  have hkept := rules_prefix_apply r hkeeps
  refine ⟨hkept, ?_⟩
  intro id rule hfound
  obtain ⟨hmem, hid⟩ := h.find?_eq_some_iff.mp hfound
  exact (h.apply operation).find?_eq_some_iff.mpr ⟨hkept.subset hmem, hid⟩

/-- A rule that reports nothing. -/
def silentRule (id : String) (langs : List String) : Rule where
  about := { id, langs }
  visit ctx := { findings := [], comparisons := ctx.comparisons }

/-- A module with two rules, a class that fails, and one more rule. -/
def failingCatalog : Catalog :=
  [.mk "rules" (.list [.rule (silentRule "test.first" ["php"]), .rule (silentRule "test.second" []),
    .ruleClass (.error (.ruleFailure "boom")), .rule (silentRule "test.third" [])]) none none]

/-- A search that finds another rule of a registered identifier and is then ended by a
class that fails. -/
theorem runAll_isIndexed_interrupted :
    let rule := silentRule "test.first" []
    let r := runAll [.register rule]
    let search := Operation.discover failingCatalog ["rules"]
    (r.discover failingCatalog ["rules"]).2.outcome = .error (.ruleFailure "boom") ∧
      (r.apply search).ids = ["test.first", "test.second"] ∧ search ≠ .clear ∧
      r.rules <+: (r.apply search).rules ∧ r.find? "test.first" = some rule ∧
      (r.apply search).find? "test.first" = some rule := by
  intro rule r search
  have hkeeps : search ≠ .clear := Operation.noConfusion
  have hfound : r.find? "test.first" = some rule := rfl
  obtain ⟨-, -, -, hsearch⟩ := runAll_isIndexed [.register rule]
  obtain ⟨hkept, hfirst⟩ := hsearch search hkeeps
  exact ⟨rfl, by decide, hkeeps, hkept, hfound, hfirst _ _ hfound⟩

end Registry

end StrictEquality
