import StrictEquality.Policy

/-!
# Registered policies

Registering a policy may replace one of the same name but never takes a name away. So
what a configuration named when it was read can still be found when a rule runs.

## Main definitions

- `Policies.registerAll` — register policies one after another
-/

namespace StrictEquality

namespace Policies

def registerAll (policies : Policies) (registered : List Policy) : Policies :=
  registered.foldl register policies

theorem registerAll_append (policies : Policies) (registered later : List Policy) :
    policies.registerAll (registered ++ later) =
      (policies.registerAll registered).registerAll later :=
  List.foldl_append

theorem mem_names {policies : Policies} {name : String} :
    name ∈ policies.names ↔ ∃ policy ∈ policies, policy.name = name := by
  rw [names, (List.mergeSort_perm _ _).mem_iff, List.mem_map]

theorem exists_find?_of_mem_names {policies : Policies} {name : String}
    (h : name ∈ policies.names) : ∃ policy, policies.find? name = some policy := by
  obtain ⟨policy, hmem, hname⟩ := mem_names.mp h
  apply Option.isSome_iff_exists.mp
  rw [find?, List.find?_isSome]
  exact ⟨policy, hmem, beq_iff_eq.mpr hname⟩

theorem mem_names_register {policies : Policies} {policy : Policy} {name : String} :
    name ∈ (policies.register policy).names ↔ name ∈ policies.names ∨ name = policy.name := by
  rw [mem_names, mem_names]
  induction policies with
  | nil => simp [register, eq_comm]
  | cons p rest ih =>
    rw [register]
    split
    · next hsame =>
      -- the new policy takes the place of one with its name
      have hname : p.name = policy.name := beq_iff_eq.mp hsame
      simp only [List.mem_cons, exists_eq_or_imp, hname]
      constructor
      · exact .inl
      · rintro (h | h)
        · exact h
        · exact .inl h.symm
    · simp only [List.mem_cons, exists_eq_or_imp, ih, or_assoc]

/-- Registering policies takes no name away. -/
theorem mem_names_registerAll {policies : Policies} {name : String}
    (h : name ∈ policies.names) (registered : List Policy) :
    name ∈ (policies.registerAll registered).names := by
  induction registered generalizing policies with
  | nil => exact h
  | cons policy rest ih => exact ih (mem_names_register.mpr (.inl h))

/-- The default policy is always registered. -/
theorem defaultName_mem_names (registered : List Policy) :
    Policy.defaultName ∈ (builtin.registerAll registered).names :=
  mem_names_registerAll (mem_names.mpr ⟨.lattice, List.mem_cons_self, rfl⟩) registered

/-- So is the conservative policy. -/
theorem conservative_mem_names (registered : List Policy) :
    "conservative" ∈ (builtin.registerAll registered).names :=
  mem_names_registerAll (mem_names.mpr ⟨.conservative, by simp [builtin], rfl⟩) registered

theorem named_of_find? {policies : Policies} {name : String} {policy : Policy}
    (h : policies.find? name = some policy) : policies.named name = .ok policy := by
  rw [named, h]

end Policies

end StrictEquality
