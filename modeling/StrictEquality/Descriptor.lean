import StrictEquality.Atomic

/-!
# Type descriptors

The inferred type of one operand: one atomic type or a union of several, and
where it came from.

## Main definitions

- `Provenance` — inferred from code, or read from an annotation
- `TypeDescriptor` — a non-empty union without repetitions
- `TypeDescriptor.ofNonempty`, `TypeDescriptor.ofMembers?` — the union of the given
  members
-/

namespace StrictEquality

/-- Where an operand type came from. -/
inductive Provenance
  | inferred
  | annotated
  deriving DecidableEq, Repr

namespace Provenance

def name : Provenance → String
  | inferred => "inferred"
  | annotated => "annotated"

def ofName? (s : String) : Except Fault Provenance :=
  if s = inferred.name then .ok inferred
  else if s = annotated.name then .ok annotated
  else .error (.unknownProvenance s)

end Provenance

theorem nodup_eraseDups {α : Type} [BEq α] [LawfulBEq α] (xs : List α) : xs.eraseDups.Nodup := by
  match xs with
  | [] => simp
  | x :: rest =>
    rw [List.eraseDups_cons, List.nodup_cons]
    refine ⟨?_, nodup_eraseDups _⟩
    rw [List.mem_eraseDups]
    simp
termination_by xs.length
decreasing_by exact Nat.lt_succ_of_le (List.length_filter_le _ _)

theorem eraseDups_ne_nil {α : Type} [BEq α] {xs : List α} (h : xs ≠ []) : xs.eraseDups ≠ [] := by
  cases xs with
  | nil => exact absurd rfl h
  | cons x rest => rw [List.eraseDups_cons]; simp

/-- The type of one operand: its members in the order of declaration, each once. -/
structure TypeDescriptor where
  members : List Atomic
  provenance : Provenance := .inferred
  members_ne_nil : members ≠ []
  members_nodup : members.Nodup
  deriving DecidableEq

namespace TypeDescriptor

/-- The union of at least one member, repetitions dropped. -/
def ofNonempty (members : List Atomic) (h : members ≠ []) (provenance : Provenance := .inferred) :
    TypeDescriptor where
  members := members.eraseDups
  provenance := provenance
  members_ne_nil := eraseDups_ne_nil h
  members_nodup := nodup_eraseDups members

/-- The union of the given members, repetitions dropped. -/
def ofMembers? (members : List Atomic) (provenance : Provenance := .inferred) :
    Except Fault TypeDescriptor :=
  if h : members = [] then .error .emptyType else .ok (ofNonempty members h provenance)

/-- Whether the type has one member only. -/
def isSingle (t : TypeDescriptor) : Bool :=
  t.members.length == 1

/-- Whether the type was read from an annotation. -/
def isAnnotated (t : TypeDescriptor) : Bool :=
  t.provenance == .annotated

/-- The last member, the only one of a type that has one. -/
def single (t : TypeDescriptor) : Atomic :=
  t.members.getLast t.members_ne_nil

@[simp]
theorem mem_members_ofNonempty {members : List Atomic} {h : members ≠ []} {provenance : Provenance}
    {a : Atomic} : a ∈ (ofNonempty members h provenance).members ↔ a ∈ members :=
  List.mem_eraseDups

@[simp]
theorem isAnnotated_ofNonempty {members : List Atomic} {h : members ≠ []}
    {provenance : Provenance} :
    (ofNonempty members h provenance).isAnnotated = (provenance == .annotated) :=
  rfl

theorem single_mem (t : TypeDescriptor) : t.single ∈ t.members :=
  List.getLast_mem t.members_ne_nil

/-- A type is single when all its members are one and the same. -/
theorem isSingle_iff (t : TypeDescriptor) : t.isSingle = true ↔ ∃ a, ∀ x ∈ t.members, x = a := by
  obtain ⟨a, rest, hcons⟩ := List.exists_cons_of_ne_nil t.members_ne_nil
  have hnodup : (a :: rest).Nodup := hcons ▸ t.members_nodup
  rw [isSingle, hcons]
  cases rest with
  | nil => simp
  | cons b rest =>
    have hne : a ≠ b := fun hab => (List.nodup_cons.mp hnodup).1 (hab ▸ List.mem_cons_self)
    constructor
    · intro h
      simp at h
    · rintro ⟨c, hall⟩
      exact absurd ((hall a (by simp)).trans (hall b (by simp)).symm) hne

/-- How messages show a type. -/
def text (t : TypeDescriptor) : String :=
  "|".intercalate (t.members.map Atomic.text)

end TypeDescriptor

end StrictEquality
