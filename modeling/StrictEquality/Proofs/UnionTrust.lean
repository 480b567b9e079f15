import StrictEquality.Proofs.LatticeVerdict

/-!
# What the union rules trust

The union rules accept two sides as a whole. Behind that stands, for every pair of
members, one of each side, that the table of the lattice policy accepts the pair, except
where strings meet a kind that the table has no row for.

## Main definitions

- `StringWithHandle` — a string and a callable, a resource or a closed resource
- `NonEmptyStringsWithNull` — a string and null, where the side of the string has strings
  only and one that is not empty
- `Kind.coerced` — the kinds that loose comparison turns into one another

Main statement: `compatible_of_unionCompatible`.
-/

namespace StrictEquality

open Kind

/-- A string and a callable, a resource or a closed resource. -/
def StringWithHandle (a b : Atomic) : Prop :=
  a.isStringLike = true ∧ b.kind ∈ [Kind.callable, .resource, .closedResource]

/-- A member of a side that has strings only, one of them known to be non-empty, and
null. -/
def NonEmptyStringsWithNull (side : List Atomic) (a b : Atomic) : Prop :=
  a.isStringLike = true ∧ b.kind = .null ∧
    (∀ x ∈ side, x.isStringLike = true) ∧ ∃ x ∈ side, x.kind = .nonEmptyString

namespace Kind

/-- The numbers and the booleans, which loose comparison turns into one another. -/
def coerced : List Kind := [int, float, bool]

theorem SafePair.symm {k l : Kind} (h : SafePair k l) : SafePair l k := by
  revert h
  cases k <;> cases l <;> decide

/-- Two kinds of one plain family are an accepted pair. -/
theorem safePair_of_plainFamily {family : List Kind} (h : family ∈ plainFamilies) {k l : Kind}
    (hk : k ∈ family) (hl : l ∈ family) : SafePair k l := by
  have hall : ∀ family ∈ plainFamilies, ∀ k ∈ family, ∀ l ∈ family, SafePair k l := by
    decide
  exact hall family h k hk l hl

/-- Strings, arrays and objects are an accepted pair with any string. -/
theorem safePair_of_mem_strings {k l : Kind} (hk : k ∈ strings)
    (hl : l ∈ strings ++ arrays ++ objects) : SafePair k l := by
  have hall : ∀ k ∈ strings, ∀ l ∈ strings ++ arrays ++ objects, SafePair k l := by
    decide
  exact hall k hk l hl

theorem eq_of_plainFamily_of_coerced {family : List Kind} (h : family ∈ plainFamilies)
    {k l : Kind} (hcoerced : k ∈ coerced) (hk : k ∈ family) (hl : l ∈ family) : l = k := by
  have hall : ∀ family ∈ plainFamilies, ∀ k ∈ coerced, k ∈ family → ∀ l ∈ family, l = k := by
    decide
  exact hall family h k hcoerced hk l hl

end Kind

theorem OneFamily.safePair {l r : List Atomic} (h : OneFamily l r) {a b : Atomic} (ha : a ∈ l)
    (hb : b ∈ r) : SafePair a.kind b.kind := by
  obtain ⟨family, hfamily, hall⟩ := h
  exact safePair_of_plainFamily hfamily (hall a (List.mem_append_left _ ha))
    (hall b (List.mem_append_right _ hb))

/-- The table accepts a string and a member that is safe against strings, or the two are
a pair that only the rule for strings knows. -/
theorem StringsAgainst.safePair_or {l r : List Atomic} (h : StringsAgainst l r) {a b : Atomic}
    (ha : a ∈ l) (hb : b ∈ r) :
    SafePair a.kind b.kind ∨ StringWithHandle a b ∨ NonEmptyStringsWithNull l a b := by
  obtain ⟨hstrings, hsafe⟩ := h
  have hlike : ∀ x ∈ l, x.isStringLike = true :=
    fun x hx => (isStringLike_iff x.kind).mpr (hstrings x hx)
  rcases hsafe b hb with hkind | ⟨hnull, hnonEmpty⟩
  · rcases List.mem_append.mp hkind with htable | hhandle
    · exact .inl (safePair_of_mem_strings (hstrings a ha) htable)
    · exact .inr (.inl ⟨hlike a ha, hhandle⟩)
  · exact .inr (.inr ⟨hlike a ha, hnull, hlike, hnonEmpty⟩)

/-- No number and no boolean occurs where strings are compared with what is safe against
them. -/
theorem StringsAgainst.not_coerced {l r : List Atomic} (h : StringsAgainst l r) :
    ∀ m ∈ l ++ r, m.kind ∉ coerced := by
  have hleft : ∀ k ∈ strings, k ∉ coerced := by decide
  have hright : ∀ k ∈ strings ++ arrays ++ objects ++ [.callable, .resource, .closedResource],
      k ∉ coerced := by
    decide
  obtain ⟨hstrings, hsafe⟩ := h
  intro m hm
  rcases List.mem_append.mp hm with hm | hm
  · exact hleft _ (hstrings m hm)
  · rcases hsafe m hm with hkind | ⟨hnull, -⟩
    · exact hright _ hkind
    · rw [hnull]
      decide

/-- A number or a boolean occurs in accepted unions only among members of its own kind. -/
theorem kind_eq_of_coerced {l r : List Atomic}
    (h : OneFamily l r ∨ StringsAgainst l r ∨ StringsAgainst r l) {m x : Atomic}
    (hcoerced : m.kind ∈ coerced) (hm : m ∈ l ++ r) (hx : x ∈ l ++ r) : x.kind = m.kind := by
  rcases h with ⟨family, hfamily, hall⟩ | hagainst | hagainst
  · exact eq_of_plainFamily_of_coerced hfamily hcoerced (hall m hm) (hall x hx)
  · exact absurd hcoerced (hagainst.not_coerced m hm)
  · have hm : m ∈ r ++ l := List.mem_append.mpr (List.mem_append.mp hm).symm
    exact absurd hcoerced (hagainst.not_coerced m hm)

/-- **Unions are trusted no further than pairs.** Where the union rules accept two sides,
the table of the lattice policy accepts every member of the one with every member of the
other, unless a string meets a callable or a resource, or null meets strings of which one
is known to be non-empty. A number or a boolean on either side means that all members are
of its kind. -/
theorem compatible_of_unionCompatible {first second : List Atomic} (hfirst : first ≠ [])
    (hsecond : second ≠ []) (h : unionCompatible first second = true) :
    (∀ a ∈ first, ∀ b ∈ second,
      compatible latticeRules a b = true ∨
        (StringWithHandle a b ∨ StringWithHandle b a) ∨
          (NonEmptyStringsWithNull first a b ∨ NonEmptyStringsWithNull second b a)) ∧
      ∀ kind ∈ coerced, ∀ m ∈ first ++ second, m.kind = kind →
        ∀ x ∈ first ++ second, x.kind = kind := by
  have haccepted := (unionCompatible_iff hfirst hsecond).mp h
  refine ⟨?_, ?_⟩
  · intro a ha b hb
    rw [compatible_latticeRules_iff]
    rcases haccepted with hfamily | hagainst | hagainst
    · exact .inl (hfamily.safePair ha hb)
    · rcases hagainst.safePair_or ha hb with hsafe | hhandle | hnull
      · exact .inl hsafe
      · exact .inr (.inl (.inl hhandle))
      · exact .inr (.inr (.inl hnull))
    · -- the strings are on the second side, so the pair is turned round
      rcases hagainst.safePair_or hb ha with hsafe | hhandle | hnull
      · exact .inl hsafe.symm
      · exact .inr (.inl (.inr hhandle))
      · exact .inr (.inr (.inr hnull))
  · rintro kind hkind m hm rfl x hx
    exact kind_eq_of_coerced haccepted hkind hm hx

/-- A string that may be empty and one that is not, against null, an array and a
callable. -/
theorem compatible_of_unionCompatible_nullable :
    let first : List Atomic := [{ kind := .string }, { kind := .nonEmptyString }]
    let second : List Atomic :=
      [{ kind := .null }, { kind := .keyedArray, shape := "array{id: int}" }, { kind := .callable }]
    first ≠ [] ∧ second ≠ [] ∧ unionCompatible first second = true ∧
      (∀ a ∈ first, ∀ b ∈ second,
        compatible latticeRules a b = true ∨
          (StringWithHandle a b ∨ StringWithHandle b a) ∨
            (NonEmptyStringsWithNull first a b ∨ NonEmptyStringsWithNull second b a)) ∧
        ∀ kind ∈ coerced, ∀ m ∈ first ++ second, m.kind = kind →
          ∀ x ∈ first ++ second, x.kind = kind := by
  intro first second
  have hfirst : first ≠ [] := by simp [first]
  have hsecond : second ≠ [] := by simp [second]
  have haccepted : unionCompatible first second = true := by decide
  exact ⟨hfirst, hsecond, haccepted, compatible_of_unionCompatible hfirst hsecond haccepted⟩

end StrictEquality
