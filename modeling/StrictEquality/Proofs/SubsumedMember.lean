import StrictEquality.Proofs.UnionWalk

/-!
# Subsumed members of a union

A member that is a special case of another one of its side adds no value to the union.
The union rules give the same verdict without it, with one exception: plain strings do
not compare with null as strict comparison does, and the walk over them takes the first
non-empty string as a sign that they do.

## Main definitions

- `LicensesNull` — a member is the first non-empty string of its side, and the other side
  has null

Main statement: `unionCompatible_append_of_isA`.
-/

namespace StrictEquality

open Kind

namespace Kind

/-- The kinds that compare with every string as strict comparison does. -/
def stringSafe : List Kind := strings ++ arrays ++ objects ++ [callable, resource, closedResource]

/-- A special case of a kind of a plain family is in that family. -/
theorem mem_plainFamily_of_isA {family : List Kind} (hfamily : family ∈ plainFamilies)
    {k l : Kind} (h : k.isA l = true) (hl : l ∈ family) : k ∈ family := by
  have hall : ∀ family ∈ plainFamilies, ∀ l ∈ family, ∀ k ∈ all, k.isA l = true → k ∈ family := by
    decide
  exact hall family hfamily l hl k (mem_all k) h

theorem mem_stringSafe_of_isA {k l : Kind} (h : k.isA l = true) (hl : l ∈ stringSafe) :
    k ∈ stringSafe := by
  have hall : ∀ l ∈ stringSafe, ∀ k ∈ all, k.isA l = true → k ∈ stringSafe := by
    decide
  exact hall l hl k (mem_all k) h

/-- Null has no special cases but itself. -/
theorem eq_null_of_isA {k : Kind} (h : k.isA null = true) : k = null := by
  revert h
  cases k <;> decide

theorem strings_mem_plainFamilies : strings ∈ plainFamilies := by
  decide

/-- A string that is not known to be non-empty is a plain one. -/
theorem eq_string_of_mem_strings {k : Kind} (h : k ∈ strings) (hne : k ≠ nonEmptyString) :
    k = string := by
  rcases List.mem_cons.mp h with hplain | hnonEmpty
  · exact hplain
  · exact absurd (List.mem_singleton.mp hnonEmpty) hne

end Kind

/-- A member is a non-empty string that joins plain strings only, and the other side has
null, and apart from it only what is safe against strings. -/
structure LicensesNull (side : List Atomic) (m : Atomic) (other : List Atomic) : Prop where
  nonEmpty : m.kind = .nonEmptyString
  plain : ∀ a ∈ side, a.kind = .string
  null : ∃ b ∈ other, b.kind = .null
  safe : ∀ b ∈ other, b.kind ∈ stringSafe ∨ b.kind = .null

variable {side other : List Atomic} {m x : Atomic}

theorem oneFamily_append_iff (hx : x ∈ side) (h : m.isA x = true) :
    OneFamily (side ++ [m]) other ↔ OneFamily side other := by
  constructor
  · rintro ⟨family, hfamily, hall⟩
    refine ⟨family, hfamily, ?_⟩
    intro a ha
    apply hall
    rw [List.mem_append] at ha ⊢
    exact ha.imp_left (List.mem_append_left _)
  · rintro ⟨family, hfamily, hall⟩
    refine ⟨family, hfamily, ?_⟩
    intro a ha
    have hmember : m.kind ∈ family :=
      mem_plainFamily_of_isA hfamily h (hall x (List.mem_append_left _ hx))
    simp only [List.mem_append, List.mem_singleton] at ha
    rcases ha with (hside | rfl) | hother
    · exact hall a (List.mem_append_left _ hside)
    · exact hmember
    · exact hall a (List.mem_append_right _ hother)

/-- A subsumed member of the side that strings are compared with changes nothing. -/
theorem stringsAgainst_append_right_iff (hx : x ∈ side) (h : m.isA x = true) :
    StringsAgainst other (side ++ [m]) ↔ StringsAgainst other side := by
  constructor
  · rintro ⟨hstrings, hsafe⟩
    exact ⟨hstrings, fun a ha => hsafe a (List.mem_append_left _ ha)⟩
  · rintro ⟨hstrings, hsafe⟩
    refine ⟨hstrings, ?_⟩
    intro a ha
    rcases List.mem_append.mp ha with hside | hnew
    · exact hsafe a hside
    · obtain rfl := List.mem_singleton.mp hnew
      rcases hsafe x hx with hkind | ⟨hnull, hnonEmpty⟩
      · exact .inl (mem_stringSafe_of_isA h hkind)
      · have hisNull : a.kind = .null := by
          apply eq_null_of_isA
          rw [← hnull]
          exact h
        exact .inr ⟨hisNull, hnonEmpty⟩

theorem StringsAgainst.append_left (hagainst : StringsAgainst side other) (hx : x ∈ side)
    (h : m.isA x = true) : StringsAgainst (side ++ [m]) other := by
  obtain ⟨hstrings, hsafe⟩ := hagainst
  refine ⟨?_, ?_⟩
  · intro a ha
    rcases List.mem_append.mp ha with hold | hnew
    · exact hstrings a hold
    · rw [List.mem_singleton.mp hnew]
      exact mem_plainFamily_of_isA strings_mem_plainFamilies h (hstrings x hx)
  · intro b hb
    refine (hsafe b hb).imp_right ?_
    rintro ⟨hnull, a, ha, hnonEmpty⟩
    exact ⟨hnull, a, List.mem_append_left _ ha, hnonEmpty⟩

theorem LicensesNull.stringsAgainst (hlicenses : LicensesNull side m other) :
    StringsAgainst (side ++ [m]) other := by
  refine ⟨?_, ?_⟩
  · intro a ha
    rcases List.mem_append.mp ha with hold | hnew
    · rw [hlicenses.plain a hold]
      decide
    · rw [List.mem_singleton.mp hnew, hlicenses.nonEmpty]
      decide
  · intro b hb
    refine (hlicenses.safe b hb).imp_right ?_
    intro hnull
    exact ⟨hnull, m, List.mem_append_right _ List.mem_cons_self, hlicenses.nonEmpty⟩

/-- A string changes what its side is compatible with only if it is the first one that is
known to be non-empty. -/
theorem StringsAgainst.of_append_left (hagainst : StringsAgainst (side ++ [m]) other) :
    StringsAgainst side other ∨ LicensesNull side m other := by
  obtain ⟨hstrings, hsafe⟩ := hagainst
  have hside : ∀ a ∈ side, a.kind ∈ strings :=
    fun a ha => hstrings a (List.mem_append_left _ ha)
  by_cases hbefore : ∃ a ∈ side, a.kind = .nonEmptyString
  · -- what was licensed with the member was licensed without it
    refine .inl ⟨hside, ?_⟩
    intro b hb
    exact (hsafe b hb).imp_right fun hnull => ⟨hnull.1, hbefore⟩
  · have hplain : ∀ a ∈ side, a.kind = .string := by
      intro a ha
      exact eq_string_of_mem_strings (hside a ha) fun hkind => hbefore ⟨a, ha, hkind⟩
    by_cases hnull : ∃ b ∈ other, b.kind = .null ∧ ∃ a ∈ side ++ [m], a.kind = .nonEmptyString
    · obtain ⟨b, hb, hkind, a, ha, hnonEmpty⟩ := hnull
      have hnew : a = m := by
        rcases List.mem_append.mp ha with hold | hnew
        · exact absurd ⟨a, hold, hnonEmpty⟩ hbefore
        · exact List.mem_singleton.mp hnew
      rw [hnew] at hnonEmpty
      exact .inr ⟨hnonEmpty, hplain, ⟨b, hb, hkind⟩, fun b hb => (hsafe b hb).imp_right And.left⟩
    · -- no null is there to be licensed
      refine .inl ⟨hside, ?_⟩
      intro b hb
      exact (hsafe b hb).imp_right fun hfound => absurd ⟨b, hb, hfound⟩ hnull

theorem stringsAgainst_append_left_iff (hx : x ∈ side) (h : m.isA x = true) :
    StringsAgainst (side ++ [m]) other ↔ StringsAgainst side other ∨ LicensesNull side m other := by
  constructor
  · exact StringsAgainst.of_append_left
  · rintro (hagainst | hlicenses)
    · exact hagainst.append_left hx h
    · exact hlicenses.stringsAgainst

/-- Strings that meet null are trusted only if one of them is known to be non-empty. -/
theorem exists_nonEmptyString_of_unionCompatible (hside : side ≠ []) (hother : other ≠ [])
    (h : unionCompatible side other = true) {a b : Atomic} (ha : a ∈ side)
    (hstring : a.kind = .string) (hb : b ∈ other) (hnull : b.kind = .null) :
    ∃ x ∈ side, x.kind = .nonEmptyString := by
  rcases (unionCompatible_iff hside hother).mp h with ⟨family, hfamily, hall⟩ | hagainst | hagainst
  · -- no plain family has both a string and null
    have hapart : ∀ family ∈ plainFamilies, string ∈ family → null ∉ family := by decide
    have hstring' := hall a (List.mem_append_left _ ha)
    have hnull' := hall b (List.mem_append_right _ hb)
    rw [hstring] at hstring'
    rw [hnull] at hnull'
    exact absurd hnull' (hapart family hfamily hstring')
  · rcases hagainst.2 b hb with hsafe | ⟨-, hfound⟩
    · rw [hnull] at hsafe
      exact absurd hsafe (by decide)
    · exact hfound
  · have hstrings := hagainst.1 b hb
    rw [hnull] at hstrings
    exact absurd hstrings (by decide)

/-- The exception is one: before the member came the two sides were not compatible. -/
theorem LicensesNull.not_unionCompatible (hlicenses : LicensesNull side m other)
    (hside : side ≠ []) (hother : other ≠ []) : unionCompatible side other = false := by
  obtain ⟨a, ha⟩ := List.exists_mem_of_ne_nil side hside
  obtain ⟨b, hb, hnull⟩ := hlicenses.null
  rw [← Bool.not_eq_true]
  intro h
  obtain ⟨x, hx, hnonEmpty⟩ := exists_nonEmptyString_of_unionCompatible hside hother h ha
    (hlicenses.plain a ha) hb hnull
  rw [hlicenses.plain x hx] at hnonEmpty
  cases hnonEmpty

theorem unionCompatible_append_iff (hother : other ≠ []) (hx : x ∈ side) (h : m.isA x = true) :
    unionCompatible (side ++ [m]) other = true ↔
      unionCompatible side other = true ∨ LicensesNull side m other := by
  have hside : side ≠ [] := List.ne_nil_of_mem hx
  have hgrown : side ++ [m] ≠ [] := List.append_ne_nil_of_left_ne_nil hside [m]
  rw [unionCompatible_iff hgrown hother, unionCompatible_iff hside hother,
    oneFamily_append_iff hx h, stringsAgainst_append_left_iff hx h,
    stringsAgainst_append_right_iff hx h, or_right_comm (a := StringsAgainst side other)]
  exact or_assoc.symm

/-- Without the exception the verdict stays as it is; with it a refusal is turned into an
acceptance. -/
theorem unionCompatible_append_cases (hside : side ≠ []) (hother : other ≠ []) (hx : x ∈ side)
    (h : m.isA x = true) :
    (¬ LicensesNull side m other →
      unionCompatible (side ++ [m]) other = unionCompatible side other) ∧
    (LicensesNull side m other →
      unionCompatible side other = false ∧ unionCompatible (side ++ [m]) other = true) := by
  have hiff := unionCompatible_append_iff hother hx h
  refine ⟨?_, ?_⟩
  · intro hlicenses
    rw [Bool.eq_iff_iff, hiff]
    exact or_iff_left hlicenses
  · intro hlicenses
    exact ⟨hlicenses.not_unionCompatible hside hother, hiff.mpr (.inr hlicenses)⟩

/-- **A subsumed member leaves the verdict as it is,** on either side, unless it is the
first non-empty string among plain strings and makes null of the other side acceptable.
Plain strings by themselves never do that. -/
theorem unionCompatible_append_of_isA {first second : List Atomic} (hfirst : first ≠ [])
    (hsecond : second ≠ []) :
    (∀ m, ∀ x ∈ first, m.isA x = true →
      (¬ LicensesNull first m second →
        unionCompatible (first ++ [m]) second = unionCompatible first second) ∧
      (LicensesNull first m second →
        unionCompatible first second = false ∧ unionCompatible (first ++ [m]) second = true)) ∧
    (∀ m, ∀ x ∈ second, m.isA x = true →
      (¬ LicensesNull second m first →
        unionCompatible first (second ++ [m]) = unionCompatible first second) ∧
      (LicensesNull second m first →
        unionCompatible first second = false ∧ unionCompatible first (second ++ [m]) = true)) ∧
    (unionCompatible first second = true →
      (∀ a ∈ first, a.kind = .string → ∀ b ∈ second, b.kind = .null →
        ∃ x ∈ first, x.kind = .nonEmptyString) ∧
      (∀ a ∈ second, a.kind = .string → ∀ b ∈ first, b.kind = .null →
        ∃ x ∈ second, x.kind = .nonEmptyString)) := by
  refine ⟨?_, ?_, ?_⟩
  · intro m x hx h
    exact unionCompatible_append_cases hfirst hsecond hx h
  · intro m x hx h
    rw [unionCompatible_comm first, unionCompatible_comm first]
    exact unionCompatible_append_cases hsecond hfirst hx h
  · intro h
    refine ⟨?_, ?_⟩
    · intro a ha hstring b hb hnull
      exact exists_nonEmptyString_of_unionCompatible hfirst hsecond h ha hstring hb hnull
    · intro a ha hstring b hb hnull
      rw [unionCompatible_comm] at h
      exact exists_nonEmptyString_of_unionCompatible hsecond hfirst h ha hstring hb hnull

/-- Null or a list against strings: a keyed array adds nothing to the list, and a non-empty
string, which adds nothing to the strings either, makes null acceptable. -/
theorem unionCompatible_append_of_isA_nullable :
    let plain : Atomic := { kind := .string }
    let nonEmpty : Atomic := { kind := .nonEmptyString }
    let list : Atomic := { kind := .list }
    let array : Atomic := { kind := .keyedArray, shape := "array{id: int}" }
    let nullable : List Atomic := [{ kind := .null }, list]
    (array.isA list = true ∧ ¬ LicensesNull nullable array [plain, nonEmpty] ∧
      unionCompatible [plain, nonEmpty] (nullable ++ [array]) =
        unionCompatible [plain, nonEmpty] nullable) ∧
    (nonEmpty.isA plain = true ∧ LicensesNull [plain] nonEmpty nullable ∧
      unionCompatible [plain] nullable = false ∧
        unionCompatible ([plain] ++ [nonEmpty]) nullable = true) ∧
    unionCompatible [plain, nonEmpty] nullable = true ∧
      ∃ x ∈ [plain, nonEmpty], x.kind = .nonEmptyString := by
  intro plain nonEmpty list array nullable
  have hnullable : nullable ≠ [] := by simp [nullable]
  have hlist : list ∈ nullable := by simp [nullable]
  have hnull : ({ kind := .null } : Atomic) ∈ nullable := by simp [nullable]
  have harray : array.isA list = true := by decide
  have hnonEmpty : nonEmpty.isA plain = true := by decide
  have hadded : ¬ LicensesNull nullable array [plain, nonEmpty] :=
    fun h => Kind.noConfusion h.nonEmpty
  have hlicenses : LicensesNull [plain] nonEmpty nullable :=
    { nonEmpty := rfl
      plain := by simp [plain]
      null := ⟨_, hnull, rfl⟩
      safe := by simp [nullable, list, stringSafe, arrays] }
  have haccepted : unionCompatible [plain, nonEmpty] nullable = true := by decide
  obtain ⟨-, hsecond, hstrings⟩ :=
    unionCompatible_append_of_isA (List.cons_ne_nil plain [nonEmpty]) hnullable
  obtain ⟨hfirst, -, -⟩ := unionCompatible_append_of_isA (List.cons_ne_nil plain []) hnullable
  obtain ⟨hsame, -⟩ := hsecond array list hlist harray
  obtain ⟨-, hturned⟩ := hfirst nonEmpty plain List.mem_cons_self hnonEmpty
  obtain ⟨hfound, -⟩ := hstrings haccepted
  exact ⟨⟨harray, hadded, hsame hadded⟩, ⟨hnonEmpty, hlicenses, hturned hlicenses⟩, haccepted,
    hfound plain List.mem_cons_self rfl _ hnull rfl⟩

/-- A non-empty string is a special case of a plain one, and yet adding it makes a
comparison of plain strings with null acceptable. -/
theorem unionCompatible_append_nonEmptyString :
    let plain : Atomic := { kind := .string }
    let nonEmpty : Atomic := { kind := .nonEmptyString }
    let null : Atomic := { kind := .null }
    nonEmpty.isA plain = true ∧ unionCompatible [plain] [plain, null] = false ∧
      unionCompatible ([plain] ++ [nonEmpty]) [plain, null] = true := by
  decide

end StrictEquality
