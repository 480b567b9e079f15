import StrictEquality.Proofs.MappingKeys
import StrictEquality.Yaml.Document

/-!
# Keys in documents

However deep it is nested, each mapping in a document that is read has distinct keys. A
document with a collection for a key is not read at all, and of entries under one key,
merged in or written, only one stays.

## Main definitions

- `Value.IsWellKeyed` — all mappings in a value have distinct keys

Main statement: `Yaml.isWellKeyed_of_read`.
-/

namespace StrictEquality

/-- All mappings in a value have distinct keys. -/
inductive Value.IsWellKeyed : Value → Prop
  | scalar {v : Value} (h : v.isKey = true) : IsWellKeyed v
  | list {items : List Value} (h : ∀ v ∈ items, IsWellKeyed v) : IsWellKeyed (.list items)
  | map {entries : Entries} (hkeys : entries.HasDistinctKeys)
      (hvalues : ∀ e ∈ entries, IsWellKeyed e.2) : IsWellKeyed (.map entries)
  | set (items : List Value) : IsWellKeyed (.set items)

namespace Value.IsWellKeyed

variable {entries : Entries}

theorem distinctKeys (h : IsWellKeyed (.map entries)) : entries.HasDistinctKeys := by
  cases h with
  | scalar h => cases h
  | map hkeys hvalues => exact hkeys

theorem of_mem (h : IsWellKeyed (.map entries)) {e : Value × Value} (he : e ∈ entries) :
    e.2.IsWellKeyed := by
  cases h with
  | scalar h => cases h
  | map hkeys hvalues => exact hvalues e he

end Value.IsWellKeyed

/-- The key may be one, and the mappings in the value have distinct keys. -/
def IsGoodEntry (e : Value × Value) : Prop :=
  e.1.isKey = true ∧ e.2.IsWellKeyed

/-- Entries one after another make a mapping with distinct keys. -/
theorem Entries.isWellKeyed_ofPairs {pairs : List (Value × Value)}
    (h : ∀ e ∈ pairs, IsGoodEntry e) : (Value.map (Entries.ofPairs pairs)).IsWellKeyed := by
  have hvalues : ∀ acc : Entries, (∀ e ∈ acc, e.2.IsWellKeyed) →
      ∀ e ∈ acc.merge pairs, e.2.IsWellKeyed := by
    induction pairs with
    | nil => exact fun acc hacc => hacc
    | cons first rest ih =>
      intro acc hacc
      refine ih (fun e he => h e (List.mem_cons_of_mem _ he)) _ ?_
      intro e he
      rcases Entries.mem_insert he with hold | ⟨hvalue, -⟩
      · exact hacc e hold
      · rw [hvalue]
        exact (h first List.mem_cons_self).2
  refine .map ?_ (hvalues [] (by simp))
  rw [Entries.ofPairs, Entries.merge_eq_updateAll]
  exact Entries.HasDistinctKeys.nil.updateAll fun e he => (h e he).1

namespace Yaml

/-- Unless there are faults the value has distinct keys. -/
def IsGoodValue (built : Value × List Found) : Prop :=
  built.2 = [] → built.1.IsWellKeyed

theorem isKey_of_map {α : Type} {r : Except Fault α} {f : α → Value} {v : Value}
    (hf : ∀ a, (f a).isKey = true) (h : f <$> r = .ok v) : v.isKey = true := by
  cases r with
  | ok a =>
    obtain rfl := Except.ok.inj h
    exact hf a
  | error fault => cases h

theorem isKey_of_scalarValue {tag : Tag} {text : String} {v : Value}
    (h : scalarValue tag text = .ok v) : v.isKey = true := by
  unfold scalarValue at h
  split at h
  · obtain rfl := Except.ok.inj h
    rfl
  · exact isKey_of_map (fun _ => rfl) h
  · exact isKey_of_map (fun _ => rfl) h
  · exact isKey_of_map (fun _ => rfl) h
  · obtain rfl := Except.ok.inj h
    rfl
  · cases h

theorem isGoodValue_misfit (level : Nat) (tag : Tag) : IsGoodValue (misfit level tag) := by
  intro h
  cases h

theorem isGoodValue_buildText (level : Nat) (tag : Tag) (text : Option String) :
    IsGoodValue (buildText level tag text) := by
  unfold buildText
  split
  · split
    · exact isGoodValue_misfit level tag
    · split
      · next hv => exact fun _ => .scalar (isKey_of_scalarValue hv)
      · intro h
        cases h
  · exact isGoodValue_misfit level tag

namespace BuiltEntries

/-- Unless there are faults the entries are good. -/
def IsGood (b : BuiltEntries) : Prop :=
  b.faults = [] → ∀ e ∈ b.all, IsGoodEntry e

theorem faults_eq_nil_iff {b : BuiltEntries} :
    b.faults = [] ↔ b.mergeFaults = [] ∧ b.mergedFaults = [] ∧ b.ownFaults = [] := by
  simp [faults, entryFaults]

theorem mem_all {b : BuiltEntries} {e : Value × Value} :
    e ∈ b.all ↔ e ∈ b.merged ∨ e ∈ b.own :=
  List.mem_append

theorem isGood_empty : IsGood {} := by
  intro _ e he
  cases he

theorem isGood_unmergeable (level : Nat) : (unmergeable level).IsGood := by
  intro h
  cases h

theorem IsGood.put {b : BuiltEntries} (hb : b.IsGood) (level : Nat)
    (key : Value × List Found) {value : Value × List Found} (hvalue : IsGoodValue value) :
    (b.put level key value).IsGood := by
  intro h e he
  obtain ⟨hmerge, hmerged, hown⟩ := faults_eq_nil_iff.mp h
  obtain ⟨-, hkey, hvalue', hown⟩ :
      key.2 = [] ∧ key.1.isKey = true ∧ value.2 = [] ∧ b.ownFaults = [] := by
    simpa [BuiltEntries.put] using hown
  have hbefore := hb (faults_eq_nil_iff.mpr ⟨hmerge, hmerged, hown⟩)
  rcases mem_all.mp he with hold | hnew
  · exact hbefore e (mem_all.mpr (.inl hold))
  · rcases List.mem_cons.mp hnew with rfl | hold
    · exact ⟨hkey, hvalue hvalue'⟩
    · exact hbefore e (mem_all.mpr (.inr hold))

theorem IsGood.mergeIn {b other : BuiltEntries} (hb : b.IsGood) (hother : other.IsGood) :
    (b.mergeIn other).IsGood := by
  intro h e he
  obtain ⟨hmerge, hmerged, hown⟩ := faults_eq_nil_iff.mp h
  obtain ⟨hmergeOther, hmerge⟩ := List.append_eq_nil_iff.mp hmerge
  obtain ⟨hentriesOther, hmerged⟩ := List.append_eq_nil_iff.mp hmerged
  have hbefore := hb (faults_eq_nil_iff.mpr ⟨hmerge, hmerged, hown⟩)
  have hthere := hother (List.append_eq_nil_iff.mpr ⟨hmergeOther, hentriesOther⟩)
  rcases mem_all.mp he with hin | hold
  · rcases List.mem_append.mp hin with hnew | hold
    · exact hthere e hnew
    · exact hbefore e (mem_all.mpr (.inl hold))
  · exact hbefore e (mem_all.mpr (.inr hold))

end BuiltEntries

namespace Node

open BuiltEntries

/-- Mappings that are merged in have no entries of the mapping's own. -/
theorem ownFaults_buildMergedItems (level : Nat) (items : List Node) :
    (buildMergedItems level items).ownFaults = [] := by
  cases items <;> rw [buildMergedItems]

mutual

theorem isGoodValue_build (level : Nat) : ∀ n : Node, IsGoodValue (n.build level)
  | scalar tag text => by
    rw [build]
    exact isGoodValue_buildText level tag (some text)
  | sequence tag items => by
    unfold build
    split
    · rw [buildItems]
      intro h
      refine .list ?_
      intro v hv
      obtain ⟨built, hbuilt, rfl⟩ := List.mem_map.mp hv
      exact isGoodValue_buildEach (level + 1) items built hbuilt
        (List.flatMap_eq_nil_iff.mp h built hbuilt)
    · exact isGoodValue_misfit level tag
  | mapping tag entries => by
    unfold build
    split
    · exact fun h => Entries.isWellKeyed_ofPairs (isGood_buildEntries (level + 1) entries h)
    · exact fun _ => .set _
    · exact isGoodValue_buildText level tag _

theorem isGoodValue_buildEach (level : Nat) :
    ∀ items : List Node, ∀ built ∈ buildEach level items, IsGoodValue built
  | [] => by
    rw [buildEach]
    intro built hbuilt
    cases hbuilt
  | item :: rest => by
    rw [buildEach]
    intro built hbuilt
    rcases List.mem_cons.mp hbuilt with rfl | hrest
    · exact isGoodValue_build level item
    · exact isGoodValue_buildEach level rest built hrest

theorem isGood_buildEntries (level : Nat) :
    ∀ entries : List (Node × Node), (buildEntries level entries).IsGood
  | [] => by
    rw [buildEntries]
    exact isGood_empty
  | (key, value) :: rest => by
    have hrest := isGood_buildEntries level rest
    have hvalue := isGoodValue_build level value
    rw [buildEntries]
    split
    · exact hrest.mergeIn (isGood_buildMerged level value)
    · split
      · exact hrest.put level _ hvalue
      · exact hrest.put level _ hvalue

theorem isGood_buildMerged (level : Nat) : ∀ n : Node, (buildMerged level n).IsGood
  | scalar tag text => by
    rw [buildMerged]
    exact isGood_unmergeable level
  | mapping tag entries => by
    rw [buildMerged]
    exact isGood_buildEntries level entries
  | sequence tag items => by
    rw [buildMerged]
    exact isGood_buildMergedItems level items

theorem isGood_buildMergedItems (level : Nat) :
    ∀ items : List Node, (buildMergedItems level items).IsGood
  | [] => by
    rw [buildMergedItems]
    exact isGood_empty
  | item :: rest => by
    have hrest := isGood_buildMergedItems level rest
    have hitem := isGood_buildMergedItem level item
    rw [buildMergedItems]
    intro h e he
    obtain ⟨hmerge, hmerged, -⟩ := faults_eq_nil_iff.mp h
    obtain ⟨hmergeItem, hmergeRest⟩ := List.append_eq_nil_iff.mp hmerge
    obtain ⟨hmergedRest, hentriesItem⟩ := List.append_eq_nil_iff.mp hmerged
    have hnoRest : (buildMergedItems level rest).faults = [] :=
      faults_eq_nil_iff.mpr ⟨hmergeRest, hmergedRest, ownFaults_buildMergedItems level rest⟩
    have hnoItem : (buildMergedItem level item).faults = [] :=
      List.append_eq_nil_iff.mpr ⟨hmergeItem, hentriesItem⟩
    rcases mem_all.mp he with hmem | hmem
    · rcases List.mem_append.mp hmem with hlast | hhere
      · exact hrest hnoRest e (mem_all.mpr (.inl hlast))
      · exact hitem hnoItem e hhere
    · cases hmem

theorem isGood_buildMergedItem (level : Nat) : ∀ n : Node, (buildMergedItem level n).IsGood
  | scalar tag text => by
    rw [buildMergedItem]
    · exact isGood_unmergeable level
    · intro tag entries h
      cases h
  | mapping tag entries => by
    rw [buildMergedItem]
    exact isGood_buildEntries level entries
  | sequence tag items => by
    rw [buildMergedItem]
    · exact isGood_unmergeable level
    · intro tag entries h
      cases h

end

theorem eq_nil_of_firstFault {found : List Found} (h : firstFault found = none) : found = [] := by
  cases found with
  | nil => rfl
  | cons f rest =>
    -- from the first fault on there is always one that is best so far
    exfalso
    rw [firstFault, List.foldl_cons, Option.map_eq_none_iff] at h
    dsimp only at h
    induction rest generalizing f with
    | nil => cases h
    | cons g rest ih =>
      rw [List.foldl_cons] at h
      dsimp only at h
      split at h
      · exact ih g h
      · exact ih f h

theorem isWellKeyed_of_value {n : Node} {v : Value} (h : n.value = .ok v) : v.IsWellKeyed := by
  dsimp only [value] at h
  split at h
  · next hnone =>
    obtain rfl := Except.ok.inj h
    exact isGoodValue_build 0 n (eq_nil_of_firstFault hnone)
  · cases h

end Node

/-- **All mappings in a document have distinct keys,** on every level. -/
theorem isWellKeyed_of_read {text : String} {v : Value} (h : read text = .ok v) :
    v.IsWellKeyed := by
  dsimp only [read] at h
  split at h
  · obtain ⟨tokens, -, h⟩ := Fault.bind_eq_ok.mp h
    obtain ⟨n, -, h⟩ := Fault.bind_eq_ok.mp h
    cases n with
    | none =>
      obtain rfl := Except.ok.inj h
      exact .scalar rfl
    | some n => exact Node.isWellKeyed_of_value h
  · cases h

end Yaml

end StrictEquality
