import Mathlib.Data.List.Induction
import StrictEquality.Proofs.SettingEntries

/-!
# Keys of mappings

A mapping has each key once, and putting values under keys keeps it so. Where values are
put under the keys of one mapping into another one whose keys are texts, each key of the
first has the value that was put there, and every other key has the value it had.

## Main definitions

- `Entries.HasDistinctKeys`, `Entries.HasTextKeys` — what keys there are
- `Entries.updateAll` — put a value under each key of a mapping, given what was there

Main statements: `Entries.HasDistinctKeys.updateAll`, `Entries.find?_updateAll`,
`Entries.mem_keys_updateAll`.
-/

namespace StrictEquality

namespace Value

theorem sameKey_self {v : Value} (h : v.isKey = true) : v.sameKey v = true := by
  cases v with
  | float x => cases x <;> simp [sameKey, Binary64.sameValue]
  | list items => cases h
  | map entries => cases h
  | set items => cases h
  | _ => simp [sameKey, integer?]

end Value

namespace Entries

/-- All keys may be keys, and no two of them are the same. -/
structure HasDistinctKeys (entries : Entries) : Prop where
  isKey : ∀ e ∈ entries, e.1.isKey = true
  pairwise : entries.Pairwise (fun a b => ¬ a.1.sameKey b.1 = true)

def HasTextKeys (entries : Entries) : Prop :=
  ∀ e ∈ entries, ∃ s, e.1 = .text s

variable {entries given : Entries} {key k v : Value}

theorem isSome_find?_iff : (entries.find? k).isSome ↔ ∃ e ∈ entries, e.1.sameKey k = true := by
  rw [find?, Option.isSome_map, List.find?_isSome]

theorem find?_eq_none_iff : entries.find? k = none ↔ ∀ e ∈ entries, ¬ e.1.sameKey k = true := by
  rw [find?, Option.map_eq_none_iff, List.find?_eq_none]

theorem find?_append (front rest : Entries) (k : Value) :
    find? (front ++ rest) k = (find? front k).or (find? rest k) := by
  rw [find?, List.find?_append, Option.map_or]
  rfl

theorem find?_singleton (key v k : Value) :
    find? [(key, v)] k = if key.sameKey k then some v else none :=
  find?_cons (key, v) [] k

theorem exists_mem_of_find? (h : entries.find? k = some v) :
    ∃ e ∈ entries, e.1.sameKey k = true ∧ e.2 = v := by
  obtain ⟨e, he, rfl⟩ := Option.map_eq_some_iff.mp h
  have hsame := List.find?_some he
  exact ⟨e, List.mem_of_find?_eq_some he, hsame, rfl⟩

theorem isSome_find?_text_iff {s : String} :
    (entries.find? (.text s)).isSome ↔ .text s ∈ entries.map Prod.fst := by
  rw [isSome_find?_iff, List.mem_map]
  simp only [Value.sameKey_text_iff]

theorem find?_eq_none_of_hasTextKeys (h : entries.HasTextKeys) (hk : ∀ s, k ≠ .text s) :
    entries.find? k = none := by
  rw [find?_eq_none_iff]
  intro e he hsame
  obtain ⟨s, hs⟩ := h e he
  rw [hs, Value.text_sameKey_iff] at hsame
  exact hk s hsame

theorem insert_of_find?_eq_none (h : entries.find? key = none) (v : Value) :
    entries.insert key v = entries ++ [(key, v)] := by
  induction entries with
  | nil => rfl
  | cons e rest ih =>
    rw [find?_cons] at h
    by_cases hsame : e.1.sameKey key = true
    · rw [if_pos hsame] at h
      cases h
    · rw [if_neg hsame] at h
      rw [insert, if_neg hsame, ih h]
      rfl

/-- To put under a text what is there already changes nothing. -/
theorem insert_text_of_find? {s : String} (h : entries.find? (.text s) = some v) :
    entries.insert (.text s) v = entries := by
  induction entries with
  | nil => cases h
  | cons e rest ih =>
    rw [find?_cons] at h
    by_cases hsame : e.1.sameKey (.text s) = true
    · rw [if_pos hsame] at h
      obtain rfl := Option.some.inj h
      rw [insert, if_pos hsame]
    · rw [if_neg hsame] at h
      rw [insert, if_neg hsame, ih h]

/-- Putting a value under a text leaves what is found under all other keys. -/
theorem find?_insert_text_other {s : String} (h : k ≠ .text s) :
    (entries.insert (.text s) v).find? k = entries.find? k := by
  have hother : ¬ (Value.text s).sameKey k = true :=
    fun hsame => h (Value.text_sameKey_iff.mp hsame)
  induction entries with
  | nil => rw [insert, find?_cons, if_neg hother]
  | cons e rest ih =>
    rw [insert]
    by_cases hsame : e.1.sameKey (.text s) = true
    · rw [if_pos hsame, find?_cons, find?_cons]
      rw [Value.sameKey_text_iff.mp hsame, if_neg hother, if_neg hother]
    · rw [if_neg hsame, find?_cons, find?_cons, ih]

theorem mem_keys_insert_text {s : String} :
    k ∈ (entries.insert (.text s) v).map Prod.fst ↔ k ∈ entries.map Prod.fst ∨ k = .text s := by
  induction entries with
  | nil => simp [insert]
  | cons e rest ih =>
    rw [insert]
    by_cases hsame : e.1.sameKey (.text s) = true
    · -- the text is the key of the first entry
      rw [if_pos hsame, List.map_cons, List.map_cons, List.mem_cons]
      have hkey : e.1 = .text s := Value.sameKey_text_iff.mp hsame
      constructor
      · exact .inl
      · rintro (h | rfl)
        · exact h
        · exact .inl hkey.symm
    · rw [if_neg hsame, List.map_cons, List.map_cons, List.mem_cons, List.mem_cons, ih, or_assoc]

/-- An update replaces a value or adds one, and keeps all other entries. -/
theorem mem_insert {e : Value × Value} (h : e ∈ entries.insert key v) :
    e ∈ entries ∨ e.2 = v ∧ (e.1 = key ∨ e.1 ∈ entries.map Prod.fst) := by
  induction entries with
  | nil =>
    obtain rfl := List.mem_singleton.mp h
    exact .inr ⟨rfl, .inl rfl⟩
  | cons first rest ih =>
    rw [insert] at h
    split at h
    · rcases List.mem_cons.mp h with rfl | hrest
      · exact .inr ⟨rfl, .inr List.mem_cons_self⟩
      · exact .inl (List.mem_cons_of_mem _ hrest)
    · rcases List.mem_cons.mp h with rfl | hrest
      · exact .inl List.mem_cons_self
      · rcases ih hrest with hold | ⟨hvalue, hkey | hkey⟩
        · exact .inl (List.mem_cons_of_mem _ hold)
        · exact .inr ⟨hvalue, .inl hkey⟩
        · exact .inr ⟨hvalue, .inr (List.mem_cons_of_mem _ hkey)⟩

namespace HasDistinctKeys

theorem nil : HasDistinctKeys [] where
  isKey := by simp
  pairwise := .nil

/-- Where keys are distinct, each entry is the one that is found under its key. -/
theorem find?_of_mem (h : entries.HasDistinctKeys) {e : Value × Value} (he : e ∈ entries) :
    entries.find? e.1 = some e.2 := by
  induction entries with
  | nil => cases he
  | cons first rest ih =>
    obtain ⟨hfirst, hrest⟩ := List.pairwise_cons.mp h.pairwise
    rw [find?_cons]
    rcases List.mem_cons.mp he with rfl | hmem
    · rw [if_pos (Value.sameKey_self (h.isKey e he))]
    · rw [if_neg (hfirst e hmem)]
      exact ih ⟨fun e he => h.isKey e (List.mem_cons_of_mem _ he), hrest⟩ hmem

theorem insert (h : entries.HasDistinctKeys) (hkey : key.isKey = true) (v : Value) :
    (entries.insert key v).HasDistinctKeys where
  isKey := by
    intro e he
    rcases mem_insert he with hold | ⟨-, hsame | hmem⟩
    · exact h.isKey e hold
    · rw [hsame]
      exact hkey
    · obtain ⟨old, hold, hsame⟩ := List.mem_map.mp hmem
      rw [← hsame]
      exact h.isKey old hold
  pairwise := by
    have hpairwise := h.pairwise
    clear h
    induction entries with
    | nil => exact List.pairwise_singleton _ _
    | cons first rest ih =>
      obtain ⟨hfirst, hrest⟩ := List.pairwise_cons.mp hpairwise
      rw [Entries.insert]
      by_cases hsame : first.1.sameKey key = true
      · rw [if_pos hsame]
        exact List.pairwise_cons.mpr ⟨hfirst, hrest⟩
      · rw [if_neg hsame]
        refine List.pairwise_cons.mpr ⟨?_, ih hrest⟩
        intro e he
        rcases mem_insert he with hold | ⟨-, hnew | hmem⟩
        · exact hfirst e hold
        · rw [hnew]
          exact hsame
        · obtain ⟨old, hold, heq⟩ := List.mem_map.mp hmem
          rw [← heq]
          exact hfirst old hold

/-- What is in front of some entries has no key of theirs. -/
theorem find?_eq_none_of_append {rest : Entries} (h : HasDistinctKeys (entries ++ rest))
    {e : Value × Value} (he : e ∈ rest) : entries.find? e.1 = none := by
  rw [find?_eq_none_iff]
  intro first hfirst
  exact (List.pairwise_append.mp h.pairwise).2.2 first hfirst e he

theorem of_append {rest : Entries} (h : HasDistinctKeys (entries ++ rest)) :
    entries.HasDistinctKeys where
  isKey := fun e he => h.isKey e (List.mem_append_left _ he)
  pairwise := (List.pairwise_append.mp h.pairwise).1

end HasDistinctKeys

section UpdateAll

variable {f : Option Value → Value → Value}

/-- Put a value under each key of a mapping: what `f` makes of the value that is there
and the given one. -/
def updateAll (f : Option Value → Value → Value) (entries given : Entries) : Entries :=
  given.foldl (fun acc e => acc.insert e.1 (f (acc.find? e.1) e.2)) entries

theorem merge_eq_updateAll (entries given : Entries) :
    entries.merge given = updateAll (fun _ v => v) entries given :=
  rfl

theorem updateAll_append_singleton (f : Option Value → Value → Value) (entries given : Entries)
    (e : Value × Value) :
    updateAll f entries (given ++ [e]) =
      (updateAll f entries given).insert e.1 (f ((updateAll f entries given).find? e.1) e.2) := by
  rw [updateAll, List.foldl_append]
  rfl

/-- Updates keep keys distinct. -/
theorem HasDistinctKeys.updateAll (h : entries.HasDistinctKeys)
    (hgiven : ∀ e ∈ given, e.1.isKey = true) : (updateAll f entries given).HasDistinctKeys := by
  induction given generalizing entries with
  | nil => exact h
  | cons e rest ih =>
    exact ih (h.insert (hgiven e List.mem_cons_self) _)
      fun e he => hgiven e (List.mem_cons_of_mem _ he)

/-- After an update of texts, what was put under a key is there, and all else is as it
was. -/
theorem find?_updateAll (hentries : entries.HasTextKeys) (hgiven : given.HasDistinctKeys)
    (k : Value) :
    (updateAll f entries given).find? k =
      match given.find? k with
      | some v => some (f (entries.find? k) v)
      | none => entries.find? k := by
  -- the induction takes the entry that is put last, so that all before are known
  induction given using List.reverseRecOn generalizing k with
  | nil => rfl
  | append_singleton front e ih =>
    have ih := ih hgiven.of_append
    have hnew : find? front e.1 = none := hgiven.find?_eq_none_of_append List.mem_cons_self
    have hpresent : (updateAll f entries front).find? e.1 = entries.find? e.1 := by
      rw [ih, hnew]
    rw [updateAll_append_singleton, hpresent, find?_append, find?_singleton]
    by_cases htext : ∃ s, e.1 = .text s
    · obtain ⟨s, hs⟩ := htext
      rw [hs] at hnew ⊢
      by_cases hk : k = .text s
      · rw [hk, find?_insert_text, hnew, if_pos (Value.sameKey_text_iff.mpr rfl)]
        rfl
      · have hother : ¬ (Value.text s).sameKey k = true :=
          fun hsame => hk (Value.text_sameKey_iff.mp hsame)
        rw [find?_insert_text_other hk, ih, if_neg hother, Option.or_none]
    · -- a key that is no text is not there before
      have hno : entries.find? e.1 = none :=
        find?_eq_none_of_hasTextKeys hentries fun s hs => htext ⟨s, hs⟩
      rw [insert_of_find?_eq_none (hpresent.trans hno), find?_append, find?_singleton, ih]
      by_cases hsame : e.1.sameKey k = true
      · have hkno : entries.find? k = none := by
          refine find?_eq_none_of_hasTextKeys hentries fun s hs => htext ⟨s, ?_⟩
          rw [hs] at hsame
          exact Value.sameKey_text_iff.mp hsame
        rw [if_pos hsame, if_pos hsame, hno, hkno]
        cases find? front k <;> rfl
      · rw [if_neg hsame, if_neg hsame, Option.or_none, Option.or_none]

theorem mem_keys_updateAll (hentries : entries.HasTextKeys) (hgiven : given.HasDistinctKeys) :
    k ∈ (updateAll f entries given).map Prod.fst ↔
      k ∈ entries.map Prod.fst ∨ k ∈ given.map Prod.fst := by
  induction given using List.reverseRecOn with
  | nil => simp [updateAll]
  | append_singleton front e ih =>
    have ih := ih hgiven.of_append
    rw [updateAll_append_singleton, List.map_append, List.mem_append, ← or_assoc, ← ih]
    by_cases htext : ∃ s, e.1 = .text s
    · obtain ⟨s, hs⟩ := htext
      rw [hs, mem_keys_insert_text, List.map_singleton, List.mem_singleton, hs]
    · have hno : (updateAll f entries front).find? e.1 = none := by
        rw [find?_updateAll hentries hgiven.of_append,
          hgiven.find?_eq_none_of_append List.mem_cons_self]
        exact find?_eq_none_of_hasTextKeys hentries fun s hs => htext ⟨s, hs⟩
      rw [insert_of_find?_eq_none hno, List.map_append, List.mem_append]
      rfl

end UpdateAll

end Entries

end StrictEquality
