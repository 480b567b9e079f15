import StrictEquality.Value

/-!
# Entries after an update

Putting a value under a key leaves what is under other keys as it is, and no update takes
a key away.

Main statements: `Entries.find?_insert_text_of_ne`, `Entries.isSome_find?_merge`.
-/

namespace StrictEquality

namespace Value

/-- A text is the same key as itself only. -/
theorem sameKey_text_iff {v : Value} {s : String} : v.sameKey (.text s) = true ↔ v = .text s := by
  cases v with
  | float x => cases x <;> simp [sameKey, integer?]
  | _ => simp [sameKey, integer?]

theorem text_sameKey_iff {v : Value} {s : String} :
    (text s).sameKey v = true ↔ v = .text s := by
  cases v with
  | float x => cases x <;> simp [sameKey, integer?]
  | text t => rw [sameKey, beq_iff_eq, text.injEq, eq_comm]
  | _ => simp [sameKey, integer?]

end Value

namespace Entries

variable {entries : Entries} {key value : Value}

theorem find?_cons (e : Value × Value) (rest : Entries) (key : Value) :
    find? (e :: rest) key = if e.1.sameKey key then some e.2 else find? rest key := by
  unfold find?
  by_cases hsame : e.1.sameKey key
  · simp [hsame]
  · simp [hsame]

/-- What is under a text stays there when something is put under another key. -/
theorem find?_insert_text_of_ne {s : String} (h : key ≠ .text s) :
    (entries.insert key value).find? (.text s) = entries.find? (.text s) := by
  induction entries with
  | nil =>
    have hother : ¬ key.sameKey (.text s) = true := fun hsame => h (Value.sameKey_text_iff.mp hsame)
    rw [insert, find?_cons, if_neg hother]
  | cons e rest ih =>
    rw [insert]
    by_cases hsame : e.1.sameKey key
    · -- the entry that is replaced is not the one of the text
      have hother : ¬ e.1.sameKey (.text s) = true := by
        intro htext
        rw [Value.sameKey_text_iff.mp htext, Value.text_sameKey_iff] at hsame
        exact h hsame
      rw [if_pos hsame, find?_cons, find?_cons, if_neg hother, if_neg hother]
    · rw [if_neg hsame, find?_cons, find?_cons, ih]

/-- An update takes no key away. -/
theorem isSome_find?_insert {other : Value} (h : (entries.find? other).isSome) :
    ((entries.insert key value).find? other).isSome := by
  induction entries with
  | nil => cases h
  | cons e rest ih =>
    rw [find?_cons] at h
    rw [insert]
    by_cases hfirst : e.1.sameKey other
    · split
      · rw [find?_cons, if_pos hfirst]
        rfl
      · rw [find?_cons, if_pos hfirst]
        rfl
    · rw [if_neg hfirst] at h
      split
      · rw [find?_cons, if_neg hfirst]
        exact h
      · rw [find?_cons, if_neg hfirst]
        exact ih h

theorem isSome_find?_merge (others : Entries) (h : (entries.find? key).isSome) :
    ((entries.merge others).find? key).isSome := by
  induction others generalizing entries with
  | nil => exact h
  | cons e rest ih => exact ih (isSome_find?_insert h)

end Entries

end StrictEquality
