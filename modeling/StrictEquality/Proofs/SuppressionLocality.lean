import StrictEquality.Suppression
import StrictEquality.Proofs.JoinedText

/-!
# Suppression comments act on their line

What a text suppresses, and what is wrong with its comments, is found line by line. So
of two texts joined by a newline each keeps its own, the second with its lines counted
on from those of the first. A finding is silenced as in the text that its offset falls
into.

Main statement: `Suppressions.ofText_append`.
-/

namespace StrictEquality

open Suppression

/-- The lines of two joined texts with their numbers, those of the second counted on. -/
theorem Text.zipIdx_lines_append (xs ys : List Char) :
    (lines (xs ++ '\n' :: ys)).zipIdx 1 =
      (lines xs).zipIdx 1 ++
        ((lines ys).zipIdx 1).map (Prod.map id (· + (lines xs).length)) := by
  rw [lines_append, List.zipIdx_append, List.map_snd_add_zipIdx_eq_zipIdx,
    Nat.add_comm (lines xs).length]

theorem Suppression.validate_append (xs ys : List Char) :
    validate (xs ++ '\n' :: ys) =
      validate xs ++ (validate ys).map (Prod.map (· + (Text.lines xs).length) id) := by
  simp only [validate, Text.zipIdx_lines_append, List.flatMap_append, List.flatMap_map,
    List.map_flatMap, List.map_map]
  rfl

namespace Suppressions

theorem byLine_append (xs ys : List Char) :
    (ofText (xs ++ '\n' :: ys)).byLine =
      (ofText xs).byLine ++
        (ofText ys).byLine.map (Prod.map (· + (Text.lines xs).length) id) := by
  simp only [ofText, Text.zipIdx_lines_append, List.map_append, List.filter_append,
    List.map_map, List.filter_map]
  rfl

/-- Suppressions are on lines of the text. -/
theorem line_of_mem_byLine {cs : List Char} {e : Nat × List String}
    (h : e ∈ (ofText cs).byLine) : 1 ≤ e.1 ∧ e.1 ≤ (Text.lines cs).length := by
  obtain ⟨p, hp, rfl⟩ := List.mem_map.mp (List.mem_filter.mp h).1
  have hlast := List.snd_lt_add_of_mem_zipIdx hp
  exact ⟨List.le_snd_of_mem_zipIdx hp, by omega⟩

/-- A line of the first text has the patterns it had before the texts were joined. -/
theorem patternsAt_append_of_le {xs : List Char} (ys : List Char) {line : Nat}
    (h : line ≤ (Text.lines xs).length) :
    (ofText (xs ++ '\n' :: ys)).patternsAt line = (ofText xs).patternsAt line := by
  have hnone : ((ofText ys).byLine.map (Prod.map (· + (Text.lines xs).length) id)).find?
      (fun e => e.1 == line) = none := by
    rw [List.find?_eq_none]
    intro raised hraised hline
    obtain ⟨e, he, rfl⟩ := List.mem_map.mp hraised
    have hpos := (line_of_mem_byLine he).1
    have hline : e.1 + (Text.lines xs).length = line := beq_iff_eq.mp hline
    omega
  rw [patternsAt, byLine_append, List.find?_append, hnone, Option.or_none, patternsAt]

/-- A line of the second text has the patterns it had before the texts were joined. -/
theorem patternsAt_append_add (xs ys : List Char) {line : Nat} (h : 1 ≤ line) :
    (ofText (xs ++ '\n' :: ys)).patternsAt ((Text.lines xs).length + line) =
      (ofText ys).patternsAt line := by
  have hnone : (ofText xs).byLine.find?
      (fun e => e.1 == (Text.lines xs).length + line) = none := by
    rw [List.find?_eq_none]
    intro e he hline
    have hlast := (line_of_mem_byLine he).2
    have hline : e.1 = (Text.lines xs).length + line := beq_iff_eq.mp hline
    omega
  have hraised : (fun e : Nat × List String => (e.1 == (Text.lines xs).length + line)) ∘
      Prod.map (· + (Text.lines xs).length) id = fun e => e.1 == line := by
    funext e
    rw [Bool.eq_iff_iff, Function.comp_apply, beq_iff_eq, beq_iff_eq, Prod.map_fst]
    omega
  rw [patternsAt, byLine_append, List.find?_append, hnone, Option.none_or, List.find?_map,
    hraised, Option.map_map, patternsAt]
  rfl

/-- A finding is silenced by the comments of the text that its offset falls into. -/
theorem covers_append (xs ys : List Char) (rule : String) (offset : Int) :
    (ofText (xs ++ '\n' :: ys)).covers rule offset =
      if offset ≤ Text.byteLength xs then (ofText xs).covers rule offset
      else (ofText ys).covers rule (offset - Text.byteLength xs - 1) := by
  split
  · next hfirst =>
    have hline : Text.lineAt (ofText (xs ++ '\n' :: ys)).text offset = Text.lineAt xs offset :=
      Text.lineAt_append_of_le ys hfirst
    rw [covers, hline, patternsAt_append_of_le ys (Text.lineAt_le_length_lines xs offset)]
    rfl
  · next hsecond =>
    have hline : Text.lineAt (ofText (xs ++ '\n' :: ys)).text offset =
        (Text.lines xs).length + Text.lineAt ys (offset - Text.byteLength xs - 1) :=
      Text.lineAt_append_of_lt ys (Int.not_le.mp hsecond)
    rw [covers, hline, patternsAt_append_add xs ys (Text.lineAt_pos ys _)]
    rfl

/-- **Suppression is local to its line.** Of two texts joined by a newline, the patterns
and the complaints are those of the first followed by those of the second, whose lines
are counted on, and a finding is silenced as in the text that its offset falls into. An
offset at the newline in between falls into the first. -/
theorem ofText_append (xs ys : List Char) :
    (ofText (xs ++ '\n' :: ys)).byLine =
        (ofText xs).byLine ++
          (ofText ys).byLine.map (Prod.map (· + (Text.lines xs).length) id) ∧
      validate (xs ++ '\n' :: ys) =
        validate xs ++ (validate ys).map (Prod.map (· + (Text.lines xs).length) id) ∧
      ∀ (rule : String) (offset : Int),
        (ofText (xs ++ '\n' :: ys)).covers rule offset =
          if offset ≤ Text.byteLength xs then (ofText xs).covers rule offset
          else (ofText ys).covers rule (offset - Text.byteLength xs - 1) :=
  ⟨byLine_append xs ys, validate_append xs ys, covers_append xs ys⟩

end Suppressions

end StrictEquality
