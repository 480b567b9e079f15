import Mathlib.Data.List.TakeWhile
import Mathlib.Logic.Function.Iterate
import StrictEquality.AbsolutePath
import StrictEquality.Proofs.JoinedText

/-!
# The way up from an absolute path

Paths are cut and joined as texts, but what this does can be said of the names that they
are made of. A path without dots and needless slashes is given by its names; its parent has
all of them but the last, and the root is its own parent.

## Main definitions

- `Path.IsName` — what can stand between two slashes and leads down
- `AbsolutePath.reach` — where a text leads from a directory
- `AbsolutePath.ancestor` — the directory at some depth on the way to a path

Main statements: `AbsolutePath.names_resolve`, `AbsolutePath.iterate_parent_ancestor`,
`AbsolutePath.join_ancestor`.
-/

namespace StrictEquality

namespace Path

/-- What can stand between two slashes and leads down. -/
structure IsName (name : String) : Prop where
  ne_empty : name ≠ ""
  ne_dot : name ≠ "."
  ne_dots : name ≠ ".."
  slash_not_mem : '/' ∉ name.toList

end Path

open StrictEquality.Path

namespace AbsolutePath

theorem follow_empty (p : Path) : follow p "" = p :=
  rfl

theorem follow_of_isName {name : String} (h : IsName name) (p : Path) :
    follow p name = p ++ [name] := by
  have hempty := h.ne_empty
  have hdot := h.ne_dot
  have hdots := h.ne_dots
  unfold follow
  split <;> simp_all

theorem foldl_follow_of_isName {names : List String} (h : ∀ name ∈ names, IsName name)
    (p : Path) : names.foldl follow p = p ++ names := by
  induction names generalizing p with
  | nil => simp
  | cons name names ih =>
    obtain ⟨hname, hnames⟩ := List.forall_mem_cons.mp h
    rw [List.foldl_cons, follow_of_isName hname, ih hnames, List.append_assoc,
      List.singleton_append]

theorem isName_of_mem_follow {p : Path} {piece : String} (hp : ∀ name ∈ p, IsName name)
    (hpiece : '/' ∉ piece.toList) : ∀ name ∈ follow p piece, IsName name := by
  by_cases hempty : piece = ""
  · rw [hempty, follow_empty]
    exact hp
  by_cases hdot : piece = "."
  · rw [hdot]
    exact hp
  by_cases hdots : piece = ".."
  · intro name hname
    rw [hdots] at hname
    exact hp name (List.dropLast_subset p hname)
  · have hpieceName : IsName piece := ⟨hempty, hdot, hdots, hpiece⟩
    rw [follow_of_isName hpieceName]
    exact List.forall_mem_append.mpr ⟨hp, List.forall_mem_singleton.mpr hpieceName⟩

theorem isName_of_mem_foldl_follow {pieces : List String} {p : Path}
    (hp : ∀ name ∈ p, IsName name) (hpieces : ∀ piece ∈ pieces, '/' ∉ piece.toList) :
    ∀ name ∈ pieces.foldl follow p, IsName name := by
  induction pieces generalizing p with
  | nil => exact hp
  | cons piece pieces ih =>
    obtain ⟨hpiece, hrest⟩ := List.forall_mem_cons.mp hpieces
    exact ih (isName_of_mem_follow hp hpiece) hrest

/-- Where a text leads from a directory, piece by piece. -/
def reach (p : Path) (cs : List Char) : Path :=
  ((Text.splitAt '/' cs).map String.ofList).foldl follow p

theorem names_eq_reach (p : AbsolutePath) : p.names = reach [] p.chars := by
  rw [names, pieces, text, String.toList_ofList, reach]

theorem reach_nil (p : Path) : reach p [] = p :=
  follow_empty p

theorem reach_append (p : Path) (cs ds : List Char) :
    reach p (cs ++ '/' :: ds) = reach (reach p cs) ds := by
  simp [reach, Text.splitAt_append]

theorem reach_slash (p : Path) (cs : List Char) : reach p ('/' :: cs) = reach p cs := by
  have hsplit := reach_append p [] cs
  rw [List.nil_append, reach_nil] at hsplit
  exact hsplit

theorem isName_of_mem_reach {p : Path} (hp : ∀ name ∈ p, IsName name) (cs : List Char) :
    ∀ name ∈ reach p cs, IsName name := by
  refine isName_of_mem_foldl_follow hp ?_
  intro piece hpiece
  obtain ⟨ds, hds, rfl⟩ := List.mem_map.mp hpiece
  rw [String.toList_ofList]
  exact (Text.not_mem_and_subset_of_mem_splitAt hds).1

theorem isName_of_mem_names (p : AbsolutePath) : ∀ name ∈ p.names, IsName name := by
  rw [names_eq_reach]
  exact isName_of_mem_reach (by simp) p.chars

variable {doubled : Bool} {names : Path} {name : String}

theorem chars_ofNames_append (hne : names ≠ []) (name : String) :
    (ofNames doubled (names ++ [name])).chars =
      (ofNames doubled names).chars ++ '/' :: name.toList := by
  have hmap : names.map String.toList ≠ [] := by simpa using hne
  rw [chars_ofNames, chars_ofNames, List.map_append, List.map_singleton,
    Text.intercalate_append_singleton hmap, List.append_assoc]

/-- The path over some names ends in the last one, so in no slash. -/
theorem getLast?_chars_ofNames (doubled : Bool) (hne : names ≠ [])
    (h : ∀ name ∈ names, IsName name) :
    ∃ c, c ≠ '/' ∧ (ofNames doubled names).chars.getLast? = some c := by
  obtain ⟨before, last, rfl⟩ : ∃ before last, names = before ++ [last] :=
    ⟨names.dropLast, names.getLast hne, (List.dropLast_concat_getLast hne).symm⟩
  have hlast : IsName last := h last (by simp)
  have hnonempty : last.toList ≠ [] := fun hnil =>
    hlast.ne_empty (String.toList_eq_nil_iff.mp hnil)
  refine ⟨last.toList.getLast hnonempty, ?_, ?_⟩
  · intro hslash
    exact hlast.slash_not_mem (hslash ▸ List.getLast_mem hnonempty)
  · have hend : last.toList.getLast? = some (last.toList.getLast hnonempty) :=
      List.getLast?_eq_some_getLast hnonempty
    by_cases hfirst : before = []
    · simp [hfirst, hend]
    · rw [chars_ofNames_append hfirst, List.getLast?_append, List.getLast?_cons, hend]
      rfl

/-- The part of a text up to a slash that is the last one. -/
theorem dropEnd_append {cs ds : List Char} (h : '/' ∉ ds) :
    dropEnd (· != '/') (cs ++ '/' :: ds) = cs ++ ['/'] := by
  have hall : ∀ c ∈ ds.reverse, (c != '/') = true := by
    intro c hc
    exact bne_iff_ne.mpr (fun heq => h (heq ▸ List.mem_reverse.mp hc))
  have hreverse : (cs ++ '/' :: ds).reverse = ds.reverse ++ '/' :: cs.reverse := by simp
  rw [dropEnd, hreverse, List.dropWhile_append_of_pos hall, List.dropWhile_cons_of_neg (by simp),
    List.reverse_cons, List.reverse_reverse]

/-- Behind slashes alone the way up leads to them. -/
theorem parentChars_append_of_forall_eq {cs ds : List Char} (hcs : ∀ c ∈ cs, c = '/')
    (hds : '/' ∉ ds) : parentChars (cs ++ '/' :: ds) = cs ++ ['/'] := by
  have hall : (cs ++ ['/']).all (· == '/') = true := by simpa using hcs
  rw [parentChars, dropEnd_append hds]
  exact if_pos hall

/-- Behind a text that does not end in a slash the way up leads to that text. -/
theorem parentChars_append_of_getLast? {cs ds : List Char} {c : Char}
    (hc : cs.getLast? = some c) (hne : c ≠ '/') (hds : '/' ∉ ds) :
    parentChars (cs ++ '/' :: ds) = cs := by
  have hmem : c ∈ cs := List.mem_of_getLast? hc
  have hall : ¬ (cs ++ ['/']).all (· == '/') = true := by
    intro hall
    exact hne (beq_iff_eq.mp (List.all_eq_true.mp hall c (List.mem_append_left _ hmem)))
  have hstrip : dropEnd (· == '/') (cs ++ ['/']) = cs := by
    obtain ⟨before, hbefore⟩ := List.getLast?_eq_some_iff.mp hc
    rw [dropEnd, hbefore]
    simp [hne]
  rw [parentChars, dropEnd_append hds]
  exact (if_neg hall).trans hstrip

theorem parent_ofNames_nil (doubled : Bool) : (ofNames doubled []).parent = ofNames doubled [] := by
  cases doubled <;> decide

theorem exists_root_eq (doubled : Bool) :
    ∃ cs, (∀ c ∈ cs, c = '/') ∧ root doubled = cs ++ ['/'] := by
  cases doubled with
  | false => exact ⟨[], by simp, rfl⟩
  | true => exact ⟨['/'], by simp, rfl⟩

/-- The parent of any other path has all of its names but the last. -/
theorem parent_ofNames_append (doubled : Bool) (h : ∀ n ∈ names ++ [name], IsName n) :
    (ofNames doubled (names ++ [name])).parent = ofNames doubled names := by
  have hname : '/' ∉ name.toList := (h name (by simp)).slash_not_mem
  apply AbsolutePath.ext
  rw [chars_parent]
  by_cases hfirst : names = []
  · -- there is nothing to cut off in front of the slashes of the root
    subst hfirst
    obtain ⟨cs, hcs, hroot⟩ := exists_root_eq doubled
    have hpath : (ofNames doubled ([] ++ [name])).chars = cs ++ '/' :: name.toList := by
      simp [hroot]
    have hdirectory : (ofNames doubled []).chars = cs ++ ['/'] := by simp [hroot]
    rw [hpath, hdirectory]
    exact parentChars_append_of_forall_eq hcs hname
  · obtain ⟨c, hc, hlast⟩ := getLast?_chars_ofNames doubled hfirst
      (fun n hn => h n (List.mem_append_left _ hn))
    rw [chars_ofNames_append hfirst]
    exact parentChars_append_of_getLast? hlast hc hname

theorem join_ofNames (doubled : Bool) (h : ∀ n ∈ names, IsName n) (hname : IsName name) :
    (ofNames doubled names).join name = ofNames doubled (names ++ [name]) := by
  have hrelative : ¬ name.toList.head? = some '/' := fun hhead =>
    hname.slash_not_mem (List.mem_of_head? hhead)
  apply AbsolutePath.ext
  rw [chars_join, if_neg hrelative]
  by_cases hfirst : names = []
  · subst hfirst
    obtain ⟨cs, -, hroot⟩ := exists_root_eq doubled
    have hends : (ofNames doubled []).chars.getLast? = some '/' := by simp [hroot]
    rw [if_pos hends]
    simp
  · obtain ⟨c, hc, hlast⟩ := getLast?_chars_ofNames doubled hfirst h
    have hends : ¬ (ofNames doubled names).chars.getLast? = some '/' := by
      rw [hlast]
      exact fun heq => hc (Option.some.inj heq)
    rw [if_neg hends, chars_ofNames_append hfirst]

theorem names_ofNames (doubled : Bool) (h : ∀ n ∈ names, IsName n) :
    (ofNames doubled names).names = names := by
  have hroot : ∀ cs, reach [] (root doubled ++ cs) = reach [] cs := by
    intro cs
    cases doubled <;> simp [root, reach_slash]
  rw [names_eq_reach, chars_ofNames, hroot]
  by_cases hnil : names = []
  · rw [hnil]
    exact reach_nil []
  · have hpieces : ∀ piece ∈ names.map String.toList, '/' ∉ piece := by
      intro piece hpiece
      obtain ⟨n, hn, rfl⟩ := List.mem_map.mp hpiece
      exact (h n hn).slash_not_mem
    have hback : (names.map String.toList).map String.ofList = names := by simp
    rw [reach, Text.splitAt_intercalate (by simpa using hnil) hpieces, hback,
      foldl_follow_of_isName h, List.nil_append]

/-- A text that starts with no slash adds none to those that another one starts with. -/
theorem takeWhile_append_of_head?_ne {cs ds : List Char} (h : ¬ ds.head? = some '/') :
    (cs ++ ds).takeWhile (· == '/') = cs.takeWhile (· == '/') := by
  have hnone : ds.takeWhile (· == '/') = [] := by
    cases ds with
    | nil => rfl
    | cons d ds => exact List.takeWhile_cons_of_neg (by simpa using h)
  rw [List.takeWhile_append]
  split
  · next hall =>
    rw [hnone, List.append_nil, (List.takeWhile_prefix _).eq_of_length hall]
  · rfl

theorem isDoubled_ofNames (doubled : Bool) (h : ∀ n ∈ names, IsName n) :
    (ofNames doubled names).isDoubled = doubled := by
  have hnames : ¬ (['/'].intercalate (names.map String.toList)).head? = some '/' := by
    cases names with
    | nil => simp
    | cons name names =>
      have hname : IsName name := h name List.mem_cons_self
      cases hcs : name.toList with
      | nil => exact absurd (String.toList_eq_nil_iff.mp hcs) hname.ne_empty
      | cons c cs =>
        rw [List.map_cons, hcs, List.intercalate_cons_cons_left, List.head?_cons]
        intro heq
        apply hname.slash_not_mem
        rw [hcs, Option.some.inj heq]
        exact List.mem_cons_self
  rw [isDoubled, startsDoubled, chars_ofNames, takeWhile_append_of_head?_ne hnames]
  cases doubled <;> decide

/-- A written path that is not absolute leads on from where the directory leads. -/
theorem names_join (directory : AbsolutePath) (path : String) :
    (directory.join path).names =
      reach (if path.toList.head? = some '/' then [] else directory.names) path.toList := by
  rw [names_eq_reach, names_eq_reach, chars_join]
  by_cases habsolute : path.toList.head? = some '/'
  · rw [if_pos habsolute, if_pos habsolute]
  · rw [if_neg habsolute, if_neg habsolute]
    by_cases hends : directory.chars.getLast? = some '/'
    · obtain ⟨cs, hcs⟩ := List.getLast?_eq_some_iff.mp hends
      rw [if_pos hends, hcs, reach_append, reach_nil, List.append_assoc, List.singleton_append,
        reach_append]
    · rw [if_neg hends, reach_append]

/-- A path below another one that is absolute itself is that path. -/
theorem join_text (directory p : AbsolutePath) : directory.join p.text = p := by
  apply AbsolutePath.ext
  rw [chars_join, text, String.toList_ofList, if_pos p.head?_chars]

/-- A written path that is not absolute leaves the root as the directory has it. -/
theorem isDoubled_join (directory : AbsolutePath) (path : String) :
    (directory.join path).isDoubled =
      if path.toList.head? = some '/' then startsDoubled path.toList else directory.isDoubled := by
  rw [isDoubled, isDoubled, chars_join]
  by_cases habsolute : path.toList.head? = some '/'
  · rw [if_pos habsolute, if_pos habsolute]
  · rw [if_neg habsolute, if_neg habsolute]
    by_cases hends : directory.chars.getLast? = some '/'
    · rw [if_pos hends, startsDoubled, takeWhile_append_of_head?_ne habsolute, startsDoubled]
    · -- the slash in between comes behind another character
      have hpart : (directory.chars.takeWhile (· == '/')).length ≠ directory.chars.length := by
        intro hlength
        have hall := List.takeWhile_eq_self_iff.mp
          ((List.takeWhile_prefix (· == '/')).eq_of_length hlength)
        have hne : directory.chars ≠ [] := by
          intro hnil
          simpa [hnil] using directory.head?_chars
        apply hends
        rw [List.getLast?_eq_some_getLast hne, beq_iff_eq.mp (hall _ (List.getLast_mem hne))]
      rw [if_neg hends, startsDoubled, List.takeWhile_append, if_neg hpart, startsDoubled]

theorem names_resolve (directory : AbsolutePath) (path : String) :
    (directory.resolve path).names =
      reach (if path.toList.head? = some '/' then [] else directory.names) path.toList := by
  rw [resolve, normal, names_ofNames _ (isName_of_mem_names _), names_join]

theorem isDoubled_resolve (directory : AbsolutePath) (path : String) :
    (directory.resolve path).isDoubled =
      if path.toList.head? = some '/' then startsDoubled path.toList else directory.isDoubled := by
  rw [resolve, normal, isDoubled_ofNames _ (isName_of_mem_names _), isDoubled_join]

/-- The directory at some depth on the way to a path. -/
def ancestor (p : AbsolutePath) (depth : Nat) : AbsolutePath :=
  ofNames p.isDoubled (p.names.take depth)

variable {p : AbsolutePath}

theorem isName_of_mem_take (p : AbsolutePath) (depth : Nat) :
    ∀ n ∈ p.names.take depth, IsName n :=
  fun n hn => isName_of_mem_names p n (List.mem_of_mem_take hn)

theorem names_ancestor (p : AbsolutePath) (depth : Nat) :
    (p.ancestor depth).names = p.names.take depth :=
  names_ofNames _ (isName_of_mem_take p depth)

/-- At its full depth a path without dots and needless slashes is reached. -/
theorem ancestor_resolve (directory : AbsolutePath) (path : String) :
    (directory.resolve path).ancestor (directory.resolve path).names.length =
      directory.resolve path := by
  have hnames := isName_of_mem_names (directory.join path)
  rw [ancestor, List.take_length, resolve, normal, isDoubled_ofNames _ hnames,
    names_ofNames _ hnames]

theorem parent_ancestor_zero (p : AbsolutePath) : (p.ancestor 0).parent = p.ancestor 0 :=
  parent_ofNames_nil p.isDoubled

theorem parent_ancestor_succ {depth : Nat} (h : depth < p.names.length) :
    (p.ancestor (depth + 1)).parent = p.ancestor depth := by
  have hnames := isName_of_mem_take p (depth + 1)
  rw [List.take_succ_eq_append_getElem h] at hnames
  rw [ancestor, List.take_succ_eq_append_getElem h]
  exact parent_ofNames_append p.isDoubled hnames

/-- Below the root the way up leads on. -/
theorem parent_ancestor_succ_ne {depth : Nat} (h : depth < p.names.length) :
    (p.ancestor (depth + 1)).parent ≠ p.ancestor (depth + 1) := by
  intro heq
  rw [parent_ancestor_succ h] at heq
  have hlength := congrArg (fun q => q.names.length) heq
  simp only [names_ancestor, List.length_take] at hlength
  omega

/-- As many steps up as there are names lead to the root, and all further ones stay there. -/
theorem iterate_parent_ancestor {depth : Nat} (h : depth ≤ p.names.length) (steps : Nat) :
    parent^[steps] (p.ancestor depth) = p.ancestor (depth - steps) := by
  induction steps with
  | zero => rfl
  | succ steps ih =>
    rw [Function.iterate_succ_apply', ih]
    cases hrest : depth - steps with
    | zero =>
      have hroot : depth - (steps + 1) = 0 := by omega
      rw [hroot]
      exact parent_ancestor_zero p
    | succ further =>
      have hup : depth - (steps + 1) = further := by omega
      rw [hup]
      exact parent_ancestor_succ (by omega)

theorem isName_of_mem_ancestor_append (p : AbsolutePath) (depth : Nat) (hname : IsName name) :
    ∀ n ∈ p.names.take depth ++ [name], IsName n :=
  List.forall_mem_append.mpr ⟨isName_of_mem_take p depth, List.forall_mem_singleton.mpr hname⟩

theorem join_ancestor (p : AbsolutePath) (depth : Nat) (hname : IsName name) :
    (p.ancestor depth).join name = ofNames p.isDoubled (p.names.take depth ++ [name]) :=
  join_ofNames _ (isName_of_mem_take p depth) hname

end AbsolutePath

end StrictEquality
