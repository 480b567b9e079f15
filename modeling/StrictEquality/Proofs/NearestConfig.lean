import Mathlib.Data.List.Find
import StrictEquality.Config.Search
import StrictEquality.Proofs.ConfigValidity
import StrictEquality.Proofs.FileTrees

/-!
# The nearest configuration file

The search for a configuration file goes up one directory in each round. It is over after
at most one round more than the path has names, in the root at the latest. What it finds is
in the deepest directory that has such a file, and has the first of the names that occur
there: the depth comes first, the order of the names second.

## Main definitions

- `Config.Ends` — a search is over after some rounds
- `Config.HasFile` — a directory has a configuration file
- `Config.IsPreferred` — the configuration file of a directory
- `Config.IsNearest` — what a search for a path has to come to

Main statements: `Config.search_isNearest`, `Config.load_of_search`.
-/

namespace StrictEquality

namespace Config

open AbsolutePath

variable {files : FileTree} {p : AbsolutePath} {depth : Nat}

/-- A search that has come to a directory is over after some rounds, with a result. -/
inductive Ends (files : FileTree) : AbsolutePath → Nat → Option AbsolutePath → Prop
  | found {directory file : AbsolutePath} (hfound : inDirectory? files directory = some file) :
      Ends files directory 1 (some file)
  | atRoot {directory : AbsolutePath} (hnone : inDirectory? files directory = none)
      (hroot : directory.parent = directory) : Ends files directory 1 none
  | upwards {directory : AbsolutePath} {rounds : Nat} {result : Option AbsolutePath}
      (hnone : inDirectory? files directory = none) (hup : directory.parent ≠ directory)
      (hends : Ends files directory.parent rounds result) :
      Ends files directory (rounds + 1) result

/-- A directory has a configuration file. -/
def HasFile (files : FileTree) (directory : Path) : Prop :=
  ∃ name ∈ fileNames, files.contains (directory ++ [name]) = true

/-- The configuration file of a directory has the first of the names that occur there. -/
def IsPreferred (files : FileTree) (directory file : AbsolutePath) : Prop :=
  ∃ before name after, fileNames = before ++ name :: after ∧
    files.contains (directory.names ++ [name]) = true ∧
    (∀ other ∈ before, files.contains (directory.names ++ [other]) = false) ∧
    file = directory.join name

/-- The configuration file in the deepest directory that has one, of those on the way from
the root to a path. -/
structure IsNearest (files : FileTree) (p : AbsolutePath) (result : Option AbsolutePath) :
    Prop where
  eq_none_iff : result = none ↔
    ∀ depth ≤ p.names.length, ¬ HasFile files (p.names.take depth)
  eq_some_iff : ∀ file, result = some file ↔
    ∃ depth ≤ p.names.length, IsPreferred files (p.ancestor depth) file ∧
      ∀ deeper ≤ p.names.length, depth < deeper → ¬ HasFile files (p.names.take deeper)

theorem isName_of_mem_fileNames : ∀ name ∈ fileNames, Path.IsName name := by
  have hall : ∀ name ∈ fileNames, name ≠ "" ∧ name ≠ "." ∧ name ≠ ".." ∧ '/' ∉ name.toList := by
    decide
  intro name hname
  obtain ⟨hempty, hdot, hdots, hslash⟩ := hall name hname
  exact ⟨hempty, hdot, hdots, hslash⟩

/-- Looking for a file in a directory is looking for its name. -/
theorem inDirectory?_ancestor (files : FileTree) (p : AbsolutePath) (depth : Nat) :
    inDirectory? files (p.ancestor depth) =
      (fileNames.find? (fun name => files.contains ((p.ancestor depth).names ++ [name]))).map
        (p.ancestor depth).join := by
  have hsame : ∀ name ∈ fileNames,
      (files.reaches ∘ (p.ancestor depth).join) name =
        files.contains ((p.ancestor depth).names ++ [name]) := by
    intro name hname
    have hjoin := join_ancestor p depth (isName_of_mem_fileNames name hname)
    have hnames := isName_of_mem_ancestor_append p depth (isName_of_mem_fileNames name hname)
    rw [Function.comp_apply, hjoin, files.reaches_ofNames _ hnames, names_ancestor]
  rw [inDirectory?, List.find?_map, List.find?_congr hsame]

theorem inDirectory?_ancestor_eq_none_iff :
    inDirectory? files (p.ancestor depth) = none ↔ ¬ HasFile files (p.names.take depth) := by
  rw [inDirectory?_ancestor, Option.map_eq_none_iff, List.find?_eq_none, names_ancestor, HasFile]
  exact ⟨fun hnone ⟨name, hname, hfile⟩ => hnone name hname hfile,
    fun hnone name hname hfile => hnone ⟨name, hname, hfile⟩⟩

theorem inDirectory?_ancestor_eq_some_iff {file : AbsolutePath} :
    inDirectory? files (p.ancestor depth) = some file ↔
      IsPreferred files (p.ancestor depth) file := by
  rw [inDirectory?_ancestor, Option.map_eq_some_iff, IsPreferred]
  constructor
  · rintro ⟨name, hfind, rfl⟩
    obtain ⟨hfile, before, after, hnames, hbefore⟩ := List.find?_eq_some_iff_append.mp hfind
    refine ⟨before, name, after, hnames, hfile, ?_, rfl⟩
    intro other hother
    simpa using hbefore other hother
  · rintro ⟨before, name, after, hnames, hfile, hbefore, rfl⟩
    refine ⟨name, List.find?_eq_some_iff_append.mpr ⟨hfile, before, after, hnames, ?_⟩, rfl⟩
    intro other hother
    simpa using hbefore other hother

/-- The last round looks in the root. -/
theorem searchUpwards_ancestor_zero (files : FileTree) (p : AbsolutePath) :
    searchUpwards files (p.ancestor 0) = inDirectory? files (p.ancestor 0) := by
  rw [searchUpwards]
  split
  · next hfound => exact hfound.symm
  · next hnone => rw [if_pos (parent_ancestor_zero p), hnone]

/-- A round that finds nothing leaves the result to the directory above. -/
theorem searchUpwards_ancestor_succ (files : FileTree) (h : depth < p.names.length) :
    searchUpwards files (p.ancestor (depth + 1)) =
      (inDirectory? files (p.ancestor (depth + 1))).or (searchUpwards files (p.ancestor depth)) := by
  rw [searchUpwards]
  split
  · next hfound => rw [hfound, Option.some_or]
  · next hnone =>
    rw [if_neg (parent_ancestor_succ_ne h), parent_ancestor_succ h, hnone, Option.none_or]

/-- From some depth a search is over after one round more at most. -/
theorem exists_ends_searchUpwards (files : FileTree) (h : depth ≤ p.names.length) :
    ∃ rounds ≤ depth + 1,
      Ends files (p.ancestor depth) rounds (searchUpwards files (p.ancestor depth)) := by
  induction depth with
  | zero =>
    refine ⟨1, Nat.le_refl 1, ?_⟩
    rw [searchUpwards_ancestor_zero]
    cases hfound : inDirectory? files (p.ancestor 0) with
    | some file => exact .found hfound
    | none => exact .atRoot hfound (parent_ancestor_zero p)
  | succ depth ih =>
    rw [searchUpwards_ancestor_succ files h]
    cases hfound : inDirectory? files (p.ancestor (depth + 1)) with
    | some file => exact ⟨1, Nat.le_add_left 1 _, .found hfound⟩
    | none =>
      obtain ⟨rounds, hrounds, hends⟩ := ih (Nat.le_of_succ_le h)
      refine ⟨rounds + 1, Nat.succ_le_succ hrounds, ?_⟩
      rw [Option.none_or]
      apply Ends.upwards hfound (parent_ancestor_succ_ne h)
      rw [parent_ancestor_succ h]
      exact hends

/-- A search finds nothing if none of the directories has a file. -/
theorem searchUpwards_ancestor_eq_none_iff (h : depth ≤ p.names.length) :
    searchUpwards files (p.ancestor depth) = none ↔
      ∀ d ≤ depth, inDirectory? files (p.ancestor d) = none := by
  induction depth with
  | zero =>
    rw [searchUpwards_ancestor_zero]
    exact ⟨fun hnone d hd => by rw [Nat.le_zero.mp hd, hnone], fun hall => hall 0 (Nat.le_refl 0)⟩
  | succ depth ih =>
    rw [searchUpwards_ancestor_succ files h, Option.or_eq_none_iff, ih (Nat.le_of_succ_le h)]
    constructor
    · rintro ⟨hnone, hall⟩ d hd
      rcases Nat.le_succ_iff.mp hd with hd | rfl
      · exact hall d hd
      · exact hnone
    · intro hall
      exact ⟨hall (depth + 1) (Nat.le_refl _), fun d hd => hall d (Nat.le_succ_of_le hd)⟩

/-- A search finds the file of the deepest directory that has one. -/
theorem searchUpwards_ancestor_eq_some_iff {file : AbsolutePath} (h : depth ≤ p.names.length) :
    searchUpwards files (p.ancestor depth) = some file ↔
      ∃ d ≤ depth, inDirectory? files (p.ancestor d) = some file ∧
        ∀ deeper ≤ depth, d < deeper → inDirectory? files (p.ancestor deeper) = none := by
  induction depth with
  | zero =>
    rw [searchUpwards_ancestor_zero]
    constructor
    · intro hfound
      exact ⟨0, Nat.le_refl 0, hfound, fun deeper hle hlt => absurd hle (Nat.not_le.mpr hlt)⟩
    · rintro ⟨d, hd, hfound, -⟩
      rw [← Nat.le_zero.mp hd]
      exact hfound
  | succ depth ih =>
    rw [searchUpwards_ancestor_succ files h]
    cases hlast : inDirectory? files (p.ancestor (depth + 1)) with
    | some other =>
      -- the deepest directory has a file, so no other one comes into question
      rw [Option.some_or]
      constructor
      · intro hother
        refine ⟨depth + 1, Nat.le_refl _, hlast.trans hother, ?_⟩
        exact fun deeper hle hlt => absurd hle (Nat.not_le.mpr hlt)
      · rintro ⟨d, hd, hfound, hdeeper⟩
        rcases Nat.le_succ_iff.mp hd with hd | rfl
        · have hnone := hdeeper (depth + 1) (Nat.le_refl _) (Nat.lt_succ_of_le hd)
          rw [hlast] at hnone
          exact absurd hnone (Option.some_ne_none other)
        · exact hlast.symm.trans hfound
    | none =>
      rw [Option.none_or, ih (Nat.le_of_succ_le h)]
      constructor
      · rintro ⟨d, hd, hfound, hdeeper⟩
        refine ⟨d, Nat.le_succ_of_le hd, hfound, ?_⟩
        intro deeper hle hlt
        rcases Nat.le_succ_iff.mp hle with hle | rfl
        · exact hdeeper deeper hle hlt
        · exact hlast
      · rintro ⟨d, hd, hfound, hdeeper⟩
        rcases Nat.le_succ_iff.mp hd with hd | rfl
        · exact ⟨d, hd, hfound, fun deeper hle => hdeeper deeper (Nat.le_succ_of_le hle)⟩
        · rw [hlast] at hfound
          exact absurd hfound.symm (Option.some_ne_none file)

theorem isNearest_searchUpwards (files : FileTree) (p : AbsolutePath) :
    IsNearest files p (searchUpwards files (p.ancestor p.names.length)) where
  eq_none_iff := by
    simp only [searchUpwards_ancestor_eq_none_iff (Nat.le_refl _),
      inDirectory?_ancestor_eq_none_iff]
  eq_some_iff file := by
    simp only [searchUpwards_ancestor_eq_some_iff (Nat.le_refl _),
      inDirectory?_ancestor_eq_none_iff, inDirectory?_ancestor_eq_some_iff]

/-- A file in a directory gives way to those in deeper directories only, by whatever names. -/
theorem IsNearest.exists_eq_some {result : Option AbsolutePath} (h : IsNearest files p result)
    (hdepth : depth ≤ p.names.length) (hfile : HasFile files (p.names.take depth)) :
    ∃ nearer ≤ p.names.length, depth ≤ nearer ∧
      ∃ name ∈ fileNames, result = some ((p.ancestor nearer).join name) := by
  cases hresult : result with
  | none => exact absurd hfile (h.eq_none_iff.mp hresult depth hdepth)
  | some file =>
    obtain ⟨nearer, hnearer, hpreferred, hdeeper⟩ := (h.eq_some_iff file).mp hresult
    obtain ⟨before, name, after, hnames, -, -, rfl⟩ := hpreferred
    refine ⟨nearer, hnearer, ?_, name, by simp [hnames], rfl⟩
    by_contra hlt
    exact hdeeper depth hdepth (Nat.not_le.mp hlt) hfile

/-- The search for a configuration file, from a written path that is seen from a working
directory. The path is resolved by its names, and the way up from it leads over them to the
root. The search is over after one round more at most than there are names. It finds the
file of the deepest directory that has one, and none only if there is none; so a file in a
nearer directory wins over those further up. -/
theorem search_isNearest (files : FileTree) (directory : AbsolutePath) (start : String) :
    let p := directory.resolve start
    let result := search files directory start
    p.names = reach (if start.toList.head? = some '/' then [] else directory.names) start.toList ∧
      p.isDoubled =
        (if start.toList.head? = some '/' then startsDoubled start.toList
          else directory.isDoubled) ∧
      (∀ steps, parent^[steps] p = p.ancestor (p.names.length - steps)) ∧
      (∃ rounds ≤ p.names.length + 1, Ends files p rounds result) ∧
      IsNearest files p result ∧
      ∀ depth ≤ p.names.length, HasFile files (p.names.take depth) →
        ∃ nearer ≤ p.names.length, depth ≤ nearer ∧
          ∃ name ∈ fileNames, result = some ((p.ancestor nearer).join name) := by
  intro p result
  have hdeepest : p.names.length ≤ p.names.length := Nat.le_refl _
  have hends := exists_ends_searchUpwards files hdeepest
  have hnearest := isNearest_searchUpwards files p
  have hway := iterate_parent_ancestor hdeepest
  have hstart : p.ancestor p.names.length = p := ancestor_resolve directory start
  rw [hstart] at hends hnearest hway
  refine ⟨names_resolve directory start, isDoubled_resolve directory start, hway, hends, hnearest,
    ?_⟩
  exact fun depth hdepth hfile => hnearest.exists_eq_some hdepth hfile

/-- A file further up is not found, though its name is the preferred one. -/
example :
    let files : FileTree :=
      [(".stricteq.yml", .directory []), ("srv", .directory [("stricteq.yaml", .file ⟨#[]⟩)])]
    (search files (ofNames true ["srv"]) "lib/../.").map text = some "//srv/stricteq.yaml" := by
  decide +kernel

/-! ### What is found can be loaded -/

theorem reaches_of_searchUpwards {directory file : AbsolutePath}
    (h : searchUpwards files directory = some file) : files.reaches file = true := by
  fun_induction searchUpwards files directory with
  | case1 directory found hfound =>
    obtain rfl := Option.some.inj h
    rw [inDirectory?] at hfound
    exact List.find?_some hfound
  | case2 => cases h
  | case3 directory _ _ ih => exact ih h

/-- The path that a search gives leads to the file that was found, from whatever directory,
and loading a configuration from that path reads what is there. -/
theorem load_of_search {directory file : AbsolutePath} {start : String}
    (h : search files directory start = some file) :
    ∃ q, files.locate file = .ok q ∧
      ∀ (yaml : Yaml.Library) (policies : Policies) (working : AbsolutePath),
        load yaml policies files working file.text =
          ofDocument policies file.text (document yaml files q) := by
  have hreaches := reaches_of_searchUpwards h
  unfold FileTree.reaches at hreaches
  split at hreaches
  · next q hlocate =>
    refine ⟨q, hlocate, ?_⟩
    intro yaml policies working
    refine load_of_locate ?_ ((congrArg files.locate (join_text working file)).trans hlocate)
    intro hempty
    have hhead := file.head?_chars
    have hchars : file.chars = [] := String.ofList_inj.mp hempty
    rw [hchars] at hhead
    cases hhead
  · cases hreaches

end Config

end StrictEquality
