import Mathlib.Data.List.Find
import StrictEquality.FileTree
import StrictEquality.Proofs.AbsolutePaths

/-!
# Paths through a file tree

A path is followed step by step. Over names alone it leads to what is on these names, and a
path that a file was written to leads to that file.

Main statements: `FileTree.locate_ofNames_eq_ok_iff`, `FileTree.exists_locate_of_write`.
-/

namespace StrictEquality

open AbsolutePath StrictEquality.Path

namespace FileTree

variable {tree saved : FileTree} {p q : Path} {name : String} {steps : List String}

theorem at?_append (tree : FileTree) (p q : Path) :
    tree.at? (p ++ q) = (tree.at? p).bind (q.foldlM FileNode.child?) := by
  rw [at?, List.foldlM_append]
  rfl

theorem isDirectory_iff :
    tree.isDirectory p = true ↔ ∃ entries, tree.at? p = some (.directory entries) := by
  unfold isDirectory
  split
  · next entries h => simp [h]
  · next h => simpa using h

theorem isDirectory_nil (tree : FileTree) : tree.isDirectory [] = true :=
  rfl

theorem contains_of_isDirectory (h : tree.isDirectory p = true) : tree.contains p = true := by
  obtain ⟨entries, hentries⟩ := isDirectory_iff.mp h
  rw [contains, hentries]
  rfl

/-- What something is in is a directory. -/
theorem isDirectory_of_contains_append (hq : q ≠ []) (h : tree.contains (p ++ q) = true) :
    tree.isDirectory p = true := by
  obtain ⟨first, rest, rfl⟩ := List.exists_cons_of_ne_nil hq
  rw [contains, at?_append] at h
  rw [isDirectory]
  cases hat : tree.at? p with
  | none => simp [hat] at h
  | some node =>
    cases node with
    | file bytes => simp [hat, FileNode.child?] at h
    | directory entries => rfl

theorem contains_of_contains_append (h : tree.contains (p ++ q) = true) :
    tree.contains p = true := by
  by_cases hq : q = []
  · rwa [hq, List.append_nil] at h
  · exact contains_of_isDirectory (isDirectory_of_contains_append hq h)

section Steps

/-! ### Following steps -/

theorem enter_eq_ok_iff {step : String} :
    tree.enter p step = .ok q ↔ tree.isDirectory p = true ∧ q = follow p step := by
  unfold enter isDirectory
  cases tree.at? p with
  | none => simp
  | some node =>
    cases node with
    | file bytes => simp
    | directory entries =>
      simp only [Except.ok.injEq, true_and]
      exact eq_comm

theorem step_eq_ok_iff {step : String} :
    tree.step p step = .ok q ↔
      tree.isDirectory p = true ∧ q = follow p step ∧ tree.contains q = true := by
  rw [FileTree.step, Fault.bind_eq_ok]
  constructor
  · rintro ⟨r, hr, h⟩
    obtain ⟨hdirectory, hfollow⟩ := enter_eq_ok_iff.mp hr
    split at h
    · next hthere =>
      obtain rfl := Except.ok.inj h
      exact ⟨hdirectory, hfollow, hthere⟩
    · cases h
  · rintro ⟨hdirectory, hfollow, hthere⟩
    refine ⟨q, enter_eq_ok_iff.mpr ⟨hdirectory, hfollow⟩, ?_⟩
    rw [if_pos hthere]
    rfl

/-- Names lead to what is on them, if there is something. -/
theorem foldlM_step_eq_ok_iff (hsteps : ∀ name ∈ steps, IsName name)
    (hp : tree.contains p = true) :
    steps.foldlM tree.step p = .ok q ↔ q = p ++ steps ∧ tree.contains q = true := by
  induction steps generalizing p with
  | nil =>
    rw [List.append_nil]
    constructor
    · intro h
      obtain rfl := Except.ok.inj h
      exact ⟨rfl, hp⟩
    · rintro ⟨rfl, -⟩
      rfl
  | cons name steps ih =>
    obtain ⟨hname, hsteps⟩ := List.forall_mem_cons.mp hsteps
    have happend : p ++ name :: steps = (p ++ [name]) ++ steps := by simp
    rw [List.foldlM_cons, Fault.bind_eq_ok, happend]
    constructor
    · rintro ⟨r, hr, h⟩
      obtain ⟨-, rfl, hthere⟩ := step_eq_ok_iff.mp hr
      rw [follow_of_isName hname] at h hthere
      exact (ih hsteps hthere).mp h
    · rintro ⟨rfl, hthere⟩
      have hfirst := contains_of_contains_append hthere
      have hdirectory := isDirectory_of_contains_append (List.cons_ne_nil name []) hfirst
      have hstep : tree.step p name = .ok (p ++ [name]) :=
        step_eq_ok_iff.mpr ⟨hdirectory, (follow_of_isName hname p).symm, hfirst⟩
      exact ⟨_, hstep, (ih hsteps hfirst).mpr ⟨rfl, hthere⟩⟩

theorem step_nil_empty (tree : FileTree) : tree.step [] "" = .ok [] :=
  step_eq_ok_iff.mpr ⟨isDirectory_nil tree, rfl, rfl⟩

/-- A slash at the start of a text leads nowhere else. -/
theorem walk_pieces_slash (tree : FileTree) (cs : List Char) :
    tree.walk (pieces (String.ofList ('/' :: cs))) = tree.walk (pieces (String.ofList cs)) := by
  have hpieces : pieces (String.ofList ('/' :: cs)) = "" :: pieces (String.ofList cs) := by
    simp [pieces, Text.splitAt]
  rw [hpieces, walk, List.foldlM_cons, step_nil_empty, Fault.ok_bind]
  rfl

/-- A path over names leads to what is on them. -/
theorem locate_ofNames_eq_ok_iff (doubled : Bool) (hp : ∀ name ∈ p, IsName name) :
    tree.locate (ofNames doubled p) = .ok q ↔ q = p ∧ tree.contains q = true := by
  have hroot : tree.locate (ofNames doubled p) =
      tree.walk (pieces (String.ofList (['/'].intercalate (p.map String.toList)))) := by
    rw [locate, AbsolutePath.text, chars_ofNames]
    cases doubled with
    | false => exact walk_pieces_slash tree _
    | true => exact (walk_pieces_slash tree _).trans (walk_pieces_slash tree _)
  have hpieces : tree.walk (pieces (String.ofList (['/'].intercalate (p.map String.toList)))) =
      p.foldlM tree.step [] := by
    by_cases hnil : p = []
    · subst hnil
      change (tree.step [] "" >>= fun r => pure r) = pure []
      rw [step_nil_empty, Fault.ok_bind]
    · have hslash : ∀ piece ∈ p.map String.toList, '/' ∉ piece := by
        intro piece hpiece
        obtain ⟨name, hname, rfl⟩ := List.mem_map.mp hpiece
        exact (hp name hname).slash_not_mem
      rw [pieces, String.toList_ofList, Text.splitAt_intercalate (by simpa using hnil) hslash]
      simp [walk]
  rw [hroot, hpieces, foldlM_step_eq_ok_iff hp rfl, List.nil_append]

theorem reaches_ofNames (tree : FileTree) (doubled : Bool) (hp : ∀ name ∈ p, IsName name) :
    tree.reaches (ofNames doubled p) = tree.contains p := by
  rw [reaches]
  cases hlocate : tree.locate (ofNames doubled p) with
  | ok q =>
    obtain ⟨rfl, hthere⟩ := (locate_ofNames_eq_ok_iff doubled hp).mp hlocate
    exact hthere.symm
  | error fault =>
    rw [eq_comm, Bool.eq_false_iff]
    intro hthere
    have hok := (locate_ofNames_eq_ok_iff doubled hp).mpr ⟨rfl, hthere⟩
    rw [hlocate] at hok
    cases hok

/-- Steps that lead to a directory only pass through directories. -/
theorem isDirectory_of_foldlM_step (h : steps.foldlM tree.step p = .ok q)
    (hq : tree.isDirectory q = true) : tree.isDirectory p = true := by
  cases steps with
  | nil =>
    obtain rfl := Except.ok.inj h
    exact hq
  | cons step steps =>
    rw [List.foldlM_cons] at h
    obtain ⟨r, hr, -⟩ := Fault.bind_eq_ok.mp h
    exact (step_eq_ok_iff.mp hr).1

/-- Steps that lead to a directory lead there in every tree that has all the directories. -/
theorem foldlM_step_of_forall_isDirectory
    (hall : ∀ r, tree.isDirectory r = true → saved.isDirectory r = true)
    (h : steps.foldlM tree.step p = .ok q) (hq : tree.isDirectory q = true) :
    steps.foldlM saved.step p = .ok q := by
  induction steps generalizing p with
  | nil => exact h
  | cons step steps ih =>
    rw [List.foldlM_cons] at h ⊢
    obtain ⟨r, hr, hrest⟩ := Fault.bind_eq_ok.mp h
    obtain ⟨hp, hfollow, -⟩ := step_eq_ok_iff.mp hr
    have hthere := contains_of_isDirectory (hall r (isDirectory_of_foldlM_step hrest hq))
    exact Fault.bind_eq_ok.mpr
      ⟨r, step_eq_ok_iff.mpr ⟨hall p hp, hfollow, hthere⟩, ih hrest⟩

end Steps

section Changes

/-! ### What has been put into a tree -/

variable {node : FileNode}

theorem child?_insert (tree : FileTree) (name : String) (node : FileNode) (other : String) :
    (FileNode.directory (tree.insert name node)).child? other =
      if name = other then some node else (FileNode.directory tree).child? other := by
  rw [FileNode.child?, insert, List.find?_cons]
  by_cases hsame : name = other
  · simp [hsame]
  · rw [beq_eq_false_iff_ne.mpr hsame, if_neg hsame, FileNode.child?]
    have hfilter : (tree.filter (fun e => e.1 != name)).find? (fun e => e.1 == other) =
        tree.find? (fun e => e.1 == other) := by
      rw [List.find?_filter]
      refine List.find?_congr ?_
      intro e _
      by_cases hother : e.1 = other
      · simp [hother, Ne.symm hsame]
      · simp [hother]
    rw [← hfilter]

theorem at?_cons (tree : FileTree) (name : String) (p : Path) :
    tree.at? (name :: p) =
      ((FileNode.directory tree).child? name).bind (p.foldlM FileNode.child?) := by
  rw [at?, List.foldlM_cons]
  rfl

/-- Under the name of a directory everything is as in that directory. -/
theorem at?_cons_of_isDirectory (h : tree.isDirectory [name] = true) (p : Path) :
    tree.at? (name :: p) = (tree.below name).at? p := by
  obtain ⟨entries, hentries⟩ := isDirectory_iff.mp h
  have hchild : (FileNode.directory tree).child? name = some (.directory entries) := by
    simpa [at?_cons] using hentries
  rw [at?_cons, below, hchild]
  rfl

theorem isDirectory_cons_of_isDirectory (h : tree.isDirectory [name] = true) (p : Path) :
    tree.isDirectory (name :: p) = (tree.below name).isDirectory p := by
  rw [isDirectory, isDirectory, at?_cons_of_isDirectory h]

/-- What has been put on a path is there. -/
theorem at?_put (tree : FileTree) (hp : p ≠ []) (node : FileNode) :
    (tree.put p node).at? p = some node := by
  induction p generalizing tree with
  | nil => exact absurd rfl hp
  | cons name rest ih =>
    cases rest with
    | nil => simp [put, at?_cons, child?_insert]
    | cons next rest =>
      rw [put, at?_cons, child?_insert, if_pos rfl]
      · exact ih (tree.below name) (List.cons_ne_nil next rest)
      · simp

/-- What is under another name than the one that is put stays. -/
theorem isDirectory_insert_of_ne {other : String} (h : name ≠ other) (p : Path) :
    (tree.insert name node).isDirectory (other :: p) = tree.isDirectory (other :: p) := by
  rw [isDirectory, isDirectory, at?_cons, at?_cons, child?_insert, if_neg h]

/-- Directories stay directories, if nothing is put in the place of one. -/
theorem isDirectory_put (hp : tree.isDirectory p = false) (hq : tree.isDirectory q = true) :
    (tree.put p node).isDirectory q = true := by
  induction p generalizing tree q with
  | nil => exact hq
  | cons name rest ih =>
    cases q with
    | nil => exact isDirectory_nil _
    | cons other below =>
      by_cases hsame : name = other
      · subst hsame
        have hfirst : tree.isDirectory [name] = true := by
          by_cases hnil : below = []
          · rwa [hnil] at hq
          · have hthere : tree.contains ([name] ++ below) = true := contains_of_isDirectory hq
            exact isDirectory_of_contains_append hnil hthere
        rw [isDirectory_cons_of_isDirectory hfirst] at hp hq
        cases rest with
        | nil => cases hp
        | cons next rest =>
          -- the way goes on in the directory that is there already
          rw [put, isDirectory, at?_cons, child?_insert, if_pos rfl]
          · exact ih hp hq
          · simp
      · have hother : ∀ node, (tree.insert name node).isDirectory (other :: below) = true := by
          intro node
          rw [isDirectory_insert_of_ne hsame]
          exact hq
        cases rest with
        | nil => exact hother node
        | cons next rest => exact hother _

theorem pieces_ne_nil (text : String) : pieces text ≠ [] := by
  simpa [pieces] using Text.splitAt_ne_nil '/' text.toList

/-- A path that does not end in a slash has all its pieces for steps. -/
theorem steps_of_getLast? {path : AbsolutePath} (h : path.chars.getLast? ≠ some '/') :
    path.steps = pieces path.text := by
  have hwhole : dropEnd (· == '/') path.chars = path.chars := by
    rw [dropEnd, List.dropWhile_eq_self_iff.mpr, List.reverse_reverse]
    intro hpos hslash
    apply h
    rw [← List.head?_reverse, List.head?_eq_some_head (List.ne_nil_of_length_pos hpos)]
    simpa [List.head_eq_getElem] using hslash
  rw [steps, hwhole]
  rfl

/-- A file has been written to a path, which leads there afterwards. -/
theorem exists_locate_of_writeBytes {path : AbsolutePath} {bytes : ByteArray}
    (h : tree.writeBytes path bytes = .ok saved) :
    ∃ q, saved.locate path = .ok q ∧ saved.at? q = some (.file bytes) := by
  obtain ⟨q, hplace, h⟩ := Fault.bind_eq_ok.mp h
  split at h
  · cases h
  · next hfree =>
    obtain rfl := Except.ok.inj h
    obtain ⟨hfile, hslash⟩ : tree.isDirectory q = false ∧ path.chars.getLast? ≠ some '/' := by
      simpa using hfree
    obtain ⟨directory, hwalk, hlast⟩ : ∃ directory,
        tree.walk path.steps.dropLast = .ok directory ∧
          tree.enter directory (path.steps.getLastD "") = .ok q := by
      rw [place] at hplace
      split at hplace
      · cases hplace
      · exact Fault.bind_eq_ok.mp hplace
    obtain ⟨hdirectory, hfollow⟩ := enter_eq_ok_iff.mp hlast
    have hq : q ≠ [] := by
      rintro rfl
      rw [isDirectory_nil] at hfile
      cases hfile
    have hat : (tree.put q (.file bytes)).at? q = some (.file bytes) := at?_put tree hq _
    -- without a slash at the end all pieces of the path are steps
    have hsteps : path.steps.dropLast ++ [path.steps.getLastD ""] = pieces path.text := by
      rw [steps_of_getLast? hslash]
      rw [List.getLastD_eq_getLast?, List.getLast?_eq_some_getLast (pieces_ne_nil path.text),
        Option.getD_some, List.dropLast_concat_getLast]
    refine ⟨q, ?_, hat⟩
    have hway : (tree.put q (.file bytes)).walk path.steps.dropLast = .ok directory :=
      foldlM_step_of_forall_isDirectory (fun _ => isDirectory_put hfile) hwalk hdirectory
    have hend : (tree.put q (.file bytes)).step directory (path.steps.getLastD "") = .ok q :=
      step_eq_ok_iff.mpr ⟨isDirectory_put hfile hdirectory, hfollow, by rw [contains, hat]; rfl⟩
    rw [locate, ← hsteps, walk, List.foldlM_append]
    change (tree.put q (.file bytes)).walk path.steps.dropLast >>= _ = _
    rw [hway, Fault.ok_bind, List.foldlM_cons, hend]
    rfl

/-- A file that has been written is read at the same path. -/
theorem exists_locate_of_write {directory : AbsolutePath} {path : String} {bytes : ByteArray}
    (h : tree.write directory path bytes = (saved, none)) :
    path ≠ "" ∧ ∃ q, saved.locate (directory.join path) = .ok q ∧ saved.read q = .ok bytes := by
  simp only [write] at h
  split at h
  · cases h
  · split at h
    · cases h
    · next hpath =>
      split at h
      · next written hwritten =>
        obtain rfl := (Prod.mk.inj h).1
        obtain ⟨q, hlocate, hat⟩ := exists_locate_of_writeBytes hwritten
        exact ⟨hpath, q, hlocate, by rw [read, hat]⟩
      · cases h

end Changes

end FileTree

end StrictEquality
