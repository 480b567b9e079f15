import StrictEquality.AbsolutePath
import StrictEquality.Fault

/-!
# File trees

The files and directories of a file system, with the bytes of the files.

## Main definitions

- `FileNode`, `FileTree` — files and directories
- `FileTree.at?` — what is on a path of names
- `FileTree.locate` — where a written path leads, step by step
- `FileTree.read` — the bytes of a file
- `FileTree.makeDirectories`, `FileTree.write` — the ways to change a tree

## Design notes

A written path is followed step by step, and each step has to start in a directory that
is there. So a path that only passes through a missing directory leads nowhere, though
it may come back from there. There are no links and no limits on names or rights; a name
never has a null character.

What was made before a fault stays.
-/

namespace StrictEquality

/-- A file or a directory. -/
inductive FileNode
  | file (bytes : ByteArray)
  | directory (entries : List (String × FileNode))

/-- The entry of a directory under a name. -/
def FileNode.child? (node : FileNode) (name : String) : Option FileNode :=
  match node with
  | file _ => none
  | directory entries => (entries.find? (fun e => e.1 == name)).map Prod.snd

/-- The files and directories of a file system: the entries of its root. -/
abbrev FileTree := List (String × FileNode)

namespace FileTree

open AbsolutePath (follow)

/-- What is on a path of names. -/
def at? (tree : FileTree) (p : Path) : Option FileNode :=
  p.foldlM FileNode.child? (.directory tree)

def contains (tree : FileTree) (p : Path) : Bool :=
  (tree.at? p).isSome

def isDirectory (tree : FileTree) (p : Path) : Bool :=
  match tree.at? p with
  | some (.directory _) => true
  | _ => false

/-- The bytes of a file. -/
def read (tree : FileTree) (p : Path) : Except Fault ByteArray :=
  match tree.at? p with
  | some (.file bytes) => .ok bytes
  | some (.directory _) => .error .isDirectory
  | none => .error .fileMissing

/-! ### Following paths -/

/-- Where a step would lead. It has to start in a directory. -/
def enter (tree : FileTree) (p : Path) (step : String) : Except Fault Path :=
  match tree.at? p with
  | some (.directory _) => .ok (follow p step)
  | some (.file _) => .error .notDirectory
  | none => .error .fileMissing

/-- Where a step leads. There has to be something. -/
def step (tree : FileTree) (p : Path) (step : String) : Except Fault Path := do
  let q ← tree.enter p step
  if tree.contains q then return q else .error .fileMissing

/-- Where steps lead from the root. -/
def walk (tree : FileTree) (steps : List String) : Except Fault Path :=
  steps.foldlM tree.step []

/-- Where a path leads. -/
def locate (tree : FileTree) (p : AbsolutePath) : Except Fault Path :=
  tree.walk (Path.pieces p.text)

/-- Whether a path leads to a file or a directory. -/
def reaches (tree : FileTree) (p : AbsolutePath) : Bool :=
  match tree.locate p with
  | .ok _ => true
  | .error _ => false

/-- Whether a path leads to a directory. -/
def reachesDirectory (tree : FileTree) (p : AbsolutePath) : Bool :=
  match tree.locate p with
  | .ok q => tree.isDirectory q
  | .error _ => false

/-- Where the entry is, or would be made, that a path is written for. All its steps but
the last have to lead to a directory. -/
def place (tree : FileTree) (p : AbsolutePath) : Except Fault Path :=
  if p.chars.contains '\x00' then .error (.wrongValue "a path without null characters")
  else do
    let directory ← tree.walk p.steps.dropLast
    tree.enter directory (p.steps.getLastD "")

/-! ### Changing trees -/

/-- Put an entry under a name, in place of an earlier one. -/
def insert (tree : FileTree) (name : String) (node : FileNode) : FileTree :=
  (name, node) :: tree.filter (fun e => e.1 != name)

/-- The entries of the directory under a name. -/
def below (tree : FileTree) (name : String) : FileTree :=
  match (FileNode.directory tree).child? name with
  | some (.directory entries) => entries
  | _ => []

/-- Put a file or a directory on a path of names. -/
def put (tree : FileTree) (p : Path) (node : FileNode) : FileTree :=
  match p with
  | [] => tree
  | [name] => tree.insert name node
  | name :: rest => tree.insert name (.directory (put (tree.below name) rest node))

/-- Make one directory. -/
def makeDirectory (tree : FileTree) (p : AbsolutePath) : Except Fault FileTree := do
  let q ← tree.place p
  if tree.contains q then .error .fileExists else return tree.put q (.directory [])

/-- Make one directory, or be content with the one that is there. -/
def ensureDirectory (tree : FileTree) (p : AbsolutePath) : FileTree × Option Fault :=
  match tree.makeDirectory p with
  | .ok made => (made, none)
  | .error fault => (tree, if tree.reachesDirectory p then none else some fault)

/-- Make the directory that a written path means, and those above it that are missing. -/
def makeDirectories (tree : FileTree) (directory : AbsolutePath) (path : List Char) :
    FileTree × Option Fault :=
  let above := (AbsolutePath.split path).1
  let name := (AbsolutePath.split path).2
  let target := directory.join (String.ofList path)
  if path.isEmpty then (tree, some .fileMissing)
  else if _ : name ≠ [] ∧ above ≠ [] ∧ !tree.reaches (directory.join (String.ofList above)) then
    match makeDirectories tree directory above with
    -- that something else is there shows when the directory itself is made
    | (tree, none) | (tree, some .fileExists) =>
      if name = ['.'] then (tree, none) else tree.ensureDirectory target
    | (tree, some fault) => (tree, some fault)
  else tree.ensureDirectory target
termination_by path.length
decreasing_by exact AbsolutePath.length_split_lt (And.left ‹_›)

/-- Write the bytes of a file, in place of those it had. -/
def writeBytes (tree : FileTree) (p : AbsolutePath) (bytes : ByteArray) :
    Except Fault FileTree := do
  let q ← tree.place p
  if tree.isDirectory q || p.chars.getLast? = some '/' then .error .isDirectory
  else return tree.put q (.file bytes)

/-- Write a file to a written path, making the directory it is in. -/
def write (tree : FileTree) (directory : AbsolutePath) (path : String) (bytes : ByteArray) :
    FileTree × Option Fault :=
  let above := AbsolutePath.parentChars path.toList
  let made := if above.isEmpty then (tree, none) else tree.makeDirectories directory above
  match made with
  | (tree, some fault) => (tree, some fault)
  | (tree, none) =>
    if path = "" then (tree, some .fileMissing)
    else
      match tree.writeBytes (directory.join path) bytes with
      | .ok written => (written, none)
      | .error fault => (tree, some fault)

end FileTree

end StrictEquality
