import StrictEquality.FileTree

/-!
# Finding configurations

The configuration file that is meant where none is named: the nearest one in a
directory or above it.

## Main definitions

- `Config.fileNames` — the names of configuration files, the preferred one first
- `Config.searchUpwards` — the nearest configuration file in a directory or above it
- `Config.search` — the same for a written path

## Design notes

The search knows the way up only by the texts of the paths. It ends because a path that
is not its own parent has a shorter one.
-/

namespace StrictEquality

namespace Config

def fileNames : List String :=
  [".stricteq.yml", ".stricteq.yaml", "stricteq.yml", "stricteq.yaml"]

/-- The configuration file in a directory. A directory of such a name counts as well. -/
def inDirectory? (files : FileTree) (directory : AbsolutePath) : Option AbsolutePath :=
  (fileNames.map directory.join).find? files.reaches

/-- The configuration file in a directory, or else in the one it is in, up to the root. -/
def searchUpwards (files : FileTree) (directory : AbsolutePath) : Option AbsolutePath :=
  match inDirectory? files directory with
  | some file => some file
  | none =>
    if directory.parent = directory then none
    else searchUpwards files directory.parent
termination_by directory.chars.length
decreasing_by exact AbsolutePath.length_parent_lt ‹_›

/-- The nearest configuration file for a written path, seen from a working directory. -/
def search (files : FileTree) (directory : AbsolutePath) (start : String := ".") :
    Option AbsolutePath :=
  searchUpwards files (directory.resolve start)

end Config

end StrictEquality
