import StrictEquality.Config
import StrictEquality.FileTree
import StrictEquality.Yaml.Library

/-!
# Writing configurations

## Main definitions

- `Config.save` — write a configuration to a file
-/

namespace StrictEquality

namespace Config

/-- Write a configuration to a written path, seen from a working directory. The directory
of the file is made. -/
def save (c : Config) (yaml : Yaml.Library) (files : FileTree) (directory : AbsolutePath)
    (path : String) : FileTree × Option Fault :=
  files.write directory path (yaml.dump c.entries).toUTF8

end Config

end StrictEquality
