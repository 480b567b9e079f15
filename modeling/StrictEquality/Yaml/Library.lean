import StrictEquality.Value

/-!
# Libraries for documents

Configurations are read and written by a library that knows the format of documents.
Nothing is said here about what it does with them.

## Main definitions

- `Library` — how documents are read and written
-/

namespace StrictEquality

namespace Yaml

/-- How documents are read and written. -/
structure Library where
  /-- The value of the document in a text, if there is one. -/
  load : String → Except Fault Value
  /-- The document of a mapping. -/
  dump : Entries → String

end Yaml

end StrictEquality
