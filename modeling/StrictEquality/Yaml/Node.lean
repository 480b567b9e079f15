import StrictEquality.Yaml.Tag

/-!
# Nodes

The tree that a document describes, with a tag on every node.

## Main definitions

- `Node` — scalars, sequences and mappings
- `Node.scalarText?` — the text that a node stands for
-/

namespace StrictEquality

namespace Yaml

/-- A node of a document. -/
inductive Node
  | scalar (tag : Tag) (text : String)
  | sequence (tag : Tag) (items : List Node)
  | mapping (tag : Tag) (entries : List (Node × Node))

namespace Node

/-- The node that stands where nothing is written. -/
def empty : Node := scalar .null ""

def tag : Node → Tag
  | scalar t _ => t
  | sequence t _ => t
  | mapping t _ => t

mutual

/-- The text of a scalar. A mapping with a default value has the text of that. -/
def scalarText? : Node → Option String
  | scalar _ text => some text
  | sequence _ _ => none
  | mapping _ entries => defaultText? entries

/-- The text of the default value among entries. -/
def defaultText? : List (Node × Node) → Option String
  | [] => none
  | (key, value) :: rest =>
    if key.tag = .defaultValue then scalarText? value else defaultText? rest

end

end Node

end Yaml

end StrictEquality
