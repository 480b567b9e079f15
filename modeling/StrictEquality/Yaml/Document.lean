import StrictEquality.Value
import StrictEquality.Yaml.Node.Reader
import StrictEquality.Yaml.Scalar.Number

/-!
# Documents

The value that a document stands for.

## Main definitions

- `Node.build` — the value of a node, with the faults found on the way
- `Node.value` — the value, or the fault that comes first
- `read` — the value of the only document of a text

## Design notes

Values are built level by level: a fault near the root comes before one further
down, and on one level the faults come in the order of the text. In a mapping the
entries that are merged in come first, so that an entry of the mapping itself takes
the place of a merged one. Of several mappings in one list the first prevails.
-/

namespace StrictEquality

namespace Yaml

/-- A fault and the level it is found on. -/
abbrev Found := Nat × Fault

/-- The flag that a text stands for. -/
def flag (text : String) : Except Fault Bool :=
  let name := text.toLower
  if ["yes", "true", "on"].contains name then .ok true
  else if ["no", "false", "off"].contains name then .ok false
  else .error .missingKey

/-- The value of a scalar with a tag. -/
def scalarValue (tag : Tag) (text : String) : Except Fault Value :=
  match tag with
  | .str => .ok (.text text)
  | .int => Value.int <$> integer text
  | .float => Value.float <$> real text
  | .bool => Value.bool <$> flag text
  | .null => .ok .null
  | _ => .error .malformed

/-- Whether nodes with a tag are collections. Their contents are built one level
further down. -/
def Tag.isCollection : Tag → Bool
  | .seq | .map | .set => true
  | _ => false

/-- A collection that a node of another form cannot stand for. -/
def misfit (level : Nat) (tag : Tag) : Value × List Found :=
  (.list [], [(if tag.isCollection then level + 1 else level, .malformed)])

/-- The value of a text with a tag. -/
def buildText (level : Nat) (tag : Tag) (text : Option String) : Value × List Found :=
  match text with
  | some s =>
    if tag.isCollection then misfit level tag
    else
      match scalarValue tag s with
      | .ok v => (v, [])
      | .error f => (.null, [(level, f)])
  | none => misfit level tag

/-- The entries of a mapping while they are built. -/
structure BuiltEntries where
  merged : List (Value × Value) := []
  own : List (Value × Value) := []
  /-- Faults of merging, which come before all others of the mapping. -/
  mergeFaults : List Found := []
  mergedFaults : List Found := []
  ownFaults : List Found := []

namespace BuiltEntries

/-- All entries, the merged ones first. -/
def all (b : BuiltEntries) : List (Value × Value) :=
  b.merged ++ b.own

/-- All faults of entries, in the order of the entries. -/
def entryFaults (b : BuiltEntries) : List Found :=
  b.mergedFaults ++ b.ownFaults

/-- Merge the entries of a mapping in, before those that are merged already. -/
def mergeIn (b other : BuiltEntries) : BuiltEntries :=
  { b with
    merged := other.all ++ b.merged
    mergeFaults := other.mergeFaults ++ b.mergeFaults
    mergedFaults := other.entryFaults ++ b.mergedFaults }

/-- Entries that cannot be merged. -/
def unmergeable (level : Nat) : BuiltEntries :=
  { mergeFaults := [(level, .malformed)] }

/-- Put an entry in front. A key that may not be one is a fault. -/
def put (b : BuiltEntries) (level : Nat) (key value : Value × List Found) : BuiltEntries :=
  let keyFaults : List Found := if key.1.isKey then [] else [(level, .malformed)]
  { b with
    own := (key.1, value.1) :: b.own
    ownFaults := key.2 ++ keyFaults ++ value.2 ++ b.ownFaults }

/-- All faults, in the order in which they are found. -/
def faults (b : BuiltEntries) : List Found :=
  b.mergeFaults ++ b.entryFaults

end BuiltEntries

namespace Node

mutual

/-- The value of a node on a level, with the faults found on the way. -/
def build (level : Nat) : Node → Value × List Found
  | scalar tag text => buildText level tag (some text)
  | sequence tag items =>
    match tag with
    | .seq => buildItems (level + 1) items
    | tag => misfit level tag
  | mapping tag entries =>
    match tag with
    | .map =>
      let b := buildEntries (level + 1) entries
      (.map (Entries.ofPairs b.all), b.faults)
    | .set =>
      let b := buildEntries (level + 1) entries
      (.set ((Entries.ofPairs b.all).map Prod.fst), b.faults)
    | tag => buildText level tag (defaultText? entries)

/-- The list of the values of items. -/
def buildItems (level : Nat) (items : List Node) : Value × List Found :=
  let built := buildEach level items
  (.list (built.map Prod.fst), built.flatMap Prod.snd)

/-- The values of items. -/
def buildEach (level : Nat) : List Node → List (Value × List Found)
  | [] => []
  | item :: rest => build level item :: buildEach level rest

/-- The entries of a mapping, with those that are merged in. -/
def buildEntries (level : Nat) : List (Node × Node) → BuiltEntries
  | [] => {}
  | (key, value) :: rest =>
    if key.tag = .merge then
      (buildEntries level rest).mergeIn (buildMerged level value)
    else if key.tag = .defaultValue then
      (buildEntries level rest).put level (buildText level .str key.scalarText?)
        (build level value)
    else (buildEntries level rest).put level (build level key) (build level value)

/-- The entries that are merged in from a mapping, or from the mappings of a list. -/
def buildMerged (level : Nat) : Node → BuiltEntries
  | scalar _ _ => .unmergeable level
  | mapping _ entries => buildEntries level entries
  | sequence _ items => buildMergedItems level items

/-- The entries that are merged in from the mappings of a list, those of the last
mapping first. -/
def buildMergedItems (level : Nat) : List Node → BuiltEntries
  | [] => {}
  | item :: rest =>
    let last := buildMergedItems level rest
    let here := buildMergedItem level item
    { merged := last.merged ++ here.all
      mergeFaults := here.mergeFaults ++ last.mergeFaults
      mergedFaults := last.mergedFaults ++ here.entryFaults }

/-- The entries of an item of a list of mappings to merge. -/
def buildMergedItem (level : Nat) : Node → BuiltEntries
  | mapping _ entries => buildEntries level entries
  | _ => .unmergeable level

end

/-- The fault that is found first: on the least level, and there the first one. -/
def firstFault (found : List Found) : Option Fault :=
  (found.foldl
    (fun (best : Option Found) f =>
      match best with
      | some b => if f.1 < b.1 then some f else some b
      | none => some f)
    none).map Prod.snd

/-- The value of a node, or the fault that comes first. -/
def value (n : Node) : Except Fault Value :=
  let built := n.build 0
  match firstFault built.2 with
  | none => .ok built.1
  | some f => .error f

end Node

/-- The value of the only document of a text, whose line ends are newlines. A text without
a document stands for null. -/
def read (text : String) : Except Fault Value := do
  let cs := text.toList
  unless cs.all isPermitted do
    .error .malformed
  match ← Node.ofTokens? (← Token.scan cs) with
  | none => return .null
  | some n => n.value

end Yaml

end StrictEquality
