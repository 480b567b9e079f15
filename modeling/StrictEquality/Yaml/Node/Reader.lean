import StrictEquality.Yaml.Node
import StrictEquality.Yaml.Token.Lexer

/-!
# From tokens to nodes

The grammar of documents over tokens. Aliases are replaced by the nodes they stand
for.

## Main definitions

- `Reading` — the tokens that are left, and the nodes that have names
- `Reader.node` and the functions beside it — one for each form of the grammar
- `Node.ofTokens?` — the node of the only document of a text

## Design notes

An alias may stand inside of the collection it names. It stands for an empty
collection there, so that the tree is finite.
-/

namespace StrictEquality

namespace Yaml

/-- The tokens that are left, and the nodes that have names. -/
structure Reading where
  tokens : List Token
  anchors : List (String × Node) := []

/-- A step of reading. -/
abbrev Reader (α : Type) := StateT Reading (Except Fault) α

/-- The short forms of tags that need not be introduced. -/
def standardHandles : List (String × String) :=
  [("!", "!"), ("!!", Tag.standardStem)]

namespace Reader

def refuse {α : Type} : Reader α :=
  throw .malformed

def peek : Reader (Option Token) := do
  return (← get).tokens.head?

def pass : Reader Unit :=
  modify (fun r => { r with tokens := r.tokens.tail })

/-- Whether the next token is one of several. -/
def sees (ts : List Token) : Reader Bool := do
  return (← peek).any ts.contains

/-- Pass a token if it comes next. -/
def passes (t : Token) : Reader Bool := do
  if ← sees [t] then
    pass
    return true
  else return false

/-- Pass a token, which has to come next. -/
def demand (t : Token) : Reader Unit := do
  unless ← passes t do
    refuse

def named (name : String) : Reader Node := do
  match (← get).anchors.find? (fun e => e.1 == name) with
  | some e => return e.2
  | none => refuse

/-- Give a node a name. -/
def bindName (name : String) (n : Node) : Reader Unit :=
  modify (fun r => { r with anchors := (name, n) :: r.anchors.filter (fun e => e.1 != name) })

/-- Read a node that may have a name. While it is read, the name stands for an
empty form of it. A name can be given once. -/
def withAnchor (anchor : Option String) (emptyForm : Node) (read : Reader Node) :
    Reader Node := do
  match anchor with
  | none => read
  | some name =>
    if (← get).anchors.any (fun e => e.1 == name) then refuse
    bindName name emptyForm
    let n ← read
    bindName name n
    return n

/-- What is written in front of a node. -/
structure Properties where
  anchor : Option String := none
  tag : Option (Option String × String) := none

/-- Pass an anchor if there is one. -/
def anchor? : Reader (Option String) := do
  match ← peek with
  | some (.anchor name) =>
    pass
    return some name
  | _ => return none

/-- Pass a tag if there is one. -/
def tag? : Reader (Option (Option String × String)) := do
  match ← peek with
  | some (.tag handle suffix) =>
    pass
    return some (handle, suffix)
  | _ => return none

/-- An anchor and a tag, in either order, both of which may be missing. -/
def properties : Reader Properties := do
  match ← anchor? with
  | some name => return { anchor := some name, tag := ← tag? }
  | none =>
    match ← tag? with
    | some t => return { anchor := ← anchor?, tag := some t }
    | none => return {}

def fullName (handles : List (String × String)) (t : Option String × String) : Reader String := do
  match t.1 with
  | none => return t.2
  | some handle =>
    match handles.find? (fun e => e.1 == handle) with
    | some e => return e.2 ++ t.2
    | none => refuse

/-- The tag that is written in front of a node. A lone exclamation mark only says
that there is no other. -/
inductive GivenTag
  | absent
  | unspecific
  | given (tag : Tag)

/-- The tag with a full name. -/
def GivenTag.ofName (name : String) : GivenTag :=
  if name == "!" then unspecific else given (Tag.ofName name)

/-- The tag that is given, or another. -/
def GivenTag.orElse (t : GivenTag) (other : Tag) : Tag :=
  match t with
  | given tag => tag
  | _ => other

/-- The tag of a scalar. Quotes make it a text unless a tag is written. -/
def GivenTag.ofScalar (t : GivenTag) (text : String) (isPlain : Bool) : Tag :=
  match t with
  | given tag => tag
  | unspecific => Tag.ofPlain text
  | absent => if isPlain then Tag.ofPlain text else .str

mutual

/-- A node. Block collections are read where `block` says so, and where
`indentless` says so the items of a sequence need not be indented. -/
def node (handles : List (String × String)) (block indentless : Bool) : Nat → Reader Node
  | 0 => refuse
  | fuel + 1 => do
    match ← peek with
    | some (.alias name) =>
      pass
      named name
    | _ =>
      let p ← properties
      let t ← match p.tag with
        | none => pure GivenTag.absent
        | some t => GivenTag.ofName <$> fullName handles t
      match ← peek with
      | some (.scalar text isPlain) =>
        pass
        let n := Node.scalar (t.ofScalar text isPlain) text
        withAnchor p.anchor n (pure n)
      | some .flowSequence =>
        pass
        let tag := t.orElse .seq
        withAnchor p.anchor (.sequence tag [])
          (Node.sequence tag <$> flowItems handles true fuel)
      | some .flowMapping =>
        pass
        let tag := t.orElse .map
        withAnchor p.anchor (.mapping tag [])
          (Node.mapping tag <$> flowEntries handles true fuel)
      | some .entry =>
        if indentless then
          let tag := t.orElse .seq
          withAnchor p.anchor (.sequence tag [])
            (Node.sequence tag <$> indentlessItems handles fuel)
        else emptyNode p t
      | some .blockSequence =>
        if block then
          pass
          let tag := t.orElse .seq
          withAnchor p.anchor (.sequence tag []) (Node.sequence tag <$> blockItems handles fuel)
        else emptyNode p t
      | some .blockMapping =>
        if block then
          pass
          let tag := t.orElse .map
          withAnchor p.anchor (.mapping tag []) (Node.mapping tag <$> blockEntries handles fuel)
        else emptyNode p t
      | _ => emptyNode p t

/-- A node of which only properties are written. -/
def emptyNode (p : Properties) (t : GivenTag) : Reader Node :=
  if p.anchor.isNone && p.tag.isNone then refuse
  else
    let n := Node.scalar (t.ofScalar "" true) ""
    withAnchor p.anchor n (pure n)

/-- A node, or an empty one in front of one of the given tokens. -/
def nodeUnless (handles : List (String × String)) (stops : List Token) (block indentless : Bool) :
    Nat → Reader Node
  | 0 => refuse
  | fuel + 1 => do
    if ← sees stops then return .empty else node handles block indentless fuel

/-- The items of a block sequence up to its end. -/
def blockItems (handles : List (String × String)) : Nat → Reader (List Node)
  | 0 => refuse
  | fuel + 1 => do
    if ← passes .entry then
      let item ← nodeUnless handles [.entry, .blockEnd] true false fuel
      return item :: (← blockItems handles fuel)
    else
      demand .blockEnd
      return []

/-- The items of a sequence that is not indented. -/
def indentlessItems (handles : List (String × String)) : Nat → Reader (List Node)
  | 0 => refuse
  | fuel + 1 => do
    if ← passes .entry then
      let item ← nodeUnless handles [.entry, .key, .value, .blockEnd] true false fuel
      return item :: (← indentlessItems handles fuel)
    else return []

/-- The entries of a block mapping up to its end. -/
def blockEntries (handles : List (String × String)) : Nat → Reader (List (Node × Node))
  | 0 => refuse
  | fuel + 1 => do
    if ← passes .key then
      let key ← nodeUnless handles [.key, .value, .blockEnd] true true fuel
      let value ←
        if ← passes .value then nodeUnless handles [.key, .value, .blockEnd] true true fuel
        else pure Node.empty
      return (key, value) :: (← blockEntries handles fuel)
    else
      demand .blockEnd
      return []

/-- The items of a flow sequence up to its end. A key makes an item a mapping of one
entry. -/
def flowItems (handles : List (String × String)) (first : Bool) : Nat → Reader (List Node)
  | 0 => refuse
  | fuel + 1 => do
    if ← passes .flowSequenceEnd then return []
    unless first do
      demand .comma
    if ← passes .key then
      let key ← nodeUnless handles [.value, .comma, .flowSequenceEnd] false false fuel
      let value ←
        if ← passes .value then
          nodeUnless handles [.comma, .flowSequenceEnd] false false fuel
        else pure Node.empty
      return .mapping .map [(key, value)] :: (← flowItems handles false fuel)
    else if ← passes .flowSequenceEnd then return []
    else
      let item ← node handles false false fuel
      return item :: (← flowItems handles false fuel)

/-- The entries of a flow mapping up to its end. -/
def flowEntries (handles : List (String × String)) (first : Bool) :
    Nat → Reader (List (Node × Node))
  | 0 => refuse
  | fuel + 1 => do
    if ← passes .flowMappingEnd then return []
    unless first do
      demand .comma
    if ← passes .key then
      let key ← nodeUnless handles [.value, .comma, .flowMappingEnd] false false fuel
      let value ←
        if ← passes .value then
          nodeUnless handles [.comma, .flowMappingEnd] false false fuel
        else pure Node.empty
      return (key, value) :: (← flowEntries handles false fuel)
    else if ← passes .flowMappingEnd then return []
    else
      let key ← node handles false false fuel
      return (key, .empty) :: (← flowEntries handles false fuel)

end

def directives (versioned : Bool) (handles : List (String × String)) :
    Nat → Reader (List (String × String))
  | 0 => refuse
  | fuel + 1 => do
    match ← peek with
    | some (.directive d) =>
      pass
      match d with
      | .version major =>
        if versioned || major != 1 then refuse else directives true handles fuel
      | .tagHandle handle stem =>
        if handles.any (fun e => e.1 == handle) then refuse
        else directives versioned ((handle, stem) :: handles) fuel
      | .unknown => directives versioned handles fuel
    | _ => return handles ++ standardHandles

/-- Pass the markers of the ends of documents. -/
def passEnds : Nat → Reader Unit
  | 0 => pure ()
  | fuel + 1 => do
    if ← passes .documentEnd then passEnds fuel

/-- Whether the next token starts a document explicitly, or there is none. -/
def seesDocument : Reader Bool := do
  match ← peek with
  | none | some (.directive _) | some .documentStart => return true
  | _ => return false

/-- The node of a document after its start. -/
def content (handles : List (String × String)) (fuel : Nat) : Reader Node := do
  match ← peek with
  | none | some (.directive _) | some .documentStart | some .documentEnd => return .empty
  | _ => node handles true false fuel

/-- The node of the only document. None if there is no document. -/
def document (fuel : Nat) : Reader (Option Node) := do
  let n ←
    if ← seesDocument then do
      passEnds fuel
      match ← peek with
      | none => pure none
      | _ => do
        let handles ← directives false [] fuel
        demand .documentStart
        some <$> content handles fuel
    else some <$> node standardHandles true false fuel
  passEnds fuel
  if (← peek).isSome then refuse
  return n

end Reader

/-- The node of the only document of a text. None if the text holds no document. -/
def Node.ofTokens? (ts : List Token) : Except Fault (Option Node) :=
  (Reader.document (4 * ts.length + 4)).run' { tokens := ts }

end Yaml

end StrictEquality
