/-!
# Tokens of YAML

## Main definitions

- `Directive` — what the lines before a document say
- `Token` — the tokens of a text
-/

namespace StrictEquality

namespace Yaml

/-- A line before a document that says how to read it. -/
inductive Directive
  /-- The version of the language, of which only the major number matters. -/
  | version (major : Nat)
  /-- A short form for the tags that start with `stem`. -/
  | tagHandle (handle stem : String)
  /-- A directive that is not known. It is passed over. -/
  | unknown
  deriving DecidableEq, Repr

/-- A token of a text. The ends of block collections and the starts of simple keys
have no characters of their own: they follow from the layout. -/
inductive Token
  | directive (d : Directive)
  | documentStart
  | documentEnd
  | blockSequence
  | blockMapping
  | blockEnd
  | flowSequence
  | flowSequenceEnd
  | flowMapping
  | flowMappingEnd
  | entry
  | comma
  | key
  | value
  | alias (name : String)
  | anchor (name : String)
  | tag (handle : Option String) (suffix : String)
  /-- A scalar, with whether it is written without quotes. -/
  | scalar (text : String) (plain : Bool)
  deriving DecidableEq, Repr

end Yaml

end StrictEquality
