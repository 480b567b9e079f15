import StrictEquality.Yaml.Character
import StrictEquality.Yaml.Token
import StrictEquality.Fault

/-!
# Anchors, aliases, tags and directives

The tokens that are written on one line and name something.

## Main definitions

- `anchorName` — the name of an anchor or an alias
- `tagProperty` — a tag
- `directive` — a line that says how to read the document after it

All of them are given what follows the first character of the token.
-/

namespace StrictEquality

namespace Yaml

/-- The characters that may follow a name at once. -/
def mayFollowName (c : Char) : Bool :=
  isGap c || "?:,]\x7d%@\x60".toList.contains c

/-- The name of an anchor or an alias. -/
def anchorName (cs : List Char) : Except Fault (String × List Char) :=
  let name := cs.takeWhile isWordChar
  let rest := cs.dropWhile isWordChar
  if name.isEmpty || !endsOr mayFollowName rest then .error .malformed
  else .ok (String.ofList name, rest)

/-- The characters of tags. -/
def isTagChar (c : Char) : Bool :=
  isWordChar c || ";/?:@&=+$,.!~*'()[]%".toList.contains c

/-- The bytes written as pairs of hexadecimal digits, each after a percent sign. -/
def percentBytes : List Char → Except Fault (List UInt8 × List Char)
  | '%' :: a :: b :: rest =>
    match hexNumber? [a, b] with
    | some n => do
      let (bytes, rest) ← percentBytes rest
      return (UInt8.ofNat n :: bytes, rest)
    | none => .error .malformed
  | '%' :: _ => .error .malformed
  | rest => .ok ([], rest)

/-- The text that bytes encode in UTF-8. -/
def decodeBytes (bytes : List UInt8) : Except Fault (List Char) :=
  match String.fromUTF8? ⟨bytes.toArray⟩ with
  | some s => .ok s.toList
  | none => .error .malformed

/-- The characters of a tag, with bytes decoded. Each step takes a character at
least. -/
def tagChars : Nat → List Char → Except Fault (List Char × List Char)
  | 0, cs => .ok ([], cs)
  | fuel + 1, cs =>
    match cs with
    | [] => .ok ([], [])
    | c :: rest =>
      if c == '%' then do
        let (bytes, rest) ← percentBytes cs
        let text ← decodeBytes bytes
        let (more, rest) ← tagChars fuel rest
        return (text ++ more, rest)
      else if isTagChar c then do
        let (more, rest) ← tagChars fuel rest
        return (c :: more, rest)
      else .ok ([], cs)

/-- The text of a tag, which may not be empty. -/
def tagText (cs : List Char) : Except Fault (String × List Char) := do
  if endsOr (fun c => !isTagChar c) cs then .error .malformed
  else
    let (text, rest) ← tagChars cs.length cs
    return (String.ofList text, rest)

/-- A handle of tags, after its exclamation mark. A space after the mark ends it. -/
def tagHandle (cs : List Char) : Except Fault (String × List Char) :=
  match cs with
  | ' ' :: _ => .ok ("!", cs)
  | _ =>
    match cs.dropWhile isWordChar with
    | '!' :: rest => .ok (String.ofList ('!' :: (cs.takeWhile isWordChar ++ ['!'])), rest)
    | _ => .error .malformed

/-- Whether an exclamation mark comes before the next blank. -/
def hasHandle : List Char → Bool
  | [] => false
  | c :: cs => c == '!' || (c != ' ' && !isBreak c && hasHandle cs)

/-- A tag: between angle brackets, an exclamation mark alone, or a handle and a
suffix. -/
def tagProperty (cs : List Char) : Except Fault (Token × List Char) := do
  let (token, rest) ← match cs with
    | '<' :: cs => do
      let (text, rest) ← tagText cs
      match rest with
      | '>' :: rest => pure (Token.tag none text, rest)
      | _ => .error .malformed
    | cs =>
      if endsWord cs then pure (Token.tag none "!", cs)
      else if hasHandle cs then do
        let (handle, rest) ← tagHandle cs
        let (suffix, rest) ← tagText rest
        pure (Token.tag (some handle) suffix, rest)
      else do
        let (suffix, rest) ← tagText cs
        pure (Token.tag (some "!") suffix, rest)
  if endsLineOrSpace rest then return (token, rest) else .error .malformed

/-- A number in decimal digits. -/
def decimalNumber (cs : List Char) : Except Fault (Nat × List Char) :=
  let digits := cs.takeWhile Char.isDigit
  if digits.isEmpty then .error .malformed
  else .ok (digits.foldl (fun n c => 10 * n + (c.toNat - 48)) 0, cs.dropWhile Char.isDigit)

/-- The text without its leading spaces. -/
def dropSpaces (cs : List Char) : List Char :=
  cs.dropWhile (· == ' ')

/-- The version that a directive names. -/
def versionDirective (cs : List Char) : Except Fault (Directive × List Char) := do
  let (major, rest) ← decimalNumber (dropSpaces cs)
  match rest with
  | '.' :: rest =>
    let (_, rest) ← decimalNumber rest
    if endsLineOrSpace rest then return (.version major, rest) else .error .malformed
  | _ => .error .malformed

/-- The short form of tags that a directive introduces. -/
def tagDirective (cs : List Char) : Except Fault (Directive × List Char) := do
  match dropSpaces cs with
  | '!' :: rest =>
    let (handle, rest) ← tagHandle rest
    unless rest.head? == some ' ' do
      .error .malformed
    let (stem, rest) ← tagText (dropSpaces rest)
    if endsLineOrSpace rest then return (.tagHandle handle stem, rest) else .error .malformed
  | _ => .error .malformed

/-- A directive, without what may follow on its line. -/
def directive (cs : List Char) : Except Fault (Directive × List Char) :=
  let name := cs.takeWhile isWordChar
  let rest := cs.dropWhile isWordChar
  if name.isEmpty || !endsLineOrSpace rest then .error .malformed
  else
    match String.ofList name with
    | "YAML" => versionDirective rest
    | "TAG" => tagDirective rest
    | _ => .ok (.unknown, rest.dropWhile (fun c => !isBreak c))

end Yaml

end StrictEquality
