import StrictEquality.Text.Quoted

/-!
# Faults

The causes for which an operation gives no answer.

## Main definitions

- `Fault` — the causes
- `Fault.message` — their wording

## Design notes

A fault is a failure that other code can take note of and pass over. Whatever ends the
process itself, such as a request to exit or an interrupt from outside, is no fault. It
would get past every place where faults are passed over, and it is not represented.
-/

namespace StrictEquality

/-- A cause for which an operation gives no answer. -/
inductive Fault
  /-- A text that names no atomic kind. -/
  | unknownKind (name : String)
  /-- A text that names no origin of a type. -/
  | unknownProvenance (name : String)
  /-- A text that is no loose comparison operator. -/
  | unknownOperator (text : String)
  /-- A type without members. -/
  | emptyType
  /-- A policy name that is not registered. -/
  | unknownPolicy (name : String) (available : List String)
  /-- A part of a configuration that has to be a mapping and is not. -/
  | notMapping (subject : String)
  /-- A value of a type that the operation is not defined on. -/
  | wrongType (wanted : String)
  /-- A value of the right type that the operation is not defined at. -/
  | wrongValue (wanted : String)
  /-- A value without the named member. -/
  | noMember (name : String)
  /-- A key that a mapping does not have. -/
  | missingKey
  /-- A position past the end of a list. -/
  | outOfRange
  /-- A failure of a rule or a rule class. -/
  | ruleFailure (message : String)
  /-- A module that refuses to be imported. -/
  | importRefused (message : String)
  /-- A module name that leads to no module. -/
  | moduleMissing (name : String)
  /-- A module name below a module that has no submodules. -/
  | notPackage (name parent : String)
  /-- A file where a directory is needed. -/
  | fileExists
  /-- A path that goes through a file. -/
  | notDirectory
  /-- A directory where a file is needed. -/
  | isDirectory
  /-- A path that leads to nothing. -/
  | fileMissing
  /-- Bytes that are not UTF-8. -/
  | undecodable
  /-- Text that is not a YAML document. -/
  | malformed
  deriving DecidableEq, Repr

namespace Fault

/-- The wording of a fault. -/
def message : Fault → String
  | unknownKind name => Text.quote name ++ " is not a valid Kind"
  | unknownProvenance name => Text.quote name ++ " is not a valid Provenance"
  | unknownOperator text => Text.quote text ++ " is not a valid Polarity"
  | emptyType => "TypeDescriptor needs at least one atomic kind"
  | unknownPolicy name available =>
    "Unknown compatibility policy '" ++ name ++ "' (available: " ++
      ", ".intercalate available ++ ")"
  | notMapping subject => subject ++ " must be a mapping"
  | wrongType wanted => "needs " ++ wanted
  | wrongValue wanted => "needs " ++ wanted
  | noMember name => "no member " ++ name
  | missingKey => "no such key"
  | outOfRange => "position out of range"
  | ruleFailure text => text
  | importRefused text => text
  | moduleMissing name => "No module named " ++ Text.quote name
  | notPackage name parent =>
    "No module named " ++ Text.quote name ++ "; " ++ Text.quote parent ++ " is not a package"
  | fileExists => "file exists"
  | notDirectory => "not a directory"
  | isDirectory => "is a directory"
  | fileMissing => "no such file or directory"
  | undecodable => "not UTF-8"
  | malformed => "not a YAML document"

@[simp]
theorem ok_bind {α β : Type} (a : α) (next : α → Except Fault β) :
    (Except.ok a >>= next) = next a := rfl

@[simp]
theorem error_bind {α β : Type} (fault : Fault) (next : α → Except Fault β) :
    (Except.error fault >>= next) = .error fault := rfl

/-- A chain of steps has a result when each of them has one. -/
theorem bind_eq_ok {α β : Type} {r : Except Fault α} {next : α → Except Fault β} {b : β} :
    (r >>= next) = .ok b ↔ ∃ a, r = .ok a ∧ next a = .ok b := by
  cases r with
  | ok a => simp
  | error fault => simp

end Fault

end StrictEquality
