import StrictEquality.LooseComparison
import StrictEquality.Registry
import StrictEquality.Text.Lines

/-!
# The catalogue of rule modules

Rules come from modules that list them. Modules form a tree; a module with
submodules is a package. A module may refuse to be imported.

## Main definitions

- `RuleModule`, `Catalog` — the modules there are
- `Catalog.load` — import a module by its dotted name
- `Survey` — what a search of modules brings to light
- `Catalog.survey` — search packages, each with all modules below it
- `Registry.discover` — register the rules that a search finds

## Design notes

A search does not depend on what is registered. So it is made first, as a value
that holds the rules up to the fault that ended it, if one did, and registering
them comes after. A submodule that refuses to be imported is passed over with a
warning. If it is a package its path is needed too, and a second import is tried:
a refusal in the sense of `Fault.isImport` ends the search below it, any other
fault ends the whole search.

A module refuses by a `Fault`. One that asks for the end of the process while it is
imported is not represented, although that would end the search from any submodule. An
object with all the attributes of a rule is taken for one as it is: that the metadata of
such an object lacks an identifier is not represented either.
-/

namespace StrictEquality

/-- The attributes that make an object a rule. -/
def ruleAttributes : List String := ["meta", "visit", "requires"]

/-- An entry of the rule list of a module. -/
inductive Entry
  | rule (r : Rule)
  /-- A class, which makes an object or fails to. The object counts as a rule if it has all
  the attributes of one. -/
  | ruleClass (make : Except Fault Rule) (attributes : List String := ruleAttributes)
  /-- An object that counts as a rule if it has all the attributes of one. -/
  | object (r : Rule) (attributes : List String)
  /-- Anything else. -/
  | value (v : Value)

/-- The rule list of a module. Only a list is looked into. -/
inductive RuleList
  | absent
  | list (entries : List Entry)
  | other (entries : List Entry)

/-- A module: its own name, its rules, the fault that importing it ends in, and its
submodules if it is a package. -/
inductive RuleModule
  | mk (name : String) (rules : RuleList) (refusal : Option Fault)
      (children : Option (List RuleModule))

namespace RuleModule

instance : Inhabited RuleModule := ⟨mk "" .absent none none⟩

def name : RuleModule → String
  | mk name _ _ _ => name

def rules : RuleModule → RuleList
  | mk _ rules _ _ => rules

def refusal : RuleModule → Option Fault
  | mk _ _ refusal _ => refusal

def children : RuleModule → Option (List RuleModule)
  | mk _ _ _ children => children

end RuleModule

/-- Whether a fault says that a module cannot be imported. -/
def Fault.isImport : Fault → Bool
  | importRefused _ | moduleMissing _ | notPackage _ _ => true
  | _ => false

/-- The modules there are, with their submodules. -/
abbrev Catalog := List RuleModule

namespace Catalog

def builtin : Catalog :=
  [.mk "stricteq_rules" .absent none
    (some [.mk "strict_equality" (.list [.rule LooseComparison.rule]) none none])]

/-- The packages that are searched where none are given. -/
def defaultPackages : List String := ["stricteq_rules"]

/-- Import a module and then, step by step, the modules below it on a path. -/
def descend (path : String) (m : RuleModule) : List String → Except Fault RuleModule
  | [] =>
    match m.refusal with
    | some fault => .error fault
    | none => .ok m
  | step :: steps =>
    match m.refusal, m.children with
    | some fault, _ => .error fault
    | none, none => .error (.notPackage (path ++ "." ++ step) path)
    | none, some children =>
      match children.find? (fun c => c.name == step) with
      | none => .error (.moduleMissing (path ++ "." ++ step))
      | some child => descend (path ++ "." ++ step) child steps

/-- Import a module by its dotted name, each package on the way before it. The
empty name and a name that starts with a dot name nothing. -/
def load (catalog : Catalog) (name : String) : Except Fault RuleModule :=
  match (Text.splitAt '.' name.toList).map String.ofList with
  | [] => .error (.wrongValue "a module name")
  | top :: steps =>
    if top = "" then
      if steps.isEmpty then .error (.wrongValue "a module name")
      else .error (.wrongType "an absolute module name")
    else
      match catalog.find? (fun m => m.name == top) with
      | none => .error (.moduleMissing top)
      | some m => descend top m steps

end Catalog

/-- What a search of modules brings to light, up to the fault that ended it. -/
structure Survey where
  rules : List Rule := []
  log : List Event := []
  fault : Option Fault := none

namespace Survey

def nothing : Survey := {}

/-- A search that is ended by a fault. -/
def abort (fault : Fault) : Survey := { fault := some fault }

/-- A search that logs an event. -/
def note (event : Event) : Survey := { log := [event] }

/-- Go on with another search, unless a fault has ended the first. -/
def andThen (a b : Survey) : Survey :=
  match a.fault with
  | some _ => a
  | none => { rules := a.rules ++ b.rules, log := a.log ++ b.log, fault := b.fault }

def concat (surveys : List Survey) : Survey :=
  surveys.foldr andThen nothing

end Survey

/-- Look at one entry of the rule list of a module. -/
def Entry.survey (module : String) : Entry → Survey
  | rule r => { rules := [r] }
  | ruleClass (.error fault) _ => .abort fault
  | ruleClass (.ok r) attributes | object r attributes =>
    if ruleAttributes.all attributes.contains then { rules := [r] }
    else .note (.entryIgnored .object module)
  | value v => .note (.entryIgnored (.value v) module)

/-- Look at the entries of a rule list. -/
def RuleList.survey (module : String) : RuleList → Survey
  | list entries => .concat (entries.map (Entry.survey module))
  | absent | other _ => .nothing

namespace RuleModule

/-- The searches of submodules, in the order of their names. -/
def inOrder (searches : List (String × Survey)) : Survey :=
  .concat ((searches.mergeSort (fun a b => decide (a.1 ≤ b.1))).map Prod.snd)

/-- The search below a submodule that could not be imported. -/
def refused (path : String) (fault : Fault) (isPackage : Bool) : Survey :=
  (Survey.note (.moduleUnavailable path fault)).andThen
    (if isPackage && !fault.isImport then .abort fault else .nothing)

mutual

/-- Search a module and all modules below it, in the order of their names. -/
def survey (path : String) : RuleModule → Survey
  | mk _ rules refusal children =>
    match refusal with
    | some fault => refused path fault children.isSome
    | none =>
      (rules.survey path).andThen
        (match children with
          | none => .nothing
          | some children => inOrder (surveyAll path children))

def surveyAll (path : String) : List RuleModule → List (String × Survey)
  | [] => []
  | m :: ms => (m.name, m.survey (path ++ "." ++ m.name)) :: surveyAll path ms

end

end RuleModule

namespace Catalog

/-- Search one package. A package that cannot be imported is passed over with a
warning. -/
def surveyPackage (catalog : Catalog) (name : String) : Survey :=
  match catalog.load name with
  | .ok m => m.survey name
  | .error fault =>
    if fault.isImport then .note (.packageUnavailable name fault) else .abort fault

/-- Search packages, one after another. -/
def survey (catalog : Catalog) (packages : List String) : Survey :=
  .concat (packages.map (surveyPackage catalog))

end Catalog

namespace Registry

/-- Register the rules found in packages. The result is how many were new. Rules
found before a fault stay registered. -/
def discover (r : Registry) (catalog : Catalog) (packages : List String) :
    Registry × Report Nat :=
  let found := catalog.survey packages
  let grown := r.registerAll found.rules
  let count := grown.rules.length - r.rules.length
  match found.fault with
  | some fault => (grown, { log := found.log, outcome := .error fault })
  | none => (grown, { log := found.log ++ [.discovered count packages], outcome := .ok count })

end Registry

end StrictEquality
