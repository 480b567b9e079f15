import StrictEquality.Fault

/-!
# Loose comparison operators

## Main definitions

- `Polarity` — equality or inequality
- `Polarity.ofOperator?` — the meaning of a written operator
- `Polarity.isLoose` — whether a written operator is a loose comparison
- `Polarity.strict`, `Polarity.replacement` — the strict operator, alone and as it
  is put between two operands
-/

namespace StrictEquality

/-- The two loose comparisons. -/
inductive Polarity
  | equal
  | notEqual
  deriving DecidableEq, Repr

namespace Polarity

/-- The usual spelling of the loose operator. -/
def symbol : Polarity → String
  | equal => "=="
  | notEqual => "!="

def strict : Polarity → String
  | equal => "==="
  | notEqual => "!=="

/-- The strict operator between single spaces. -/
def replacement (p : Polarity) : String :=
  " " ++ p.strict ++ " "

/-- The comparison that a written operator stands for. Inequality has a second
spelling. -/
def ofOperator? (s : String) : Except Fault Polarity :=
  if s = "==" then .ok equal
  else if s = "!=" ∨ s = "<>" then .ok notEqual
  else .error (.unknownOperator s)

/-- Whether a written operator is a loose comparison. -/
def isLoose (s : String) : Bool :=
  ["==", "!=", "<>"].contains s

end Polarity

end StrictEquality
