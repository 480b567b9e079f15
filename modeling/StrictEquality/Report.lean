import StrictEquality.Event

/-!
# Reports

A computation that logs events and gives a result or a fault. What was logged
before a fault stays.

## Main definitions

- `Report` — the log and the outcome
- `Report.note`, `Report.fail`, `Report.ofExcept` — the ways to build one
-/

namespace StrictEquality

/-- A log together with a result or a fault. -/
structure Report (α : Type) where
  log : List Event := []
  outcome : Except Fault α

namespace Report

/-- A report that only logs an event. -/
def note (event : Event) : Report Unit :=
  { log := [event], outcome := .ok () }

def fail {α : Type} (fault : Fault) : Report α :=
  { outcome := .error fault }

/-- A report that logs nothing. -/
def ofExcept {α : Type} (outcome : Except Fault α) : Report α :=
  { outcome }

/-- Go on with the result of a report; a fault ends the computation. -/
def andThen {α β : Type} (r : Report α) (next : α → Report β) : Report β :=
  match r.outcome with
  | .ok a => { log := r.log ++ (next a).log, outcome := (next a).outcome }
  | .error fault => { log := r.log, outcome := .error fault }

instance : Monad Report where
  pure a := { outcome := .ok a }
  bind := andThen

/-- A pure computation gives its value. -/
@[simp]
theorem outcome_pure {α : Type} (a : α) : (pure a : Report α).outcome = .ok a := rfl

/-- An event does not end a computation. -/
@[simp]
theorem outcome_note (event : Event) : (note event).outcome = .ok () := rfl

/-- A computation without events is its outcome. -/
@[simp]
theorem outcome_ofExcept {α : Type} (outcome : Except Fault α) :
    (ofExcept outcome).outcome = outcome := rfl

/-- A failed computation gives its fault. -/
@[simp]
theorem outcome_fail {α : Type} (fault : Fault) :
    (fail fault : Report α).outcome = .error fault := rfl

theorem ofExcept_ok {α : Type} (a : α) : ofExcept (.ok a) = pure a := rfl

/-- A computation that only gives a value leaves everything to what comes next. -/
theorem pure_bind {α β : Type} (a : α) (next : α → Report β) : (pure a >>= next) = next a := rfl

/-- The outcomes of computations one after another are chained. -/
@[simp]
theorem outcome_bind {α β : Type} (r : Report α) (next : α → Report β) :
    (r >>= next).outcome = r.outcome >>= fun a => (next a).outcome := by
  change (r.andThen next).outcome = _
  unfold andThen
  cases r.outcome <;> rfl

/-- A chain of computations has a result when each of them has one. -/
theorem outcome_bind_eq_ok {α β : Type} {r : Report α} {next : α → Report β} {b : β} :
    (r >>= next).outcome = .ok b ↔ ∃ a, r.outcome = .ok a ∧ (next a).outcome = .ok b := by
  rw [outcome_bind]
  exact Fault.bind_eq_ok

end Report

end StrictEquality
