import Rulebook.Plan.Execution

/-!
# The engine

Validation of an object by the rules of its own class, and of the objects that nested rules lead to.
Plans are made when a class is met for the first time and kept from then on. An object that is being
validated already is not entered again, so validation ends on every heap: the objects on the path
are distinct, and there are only so many.
-/

set_option autoImplicit false

namespace Rulebook

namespace Setup

/-- The plan of a class: the one made before, or a new one. -/
def planOf (s : Setup) (c : ClassId) : Validation Plan := do
  match (← get).plans.get? c with
  | some plan => return plan
  | none =>
    let (records, outcome) := s.world.compile s.strategies c (s.rules.rulesOf c)
    Validation.note records
    match outcome with
    | .ok plan =>
      modify fun run => { run with plans := run.plans.put c plan }
      return plan
    | .error fault => throw fault

/-- Validates a value, the values that nested rules lead to being validated by `nested`. -/
def enter (s : Setup) (nested : Value → Validation (List Report)) :
    Value → Validation (List Report)
  | .object a => do
    if !s.world.heap.isComposite (.object a) || (← get).path.contains a then return []
    let plan ← s.planOf (s.world.classOf (.object a))
    if plan.executors.isEmpty then return []
    Validation.within a (Executor.executeAll s nested (.object a) plan.executors)
  | _ => return []

/-- Validates a value, when at most `room` objects are not on the path yet. -/
def inspect (s : Setup) : (room : Nat) → Value → Validation (List Report)
  | 0, _ => return []
  | room + 1, v => s.enter (s.inspect room) v

/-- Validates a value. -/
def validate (s : Setup) (v : Value) : Validation (List Report) :=
  s.inspect s.world.heap.size v

end Setup

end Rulebook
