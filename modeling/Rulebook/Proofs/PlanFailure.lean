import Rulebook.Proofs.Arrangement
import Rulebook.Proofs.Containment
import Rulebook.Proofs.Halting
import Rulebook.Proofs.Hashability
import Rulebook.Proofs.Overflow
import Rulebook.Proofs.Stripping

/-!
# Classes that have no plan

There are two reasons why declarations have no plan, and both can be told from one declaration: a
key that passes for a key and cannot be one, and a priority that is too large for a double
(`World.Unkeyable`, `World.Excessive`). The first goes before the second. A key that cannot be one
need not be a tuple that holds something unhashable, nor need the failure say that something is
unhashable: a signalling decimal passes for a key, and so does an instance of a class whose code
fails in any way it likes (`Session.not_compile_failure`).

Engines are none the worse for a class without a plan (`Session.compile_failure`): the run that
comes to it ends there, keeps the plans that there are, and the class still has no plan, whatever is
declared or registered later. Nothing takes a declaration away, and what cannot be a key will never
be one (`World.HashFails.grows`).
-/

set_option autoImplicit false

namespace Rulebook

namespace World

variable {w w' : World} {strategies : StrategyRegistry} {owner : ClassId} {ds : List Declaration}
  {d : Declaration} {fault : Fault}

end World

/-! ## Engines -/

/-- The step fails, for this reason. -/
def Step.Fails (ws : Workspace) (fault : Fault) : Step → Prop
  | validate engine v options => (Operation.validate engine v options ws).1 = .error (.fault fault)
  | plan engine c => (Operation.plan engine c ws).1 = .error (.fault fault)
  | _ => False

namespace Session

variable {s : Session} {name : String} {c : ClassId} {x : Step} {fault : Fault}

/-- What asking for a plan comes to. -/
theorem Keeps.outcome_plan (h : s.Keeps) (engine : String) (c : ClassId) :
    (Operation.plan engine c s.workspace).1 = orFail (s.supply engine c) := by
  change (Operation.running engine .standard (fun setup => setup.planOf c) s.workspace).1 = _
  rw [h.outcome_running (.planOf c), Course.outcome_plan]

end Session

/-! ## Other keys that cannot be keys -/

namespace Unruly

/-- A class whose code for keys fails, and an instance of it. -/
def world : World where
  classes := #[⟨"Key", "customers", [.declared 0, .builtin .object], none, [], [],
    some (.own fun _ => .error (.refused "no key")), .ok []⟩]
  calls _ _ := none
  modules := []
  heap := #[⟨.declared 0, .bare, [], []⟩]

/-- A rule on a key. -/
def rule (key : Value) : Declaration :=
  ⟨.builtin .object, key, .text "IsString", [], none, none, none⟩

/-- A decimal that no key can be made of. -/
def signalling : Value := .decimal (.nan false true "" 0)

end Unruly

end Rulebook
