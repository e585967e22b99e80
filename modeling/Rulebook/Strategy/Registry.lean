import Rulebook.Strategy.Basic

/-!
# Strategy registries

The strategy of every rule type, by name. A new strategy may take the place of an old one, which is
noted down but no failure.
-/

set_option autoImplicit false

namespace Rulebook

/-- Strategies by rule type. -/
structure StrategyRegistry where
  name : String
  strategies : Catalog String Strategy

namespace StrategyRegistry

/-- A registry with the strategies that are always there, or without any. -/
def initial (name : String) (builtins : Bool) : StrategyRegistry :=
  ⟨name, if builtins then Strategy.standing else []⟩

/-- The strategy of a rule type. -/
def get? (r : StrategyRegistry) (ruleType : String) : Option Strategy :=
  Catalog.get? r.strategies ruleType

/-- The rule types in order. -/
def names (r : StrategyRegistry) : List String := r.strategies.keys

/-- Sets the strategy of a rule type. -/
def register (r : StrategyRegistry) (ruleType : String) (s : Strategy) :
    StrategyRegistry × List Record :=
  ({ r with strategies := r.strategies.put ruleType s },
    if (r.get? ruleType).isSome then [.overwritten ruleType r.name] else [])

end StrategyRegistry

end Rulebook
