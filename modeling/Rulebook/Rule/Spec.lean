import Rulebook.Fault
import Rulebook.Rule.Basic

/-!
# Rule specifications

A specification is a rule that waits for the class and the property it is to hold for. Builders make
them from positional arguments, and refuse a wrong number of these.
-/

set_option autoImplicit false

namespace Rulebook

/-- A rule that is not yet bound to a property. -/
structure RuleSpec where
  ruleType : Value
  constraints : List Value
  options : RuleOptions
  location : Option String
deriving DecidableEq, Inhabited

/-- The declaration that binds a rule to a property of a class. -/
def RuleSpec.bind (s : RuleSpec) (owner : ClassId) (key : Value) : Declaration :=
  ⟨owner, key, s.ruleType, s.constraints, none, some s.options, s.location⟩

/-- The ways to build a specification. -/
inductive Builder where
  /-- A rule of any type: the first argument names it, the others are its constraints. -/
  | rule
  /-- A rule of this type with any number of constraints. -/
  | variadic (ruleType : String)
  /-- A rule of this type with one constraint of this name. -/
  | single (ruleType argument : String)
  /-- A length between two bounds, zero and none unless given. -/
  | length
deriving DecidableEq

namespace Builder

/-- The builder of a name. -/
def ofName? (name : String) : Option Builder :=
  match name with
  | "Rule" => some .rule
  | "Length" => some .length
  | "Min" | "ArrayMinSize" => some (.single name "minimum")
  | "Max" | "ArrayMaxSize" => some (.single name "maximum")
  | "Matches" => some (.single name "pattern")
  | "Custom" => some (.single name "validator")
  | "IsString" | "IsNumber" | "IsBoolean" | "IsArray" | "IsPositive" | "IsInt" | "IsEmail"
  | "IsOptional" | "ValidateNested" => some (.variadic name)
  | _ => none

/-- The name under which a builder complains. -/
def signature (name : String) : String := name ++ ".__init__()"

/-- The rule type and the constraints that a builder makes of its arguments. -/
def apply : Builder → List Value → Except Fault (Value × List Value)
  | .rule, [] => throw (.missingArgument (signature "Rule") "rule_type")
  | .rule, ruleType :: constraints => return (ruleType, constraints)
  | .variadic ruleType, constraints => return (.text ruleType, constraints)
  | .single ruleType argument, [] => throw (.missingArgument (signature ruleType) argument)
  | .single ruleType _, [constraint] => return (.text ruleType, [constraint])
  | .single ruleType _, args => throw (.tooManyArguments (signature ruleType) 2 2 (args.length + 1))
  | .length, [] => return (.text "Length", [.int 0, .nothing])
  | .length, [least] => return (.text "Length", [least, .nothing])
  | .length, [least, most] => return (.text "Length", [least, most])
  | .length, args => throw (.tooManyArguments (signature "Length") 1 3 (args.length + 1))

/-- Builds a specification. -/
def build (b : Builder) (args : List Value) (options : RuleOptions) (location : Option String) :
    Except Fault RuleSpec := do
  let (ruleType, constraints) ← b.apply args
  return ⟨ruleType, constraints, options, location⟩

end Builder

end Rulebook
