import Rulebook.Object.Value

/-!
# Rules

A declaration binds a rule type, with its constraints and options, to one property of a class. The
rule type and the priority are kept as they were given, well-formed or not: it is for compilation
to drop what makes no sense.
-/

set_option autoImplicit false

namespace Rulebook

/-- The rule type that lets an absent property pass. -/
def optionalType : String := "IsOptional"

/-- The rule type that validates a value by the rules of its own class. -/
def nestedType : String := "ValidateNested"

/-- The value, unless it stands for none. -/
def Value.present? : Value → Option Value
  | .nothing => none
  | v => some v

/-- What a declaration asks for besides its constraints. -/
structure RuleOptions where
  /-- The message that replaces the one of the rule. -/
  message : Option Value
  /-- The rule holds for every element of a sequence. -/
  each : Bool
  /-- Higher priorities run first. -/
  priority : Option Value
deriving DecidableEq, Inhabited

/-- A rule type bound to one property of a class. -/
structure Declaration where
  owner : ClassId
  key : Value
  ruleType : Value
  constraints : List Value
  message : Option Value
  options : Option RuleOptions
  /-- Where the rule was declared. -/
  location : Option String
deriving DecidableEq, Inhabited

namespace Declaration

/-- The constraint at a place; the default when there is none or it is none. -/
def constraint (d : Declaration) (i : Nat) (default : Value) : Value :=
  ((d.constraints[i]?).bind Value.present?).getD default

/-- The message that replaces the one of the rule: that of the declaration before that of its
options. -/
def override? (d : Declaration) : Option Value :=
  d.message.or (d.options.bind (·.message))

/-- The rule holds for every element of a sequence. -/
def each (d : Declaration) : Bool := (d.options.map (·.each)).getD false

/-- The priority as it was given, zero when there is none. -/
def priority (d : Declaration) : Value := (d.options.bind (·.priority)).getD (.int 0)

end Declaration

end Rulebook
