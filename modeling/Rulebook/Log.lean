/-!
# Records

What the engine notes down while it works, next to its answers: how plans came about, and what it
passed over because it made no sense.
-/

set_option autoImplicit false

namespace Rulebook

/-- How grave a record is. -/
inductive Level where
  | debug
  | info
  | warning
deriving DecidableEq

/-- The word for a level. -/
def Level.text : Level → String
  | .debug => "debug"
  | .info => "info"
  | .warning => "warning"

/-- A record. -/
inductive Record where
  /-- The plan of a class was made. -/
  | compiled (owner : String) (properties : Nat)
  /-- Declarations were registered from a configuration. -/
  | registered (count : Nat) (registry : String)
  /-- A rule type got another strategy. -/
  | overwritten (ruleType registry : String)
  | unknownType (ruleType owner property : String)
  | malformedType (shown owner property : String)
  | malformedKey (shown owner : String)
  | malformedPriority (shown ruleType owner property : String)
  /-- A strategy failed instead of answering. -/
  | strategyFailed (ruleType property text : String)
  /-- Reading a property failed. -/
  | readingFailed (shown className text : String)
  /-- An entry of a configuration is no dictionary. -/
  | malformedEntry (index : Nat)
  /-- An entry of a configuration lacks its property or its type. -/
  | incompleteEntry (index : Nat)
deriving DecidableEq

namespace Record

/-- How grave a record is. -/
def level : Record → Level
  | .compiled .. => .debug
  | .registered .. => .info
  | _ => .warning

/-- The wording of a record. -/
def text : Record → String
  | .compiled owner properties =>
    "Compiled plan for " ++ owner ++ " with " ++ toString properties ++ " properties"
  | .registered count registry =>
    "Registered " ++ toString count ++ " rule declarations in " ++ registry
  | .overwritten ruleType registry =>
    "Strategy '" ++ ruleType ++ "' is being overwritten in " ++ registry
  | .unknownType ruleType owner property =>
    "Unknown rule type '" ++ ruleType ++ "' on " ++ owner ++ "." ++ property ++ ", rule ignored"
  | .malformedType shown owner property =>
    "Rule type " ++ shown ++ " on " ++ owner ++ "." ++ property
      ++ " is not a string, rule ignored"
  | .malformedKey shown owner =>
    "Property key " ++ shown ++ " on " ++ owner ++ " is not hashable, rule ignored"
  | .malformedPriority shown ruleType owner property =>
    "Priority " ++ shown ++ " of '" ++ ruleType ++ "' on " ++ owner ++ "." ++ property
      ++ " is not a number, using 0"
  | .strategyFailed ruleType property text =>
    "Strategy '" ++ ruleType ++ "' raised while validating " ++ property ++ ": " ++ text
  | .readingFailed shown className text =>
    "Reading property " ++ shown ++ " from " ++ className ++ " failed: " ++ text
  | .malformedEntry index =>
    "Rule definition " ++ toString index ++ " is not a mapping, skipping"
  | .incompleteEntry index =>
    "Rule definition " ++ toString index ++ " missing 'property' or 'type', skipping"

end Record

end Rulebook
