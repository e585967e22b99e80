import Rulebook.Text.Quoted

/-!
# Faults

What goes wrong below the rules: comparisons that have no answer, keys that cannot be looked up,
attributes that cannot be read or set, and the failures of predicates supplied by callers. Every
failure has a wording, those of callers' code included: finding it never fails in turn.
-/

set_option autoImplicit false

namespace Rulebook

/-- A comparison of a length with a bound. -/
inductive Comparison where
  | lt
  | gt
  | le
  | ge
deriving DecidableEq

/-- The sign of a comparison. -/
def Comparison.sign : Comparison → String
  | .lt => "<"
  | .gt => ">"
  | .le => "<="
  | .ge => ">="

/-- A failure. -/
inductive Fault where
  /-- Instances of these two classes are not ordered. -/
  | unordered (c : Comparison) (left right : String)
  /-- Instances of the class cannot be keys. -/
  | unhashable (className : String)
  /-- A signalling decimal cannot be a key. -/
  | unhashableDecimal
  /-- A decimal that is not a number was compared. -/
  | undefinedDecimal
  /-- A sequence has more elements than can be counted. -/
  | lengthTooLarge
  /-- A whole number has no double as large. -/
  | wholeTooLarge
  /-- A fraction has no double as large. -/
  | fractionTooLarge
  | noAttribute (className name : String)
  | noClassAttribute (className name : String)
  | readOnlyAttribute (className name : String)
  | noSetter (className property : String)
  /-- A part of the content of an instance cannot be changed. -/
  | notWritable (className name : String)
  /-- The object has no place for keys other than attribute names. -/
  | noNamespace
  /-- A method of a class was used on an instance of another. -/
  | wrongReceiver (method owner given : String)
  /-- A class was called with an argument that it does not take. -/
  | takesNoArguments (className : String)
  /-- Instances of the class have no elements to go through. -/
  | notIterable (className : String)
  /-- An enumeration member was made without a value. -/
  | memberWithoutValue
  | missingArgument (function argument : String)
  | tooManyArguments (function : String) (least most given : Nat)
  /-- A caller's predicate rejected its argument. -/
  | refused (text : String)
  /-- A caller's predicate looked for a key that is not there. -/
  | keyAbsent (text : String)
  /-- A caller's predicate broke down. -/
  | broken (text : String)
  /-- An attribute is defined by itself. -/
  | tooDeep
  | repetitionTooLarge
  | incompatibleFlags
  | noModule (text : String)
  | emptyModuleName
  | relativeModule (name : String)
  | unknownName (name : String)
  | keywordsNotText
  /-- A plan has no executor at the place. -/
  | noExecutor
  | noFile (path : String)
deriving DecidableEq

/-- How many arguments a function takes. -/
def arityText (least most : Nat) : String :=
  if least = most then toString most ++ " positional argument" ++ (if most = 1 then "" else "s")
  else "from " ++ toString least ++ " to " ++ toString most ++ " positional arguments"

namespace Fault

/-- The wording of a failure. -/
def message : Fault → String
  | .unordered c left right =>
    "'" ++ c.sign ++ "' not supported between instances of '" ++ left ++ "' and '" ++ right ++ "'"
  | .unhashable className => "unhashable type: '" ++ className ++ "'"
  | .unhashableDecimal => "Cannot hash a signaling NaN value"
  | .undefinedDecimal => "[<class 'decimal.InvalidOperation'>]"
  | .lengthTooLarge => "Python int too large to convert to C ssize_t"
  | .wholeTooLarge => "int too large to convert to float"
  | .fractionTooLarge => "integer division result too large for a float"
  | .noAttribute className name =>
    "'" ++ className ++ "' object has no attribute '" ++ name ++ "'"
  | .noClassAttribute className name =>
    "type object '" ++ className ++ "' has no attribute '" ++ name ++ "'"
  | .readOnlyAttribute className name =>
    "'" ++ className ++ "' object attribute '" ++ name ++ "' is read-only"
  | .noSetter className property =>
    "property '" ++ property ++ "' of '" ++ className ++ "' object has no setter"
  | .notWritable className name =>
    "attribute '" ++ name ++ "' of '" ++ className ++ "' objects is not writable"
  | .noNamespace => "vars() argument must have __dict__ attribute"
  | .wrongReceiver method owner given =>
    "descriptor '" ++ method ++ "' for '" ++ owner ++ "' objects doesn't apply to a '" ++ given
      ++ "' object"
  | .takesNoArguments className => className ++ "() takes no arguments"
  | .notIterable className => "'" ++ className ++ "' object is not iterable"
  | .memberWithoutValue => "Enum.__new__() missing 1 required positional argument: 'value'"
  | .missingArgument function argument =>
    function ++ " missing 1 required positional argument: '" ++ argument ++ "'"
  | .tooManyArguments function least most given =>
    function ++ " takes " ++ arityText least most ++ " but " ++ toString given ++ " were given"
  | .refused text => text
  | .keyAbsent text => text
  | .broken text => text
  | .tooDeep => "maximum recursion depth exceeded"
  | .repetitionTooLarge => "the repetition number is too large"
  | .incompatibleFlags => "ASCII and UNICODE flags are incompatible"
  | .noModule text => text
  | .emptyModuleName => "Empty module name"
  | .relativeModule name =>
    "the 'package' argument is required to perform a relative import for " ++ Quoted.text name
  | .unknownName name => "name '" ++ name ++ "' is not defined"
  | .keywordsNotText => "keywords must be strings"
  | .noExecutor => "tuple index out of range"
  | .noFile path => "[Errno 2] No such file or directory: " ++ Quoted.text path

end Fault

end Rulebook
