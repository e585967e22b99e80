import Rulebook.Object.Attribute
import Rulebook.Strategy.Email

/-!
# Strategies

The strategy of a rule type decides whether a value satisfies a declaration of that type, and words
the complaint when it does not. What has the wrong shape does not satisfy. Only comparisons of a
length with something that is no number, patterns beyond all bounds and predicates of callers fail.
-/

set_option autoImplicit false

namespace Rulebook

/-- Decides whether a value satisfies a declaration; if not, there is a complaint about the property
of the given name. -/
abbrev Strategy := World → Value → Declaration → String → Except Fault (Option String)

/-- Complains unless a condition holds. -/
def complainUnless (holds : Bool) (complaint : String) : Option String :=
  if holds then none else some complaint

@[simp] theorem pure_complainUnless_eq_none {holds : Bool} {complaint : String} :
    (pure (complainUnless holds complaint) : Except Fault _) = .ok none ↔ holds = true := by
  cases holds <;> simp [complainUnless, pure, Except.pure]

@[simp] theorem pure_complainUnless_eq_some {holds : Bool} {complaint : String} :
    (pure (complainUnless holds complaint) : Except Fault _) = .ok (some complaint) ↔
      holds = false := by
  cases holds <;> simp [complainUnless, pure, Except.pure]

namespace Real

/-- A whole number, as far as the nearest double tells. -/
def isWhole : Real → Bool
  | .whole _ => true
  | r => match r.toDouble? with
    | some d => d.isWhole
    | none => false

end Real

namespace World

/-- Compares the places of two numbers in the order. -/
def holds (c : Comparison) (a b : Option Extended) : Bool :=
  match c with
  | .lt => Extended.holdsLt a b
  | .gt => Extended.holdsLt b a
  | .le => Extended.holdsLe a b
  | .ge => Extended.holdsLe b a

/-- Compares a length with a bound, which may turn out not to be a number. -/
def compareLength (w : World) (c : Comparison) (n : Nat) (bound : Value) : Except Fault Bool :=
  let place : Option Extended := some (.rat n)
  match w.heap.plain bound with
  | .int m => return holds c place (some (.rat m))
  | .bool b => return holds c place (some (.rat (if b then 1 else 0)))
  | .fraction q => return holds c place (some (.rat q))
  | .float d => return holds c place (Extended.ofDouble? d)
  | .decimal (.nan ..) => throw .undefinedDecimal
  | .decimal d => return holds c place (Extended.ofDecimal? d)
  | _ =>
    throw (.unordered c (w.operandName (.builtin .int)) (w.operandName (w.classOf bound)))

/-- The bound is positive infinity. -/
def isUnbounded (w : World) (bound : Value) : Except Fault Bool :=
  match w.heap.plain bound with
  | .float d => return d = .infinite false
  | .decimal (.nan _ true ..) => throw .undefinedDecimal
  | .decimal d => return d = .infinite false
  | .complex re im => return re = .infinite false && im.isZero
  | _ => return false

end World

namespace Strategy

/-- The text that stands for an impossible constraint. -/
def misconfigured (property : String) : String := property ++ " validation configuration error"

/-- Text. -/
def isString : Strategy := fun w v _ property =>
  return complainUnless (w.heap.text? v).isSome (property ++ " must be a string")

/-- A finite number. -/
def isNumber : Strategy := fun w v _ property =>
  return complainUnless (w.heap.isFinite v) (property ++ " must be a valid number")

/-- A truth value. -/
def isBoolean : Strategy := fun _ v _ property =>
  let holds := match v with
    | .bool _ => true
    | _ => false
  return complainUnless holds (property ++ " must be a boolean")

/-- A sequence other than text. -/
def isArray : Strategy := fun w v _ property =>
  return complainUnless (w.heap.isSequence v) (property ++ " must be an array")

/-- A number above zero. -/
def isPositive : Strategy := fun w v _ property =>
  let holds := match w.heap.real? v with
    | some r => (Real.whole 0).lt r
    | none => false
  return complainUnless holds (property ++ " must be a positive number")

/-- A whole number. -/
def isInt : Strategy := fun w v _ property =>
  let holds := match w.heap.real? v with
    | some r => r.isWhole
    | none => false
  return complainUnless holds (property ++ " must be an integer")

/-- A number that stands in a relation to the constraint, which is zero unless given. -/
def bounded (relation : Real → Real → Bool) (words : String) : Strategy :=
  fun w v d property =>
    let bound := d.constraint 0 (.int 0)
    match w.heap.real? bound with
    | none => return some (misconfigured property)
    | some b =>
      let holds := match w.heap.real? v with
        | some r => relation r b
        | none => false
      return complainUnless holds (property ++ words ++ w.plainText bound)

/-- A number that is at least the constraint. -/
def least : Strategy := bounded (fun r b => b.le r) " must be at least "

/-- A number that is at most the constraint. -/
def most : Strategy := bounded Real.le " must be at most "

/-- Text whose length lies between two bounds, both included. -/
def length : Strategy := fun w v d property =>
  match w.heap.text? v with
  | none => return some (property ++ " must be a string")
  | some s => do
    let low := d.constraint 0 (.int 0)
    let high := d.constraint 1 (.float (.infinite false))
    let tooShort ← w.compareLength .lt s.length low
    let outside ← if tooShort then pure true else w.compareLength .gt s.length high
    if !outside then return none
    else if ← w.isUnbounded high then
      return some (property ++ " must be longer than or equal to " ++ w.plainText low
        ++ " characters")
    else
      return some (property ++ " must be between " ++ w.plainText low ++ " and " ++ w.plainText high
        ++ " characters")

/-- The pattern of a constraint, which may be spelled out: none when it is none or malformed. -/
def patternOf (w : World) (constraint : Value) : Except Fault (Option Pattern.Node) :=
  match w.heap.text? constraint with
  | some source =>
    match Pattern.parse source with
    | .ok (node, _) => return some node
    | .error (.malformed ..) => return none
    | .error .repetitionTooLarge => throw .repetitionTooLarge
    | .error .incompatibleFlags => throw .incompatibleFlags
  | none => return (w.heap.pattern? constraint).map (·.node)

/-- Text in which the pattern occurs. -/
def matching : Strategy := fun w v d property =>
  match w.heap.text? v with
  | none => return some (property ++ " must be a string")
  | some s => do
    match ← patternOf w (d.constraint 0 .nothing) with
    | none => return some (misconfigured property)
    | some node => return complainUnless (node.search s) (property ++ " format is invalid")

/-- A mail address. -/
def isEmail : Strategy := fun w v _ property =>
  let holds := match w.heap.text? v with
    | some s => Email.accepts s
    | none => false
  return complainUnless holds (property ++ " must be a valid email address")

/-- The least length that cannot be counted. -/
def uncountable : Nat := scaleUp 1 2 63

/-- A sequence whose length stands in a relation to the constraint. -/
def sized (c : Comparison) (default : Value) (words : String) : Strategy := fun w v d property =>
  match w.heap.sequence? v with
  | none => return some (property ++ " must be an array")
  | some (n, _) => do
    if uncountable ≤ n then throw .lengthTooLarge
    let bound := d.constraint 0 default
    let holds ← w.compareLength c n bound
    return complainUnless holds (property ++ words ++ w.plainText bound ++ " elements")

/-- A sequence with at least so many elements. -/
def leastSize : Strategy := sized .ge (.int 0) " must contain at least "

/-- A sequence with at most so many elements. -/
def mostSize : Strategy := sized .le (.float (.infinite false)) " must contain no more than "

/-- A value that satisfies the predicate in the constraint. -/
def custom : Strategy := fun w v d property =>
  let predicate := d.constraint 0 .nothing
  match w.calls w.heap predicate with
  | some call => do
    return complainUnless (← call v) (property ++ " failed custom validation")
  | none => return some (misconfigured property)

end Strategy

/-- The strategies that are always there. -/
def Strategy.standing : Catalog String Strategy :=
  [("IsString", isString), ("IsNumber", isNumber), ("IsBoolean", isBoolean), ("IsArray", isArray),
    ("IsPositive", isPositive), ("IsInt", isInt), ("Min", least), ("Max", most),
    ("Length", length), ("Matches", matching), ("IsEmail", isEmail), ("ArrayMinSize", leastSize),
    ("ArrayMaxSize", mostSize), ("Custom", custom)]

end Rulebook
