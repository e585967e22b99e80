import Rulebook.Number.Decimal

/-!
# The order of numbers

All kinds of numbers are compared exactly, as rational numbers with two infinities. What is not a
number stands in no relation to anything, itself included.
-/

set_option autoImplicit false

namespace Rulebook

/-- A rational number or an infinity. -/
inductive Extended where
  | bottom
  | rat (q : Rat)
  | top
deriving DecidableEq, Inhabited

namespace Extended

/-- The order, with the infinities at its ends. -/
def le : Extended → Extended → Bool
  | .bottom, _ => true
  | _, .top => true
  | .rat p, .rat q => p ≤ q
  | _, _ => false

/-- Strictly below. -/
def lt (a b : Extended) : Bool := !b.le a

/-- The place of a double in the order; none when it is not a number. -/
def ofDouble? : Double → Option Extended
  | .finite negative m e => (Double.toRat? (.finite negative m e)).map .rat
  | .infinite negative => some (if negative then .bottom else .top)
  | .nan _ => none

/-- The place of a decimal in the order; none when it is not a number. -/
def ofDecimal? : Decimal → Option Extended
  | .finite negative c e => (Decimal.toRat? (.finite negative c e)).map .rat
  | .infinite negative => some (if negative then .bottom else .top)
  | .nan .. => none

end Extended

/-- `a ≤ b`, false when either is not a number. -/
def Extended.holdsLe (a b : Option Extended) : Bool :=
  match a, b with
  | some a, some b => a.le b
  | _, _ => false

/-- `a < b`, false when either is not a number. -/
def Extended.holdsLt (a b : Option Extended) : Bool :=
  match a, b with
  | some a, some b => a.lt b
  | _, _ => false

end Rulebook
