import Rulebook.Number.Double

/-!
# The shortest decimal of a double

A double stands for all reals that round to it. Of the decimals among them, `Shortest.digits` picks
one with the fewest digits, and of those the nearest to the double, a tie going to the even digit.
-/

set_option autoImplicit false

namespace Rulebook.Shortest

/-- A decimal: digits · 10 ^ exponent. -/
structure Decimal where
  digits : Nat
  exponent : Int
deriving DecidableEq, Inhabited

/-- Compares a · 10 ^ i with n · 2 ^ j. -/
def compareScaled (a : Nat) (i : Int) (n : Nat) (j : Int) : Ordering :=
  compare (scaleUp (scaleUp a 10 i) 2 (-j)) (scaleUp (scaleUp n 2 j) 10 (-i))

/-- Four times the mantissa of the lower end of the reals that round to the double: halfway to the
neighbour below, which is nearer than usual just below a power of two. -/
def lowerEnd (mantissa : Nat) (exponent : Int) : Nat :=
  if mantissa = Double.fullMantissa ∧ Double.leastExponent < exponent then 4 * mantissa - 1
  else 4 * mantissa - 2

/-- The decimal lies among the reals that round to mantissa · 2 ^ exponent. The ends belong to them
when the mantissa is even. -/
def readsBack (mantissa : Nat) (exponent : Int) (d : Decimal) : Bool :=
  let even := mantissa % 2 = 0
  let low := compareScaled d.digits d.exponent (lowerEnd mantissa exponent) (exponent - 2)
  let high := compareScaled d.digits d.exponent (4 * mantissa + 2) (exponent - 2)
  (low = .gt || (even && low = .eq)) && (high = .lt || (even && high = .eq))

/-- The least k for which mantissa · 2 ^ exponent is below 10 ^ k. -/
def scale (mantissa : Nat) (exponent : Int) : Int :=
  let whole := scaleUp mantissa 2 exponent / scaleUp 1 2 (-exponent)
  if whole = 0 then
    let inverse := (scaleUp 1 2 (-exponent) + mantissa - 1) / mantissa
    1 - ((Nat.toDigits 10 (inverse - 1)).length : Int)
  else (Nat.toDigits 10 whole).length

/-- The digits of mantissa · 2 ^ exponent in units of 10 ^ place, rounded down. -/
def floorAt (mantissa : Nat) (exponent place : Int) : Nat :=
  scaleUp (scaleUp mantissa 2 exponent) 10 (-place)
    / scaleUp (scaleUp 1 2 (-exponent)) 10 place

/-- Of the two neighbours on the grid of 10 ^ place, the nearest that reads back. -/
def onGrid (mantissa : Nat) (exponent place : Int) : Option Decimal :=
  let below : Decimal := ⟨floorAt mantissa exponent place, place⟩
  let above : Decimal := ⟨below.digits + 1, place⟩
  match readsBack mantissa exponent below, readsBack mantissa exponent above with
  | true, true =>
    match compareScaled (below.digits + above.digits) place (2 * mantissa) exponent with
    | .lt => some above
    | .gt => some below
    | .eq => some (if below.digits % 2 = 0 then below else above)
  | true, false => some below
  | false, true => some above
  | false, false => none

/-- Moves trailing zeros of the digits into the exponent; `room` bounds how many. -/
def strip (room : Nat) (d : Decimal) : Decimal :=
  match room with
  | 0 => d
  | room + 1 =>
    if d.digits ≠ 0 ∧ d.digits % 10 = 0 then strip room ⟨d.digits / 10, d.exponent + 1⟩ else d

/-- The shortest decimal that reads back as mantissa · 2 ^ exponent. Seventeen digits always
suffice; were they not to, the exact value would stand in. -/
def digits (mantissa : Nat) (exponent : Int) : Decimal :=
  let k := scale mantissa exponent
  let exact : Decimal :=
    ⟨scaleUp (scaleUp mantissa 2 exponent) 5 (-exponent), min exponent 0⟩
  let found := (List.range 17).findSome? fun (n : Nat) =>
    onGrid mantissa exponent (k - (n + 1 : Nat))
  strip 400 (found.getD exact)

end Rulebook.Shortest
