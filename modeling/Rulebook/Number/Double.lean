/-!
# Doubles

Binary floating point numbers of 64 bits, kept as a sign, a mantissa and an exponent, so that every
question about them is settled in exact arithmetic. `Double.ofRat?` rounds a rational number to the
nearest double, a half going to the even mantissa, and has no answer when the number is too large.
-/

set_option autoImplicit false

namespace Rulebook

/-- A double: the number ± mantissa · 2 ^ exponent, an infinity, or something that is not a number.
The tag tells apart the latter, which compare unequal to everything but are objects all the same. -/
inductive Double where
  | finite (negative : Bool) (mantissa : Nat) (exponent : Int)
  | infinite (negative : Bool)
  | nan (tag : Nat)
deriving DecidableEq, Inhabited

/-- The quotient rounded to the nearest natural number, a half to the even one. -/
def roundHalfEven (num den : Nat) : Nat :=
  let q := num / den
  let r := num % den
  if 2 * r < den then q else if den < 2 * r then q + 1 else q + q % 2

/-- The number times a power of the base; a negative exponent counts as zero. -/
def scaleUp (n base : Nat) (exponent : Int) : Nat := n * Nat.pow base exponent.toNat

namespace Double

/-- Doubles carry 53 significant bits. -/
def precision : Nat := 53

/-- The least mantissa with so many bits. -/
def fullMantissa : Nat := scaleUp 1 2 (precision - 1)

/-- The exponent of the last place of the smallest doubles. -/
def leastExponent : Int := -1074

/-- The exponent of the last place of the largest doubles. -/
def greatestExponent : Int := 971

/-- Positive zero. -/
def zero : Double := .finite false 0 leastExponent

/-- The exact value of mantissa · 2 ^ exponent. -/
def scaled (mantissa : Nat) (exponent : Int) : Rat :=
  mkRat (scaleUp mantissa 2 exponent) (scaleUp 1 2 (-exponent))

/-- The exact value of a finite double. -/
def toRat? : Double → Option Rat
  | .finite negative mantissa exponent =>
    some (if negative then -scaled mantissa exponent else scaled mantissa exponent)
  | _ => none

/-- The exponent that the last of 53 places has in a number as large as `num / den`. -/
def lastPlace (num den : Nat) : Int :=
  let guess : Int := (num.log2 : Int) - den.log2
  let top := if scaleUp den 2 guess ≤ scaleUp num 2 (-guess) then guess else guess - 1
  max (top - (precision - 1)) leastExponent

/-- The double nearest to `num / den`, without a sign; none when it would lie beyond the largest. -/
def nearest? (num den : Nat) : Option (Nat × Int) :=
  let e := lastPlace num den
  let m := roundHalfEven (scaleUp num 2 (-e)) (scaleUp den 2 e)
  let (m, e) := if m = 2 * fullMantissa then (fullMantissa, e + 1) else (m, e)
  if e ≤ greatestExponent then some (m, e) else none

/-- The double nearest to a rational number, unless the number is too large to have one. -/
def ofRat? (q : Rat) : Option Double :=
  (nearest? q.num.natAbs q.den).map fun (m, e) => .finite (q.num < 0) m e

/-- A finite double without a fractional part. -/
def isWhole : Double → Bool
  | .finite _ mantissa exponent => 0 ≤ exponent || mantissa % scaleUp 1 2 (-exponent) = 0
  | _ => false

/-- Both zeros, of either sign. -/
def isZero : Double → Bool
  | .finite _ mantissa _ => mantissa = 0
  | _ => false

end Double

end Rulebook
