import Rulebook.Number.Numeral

/-!
# Decimals

Decimal numbers that keep their trailing zeros: a sign, a coefficient and a power of ten. A decimal
is written with an exponent when the power is positive or the number is very small.
-/

set_option autoImplicit false

namespace Rulebook

/-- A decimal number. A signalling one refuses every use as a number. -/
inductive Decimal where
  | finite (negative : Bool) (coefficient : Nat) (exponent : Int)
  | infinite (negative : Bool)
  | nan (negative : Bool) (signalling : Bool) (payload : String) (tag : Nat)
deriving DecidableEq, Inhabited

namespace Decimal

/-- The exact value of a finite decimal. -/
def toRat? : Decimal → Option Rat
  | .finite negative coefficient exponent =>
    let magnitude :=
      mkRat (scaleUp coefficient 10 exponent) (scaleUp 1 10 (-exponent))
    some (if negative then -magnitude else magnitude)
  | _ => none

/-- Only zeros are false. -/
def isZero : Decimal → Bool
  | .finite _ coefficient _ => coefficient = 0
  | _ => false

/-- The coefficient with a point after `before` of its digits. -/
def pointed (digits : List Char) (before : Int) : String :=
  if before ≤ 0 then "0." ++ String.ofList (List.replicate (-before).toNat '0' ++ digits)
  else if digits.length ≤ before.toNat then
    String.ofList (digits ++ List.replicate (before.toNat - digits.length) '0')
  else String.ofList (digits.take before.toNat ++ '.' :: digits.drop before.toNat)

/-- The text of a decimal. -/
def text : Decimal → String
  | .finite negative coefficient exponent =>
    let digits := Nat.toDigits 10 coefficient
    let left := exponent + digits.length
    let before := if exponent ≤ 0 ∧ -6 < left then left else 1
    let shift := left - before
    let power :=
      if shift = 0 then "" else "E" ++ (if shift < 0 then "-" else "+") ++ toString shift.natAbs
    (if negative then "-" else "") ++ pointed digits before ++ power
  | .infinite negative => (if negative then "-" else "") ++ "Infinity"
  | .nan negative signalling payload _ =>
    (if negative then "-" else "") ++ (if signalling then "sNaN" else "NaN") ++ payload

/-- The payload of something that is not a number: digits without leading zeros. -/
def payload? (s : List Char) : Option String :=
  if s.all Char.isDigit then some (String.ofList (s.dropWhile (· = '0'))) else none

/-- Reads a decimal. What is not a number gets the tag. -/
def ofText? (tag : Nat) (s : String) : Option Decimal :=
  match Numeral.sign (s.toList.map Char.toLower) with
  | (negative, 'n' :: 'a' :: 'n' :: rest) => (payload? rest).map (.nan negative false · tag)
  | (negative, 's' :: 'n' :: 'a' :: 'n' :: rest) => (payload? rest).map (.nan negative true · tag)
  | (negative, ['i', 'n', 'f']) => some (.infinite negative)
  | (negative, ['i', 'n', 'f', 'i', 'n', 'i', 't', 'y']) => some (.infinite negative)
  | _ => (Numeral.scientific? s.toList).map fun n =>
      .finite n.negative n.coefficient n.exponent

end Decimal

end Rulebook
